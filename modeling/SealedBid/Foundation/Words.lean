import SealedBid.Foundation.TextLines

/-!
# Words of a text

The words of a text are its longest runs of characters that are no white space (`words`). Two ways
to tidy a text are expressed by them: without the white space at its ends a text has the same words
(`words_trim`), and with every run of white space in it replaced by one space it is its words with a
space in between (`replaceWhiteSpace_trim`).

So a text that is tidied in both ways is known from its words, and has the same words again
(`words_intercalate`).
-/

set_option autoImplicit false
set_option relaxedAutoImplicit false

namespace SealedBid.TextLines

/-- The words of a text, in order. -/
def words : List Char → List (List Char)
  | [] => []
  | c :: cs =>
    if isWhiteSpace c then words cs
    else if cs.head?.all isWhiteSpace then [c] :: words cs
    else (words cs).modifyHead (c :: ·)

/-- The text with its white space replaced; whether the character before it was white space is
given. -/
def replaceFrom : Bool → List Char → List Char
  | _, [] => []
  | afterWhite, c :: cs =>
    if isWhiteSpace c then
      if afterWhite then replaceFrom true cs else ' ' :: replaceFrom true cs
    else c :: replaceFrom false cs

/-- Every longest run of white space replaced by one space. -/
def replaceWhiteSpace (text : List Char) : List Char := replaceFrom false text

/-! ### White space around words -/

theorem words_cons_of_white {c : Char} (hc : isWhiteSpace c = true) (cs : List Char) :
    words (c :: cs) = words cs := by
  rw [words, if_pos hc]

/-- A character in front of white space, or of nothing, is a word. -/
theorem words_cons_of_end {c : Char} (hc : isWhiteSpace c = false) {cs : List Char}
    (hend : cs.head?.all isWhiteSpace = true) : words (c :: cs) = [c] :: words cs := by
  rw [words, if_neg (by simp [hc]), if_pos hend]

/-- A character in front of another one belongs to its word. -/
theorem words_cons_of_next {c d : Char} (hc : isWhiteSpace c = false)
    (hd : isWhiteSpace d = false) (cs : List Char) :
    words (c :: d :: cs) = (words (d :: cs)).modifyHead (c :: ·) := by
  rw [words, if_neg (by simp [hc]), if_neg (by simp [hd])]

theorem words_eq_nil_iff {text : List Char} :
    words text = [] ↔ ∀ c ∈ text, isWhiteSpace c = true := by
  induction text with
  | nil => simp [words]
  | cons c cs ih =>
    rw [List.forall_mem_cons, ← ih]
    by_cases hc : isWhiteSpace c = true
    · rw [words_cons_of_white hc, and_iff_right hc]
    · rw [words, if_neg hc]
      split_ifs with hend
      · simp [hc]
      · cases cs with
        | nil => simp at hend
        | cons d cs =>
          have hd : ¬ isWhiteSpace d = true := by simpa using hend
          have hwords : words (d :: cs) ≠ [] := fun h ↦ hd (ih.mp h d List.mem_cons_self)
          cases hrest : words (d :: cs) with
          | nil => exact absurd hrest hwords
          | cons word rest => simp [hc]

theorem words_append_of_white (text : List Char) {spaces : List Char}
    (h : ∀ c ∈ spaces, isWhiteSpace c = true) : words (text ++ spaces) = words text := by
  induction text with
  | nil => exact words_eq_nil_iff.mpr h
  | cons c cs ih =>
    rw [List.cons_append]
    by_cases hc : isWhiteSpace c = true
    · rw [words_cons_of_white hc, words_cons_of_white hc, ih]
    · have hhead : (cs ++ spaces).head?.all isWhiteSpace = cs.head?.all isWhiteSpace := by
        cases cs with
        | cons d cs => rfl
        | nil => cases spaces with
          | nil => rfl
          | cons d spaces => exact h d List.mem_cons_self
      rw [words, words, if_neg hc, if_neg hc, hhead, ih]

theorem words_dropWhile (text : List Char) : words (text.dropWhile isWhiteSpace) = words text := by
  induction text with
  | nil => rfl
  | cons c cs ih =>
    by_cases hc : isWhiteSpace c = true
    · rw [List.dropWhile_cons_of_pos hc, ih, words_cons_of_white hc]
    · rw [List.dropWhile_cons_of_neg hc]

/-- A text has the same words without the white space at its ends. -/
theorem words_trim (text : List Char) : words (trim text) = words text := by
  have hsplit : text.dropWhile isWhiteSpace =
      trim text ++ ((text.dropWhile isWhiteSpace).reverse.takeWhile isWhiteSpace).reverse := by
    rw [trim, ← List.reverse_append, List.takeWhile_append_dropWhile, List.reverse_reverse]
  rw [← words_dropWhile text, hsplit, words_append_of_white]
  intro c hc
  exact List.mem_takeWhile_imp (List.mem_reverse.mp hc)

/-- White space separates words. -/
theorem words_append_cons_of_white (text : List Char) {c : Char} (hc : isWhiteSpace c = true)
    (rest : List Char) : words (text ++ c :: rest) = words text ++ words rest := by
  induction text with
  | nil => exact words_cons_of_white hc rest
  | cons d cs ih =>
    rw [List.cons_append]
    by_cases hd : isWhiteSpace d = true
    · rw [words_cons_of_white hd, words_cons_of_white hd, ih]
    · have hhead : (cs ++ c :: rest).head?.all isWhiteSpace = cs.head?.all isWhiteSpace := by
        cases cs with
        | nil => simpa using hc
        | cons e cs => rfl
      rw [words, words, if_neg hd, if_neg hd, hhead, ih]
      split_ifs with hend
      · rfl
      · cases hwords : words cs with
        | cons word others => rfl
        | nil =>
          rw [words_eq_nil_iff] at hwords
          cases cs with
          | nil => simp at hend
          | cons e cs => simp [hwords e List.mem_cons_self] at hend

/-- A text without white space is one word. -/
theorem words_of_notWhite {text : List Char} (hne : text ≠ [])
    (h : ∀ c ∈ text, isWhiteSpace c = false) : words text = [text] := by
  induction text with
  | nil => exact absurd rfl hne
  | cons c cs ih =>
    rw [List.forall_mem_cons] at h
    cases cs with
    | nil => exact words_cons_of_end h.1 rfl
    | cons d cs =>
      rw [words_cons_of_next h.1 (h.2 d List.mem_cons_self), ih (List.cons_ne_nil d cs) h.2]
      rfl

/-! ### White space at the ends -/

theorem head_trim (text : List Char) : (trim text).head?.all (!isWhiteSpace ·) := by
  have hdrop : trim (text.dropWhile isWhiteSpace) = trim text := by
    rw [trim, trim, List.dropWhile_idempotent]
  rw [← hdrop]
  cases hrest : text.dropWhile isWhiteSpace with
  | nil => rfl
  | cons c cs =>
    have hc : isWhiteSpace c = false := by
      have hhead := List.head?_dropWhile_not isWhiteSpace text
      rw [hrest] at hhead
      simpa using hhead
    obtain ⟨kept, hkept⟩ := trim_cons hc cs
    rw [hkept]
    simp [hc]

theorem getLast_trim (text : List Char) : (trim text).getLast?.all (!isWhiteSpace ·) := by
  rw [trim, List.getLast?_reverse]
  have hhead := List.head?_dropWhile_not isWhiteSpace (text.dropWhile isWhiteSpace).reverse
  cases hrest : ((text.dropWhile isWhiteSpace).reverse.dropWhile isWhiteSpace).head? with
  | none => rfl
  | some c =>
    rw [hrest] at hhead
    simpa using hhead

/-- A trimmed text is empty when the text has no words. -/
theorem trim_eq_nil_iff {text : List Char} : trim text = [] ↔ words text = [] := by
  constructor
  · intro htrim
    rw [← words_trim, htrim]
    rfl
  · intro hwords
    exact trim_eq_nil (words_eq_nil_iff.mp hwords)

/-- White space within a trimmed text stands between two words. -/
theorem two_le_length_words {text before after : List Char} {c : Char}
    (hsplit : trim text = before ++ c :: after) (hc : isWhiteSpace c = true) :
    2 ≤ (words text).length := by
  have hbefore : words before ≠ [] := by
    intro hnil
    rw [words_eq_nil_iff] at hnil
    have hhead := head_trim text
    rw [hsplit] at hhead
    cases before with
    | nil => simp [hc] at hhead
    | cons d ds => simp [hnil d List.mem_cons_self] at hhead
  have hafter : words after ≠ [] := by
    intro hnil
    rw [words_eq_nil_iff] at hnil
    have hwhite : ∀ d ∈ c :: after, isWhiteSpace d = true := List.forall_mem_cons.mpr ⟨hc, hnil⟩
    have hlast := getLast_trim text
    rw [hsplit, List.getLast?_append, List.getLast?_eq_some_getLast (List.cons_ne_nil c after),
      Option.some_or] at hlast
    simp [hwhite _ (List.getLast_mem (List.cons_ne_nil c after))] at hlast
  rw [← words_trim, hsplit, words_append_cons_of_white before hc, List.length_append]
  have hpositive := List.length_pos_iff.mpr hbefore
  have hpositive' := List.length_pos_iff.mpr hafter
  omega

/-- A text has one word when it is not empty without the white space at its ends and has none
within; that is the word then. -/
theorem words_eq_singleton_iff {text word : List Char} :
    words text = [word] ↔
      trim text = word ∧ word ≠ [] ∧ ∀ c ∈ word, isWhiteSpace c = false := by
  constructor
  · intro hwords
    have hne : trim text ≠ [] := fun h ↦ by simp [trim_eq_nil_iff.mp h] at hwords
    have hone : ∀ c ∈ trim text, isWhiteSpace c = false := by
      intro c hmem
      by_contra hc
      obtain ⟨before, after, hsplit⟩ := List.append_of_mem hmem
      have hlength := two_le_length_words hsplit (by simpa using hc)
      rw [hwords, List.length_singleton] at hlength
      omega
    have hself := words_of_notWhite hne hone
    rw [words_trim, hwords] at hself
    obtain rfl := List.singleton_inj.mp hself
    exact ⟨rfl, hne, hone⟩
  · rintro ⟨rfl, hne, hone⟩
    rw [← words_trim]
    exact words_of_notWhite hne hone

/-! ### One space in between -/

theorem intercalate_cons {rest : List (List Char)} (hne : rest ≠ []) (word : List Char) :
    [' '].intercalate (word :: rest) = word ++ ' ' :: [' '].intercalate rest := by
  cases rest with
  | nil => exact absurd rfl hne
  | cons other rest => simp [List.intercalate]

/-- The first character of a text that is joined from words. -/
theorem intercalate_modifyHead {rest : List (List Char)} (hne : rest ≠ []) (c : Char) :
    [' '].intercalate (rest.modifyHead (c :: ·)) = c :: [' '].intercalate rest := by
  cases rest with
  | nil => exact absurd rfl hne
  | cons word rest =>
    rw [List.modifyHead_cons]
    cases rest with
    | nil => simp [List.intercalate]
    | cons other rest =>
      have hne : other :: rest ≠ [] := List.cons_ne_nil other rest
      rw [intercalate_cons hne word]
      exact intercalate_cons hne (c :: word)

/-- After white space a text without white space at its end becomes its words. -/
theorem replaceFrom_true {text : List Char} (hlast : text.getLast?.all (!isWhiteSpace ·)) :
    replaceFrom true text = [' '].intercalate (words text) := by
  induction text with
  | nil => rfl
  | cons c cs ih =>
    have hrest : cs.getLast?.all (!isWhiteSpace ·) := by
      cases cs with
      | nil => rfl
      | cons d cs => rwa [List.getLast?_cons_cons] at hlast
    by_cases hc : isWhiteSpace c = true
    · rw [replaceFrom, if_pos hc, if_pos rfl, ih hrest, words_cons_of_white hc]
    · rw [replaceFrom, if_neg hc]
      have hc' : isWhiteSpace c = false := by simpa using hc
      cases cs with
      | nil => rw [words_cons_of_end hc' rfl]; rfl
      | cons d cs =>
        have hne : words (d :: cs) ≠ [] := by
          intro hnil
          rw [words_eq_nil_iff] at hnil
          have hmem := List.getLast_mem (List.cons_ne_nil d cs)
          rw [List.getLast?_eq_some_getLast (List.cons_ne_nil d cs)] at hrest
          simp [hnil _ hmem] at hrest
        by_cases hd : isWhiteSpace d = true
        · -- the white space ends a word
          have hspace : replaceFrom false (d :: cs) = ' ' :: replaceFrom true (d :: cs) := by
            simp [replaceFrom, hd]
          rw [hspace, ih hrest, words_cons_of_end hc' (by simpa using hd), intercalate_cons hne]
          rfl
        · have hsame : replaceFrom false (d :: cs) = replaceFrom true (d :: cs) := by
            simp [replaceFrom, hd]
          rw [hsame, ih hrest, words_cons_of_next hc' (by simpa using hd),
            intercalate_modifyHead hne]

/-- A trimmed text with its white space replaced is its words with a space in between. -/
theorem replaceWhiteSpace_trim (text : List Char) :
    replaceWhiteSpace (trim text) = [' '].intercalate (words text) := by
  have hstart : replaceFrom false (trim text) = replaceFrom true (trim text) := by
    have hhead := head_trim text
    cases htrim : trim text with
    | nil => rfl
    | cons c cs =>
      rw [htrim] at hhead
      have hc : ¬ isWhiteSpace c = true := by simpa using hhead
      rw [replaceFrom, replaceFrom, if_neg hc, if_neg hc]
  rw [replaceWhiteSpace, hstart, replaceFrom_true (getLast_trim text), words_trim]

/-- The only white space that is left is the space. -/
theorem eq_space_of_mem_replaceFrom {afterWhite : Bool} {text : List Char} {c : Char}
    (hmem : c ∈ replaceFrom afterWhite text) (hc : isWhiteSpace c = true) : c = ' ' := by
  induction text generalizing afterWhite with
  | nil => simp [replaceFrom] at hmem
  | cons d cs ih =>
    rw [replaceFrom] at hmem
    split_ifs at hmem with hd hafter
    · exact ih hmem
    · rcases List.mem_cons.mp hmem with rfl | hmem
      · rfl
      · exact ih hmem
    · rcases List.mem_cons.mp hmem with rfl | hmem
      · exact absurd hc hd
      · exact ih hmem

/-- A text has the same words when its white space is replaced. -/
theorem words_replaceFrom (afterWhite : Bool) (text : List Char) :
    words (replaceFrom afterWhite text) = words text := by
  induction text generalizing afterWhite with
  | nil => rfl
  | cons c cs ih =>
    rw [replaceFrom]
    by_cases hc : isWhiteSpace c = true
    · rw [if_pos hc, words_cons_of_white hc]
      split_ifs
      · exact ih true
      · rw [words_cons_of_white rfl, ih true]
    · have hhead : (replaceFrom false cs).head?.all isWhiteSpace = cs.head?.all isWhiteSpace := by
        cases cs with
        | nil => rfl
        | cons d cs =>
          by_cases hd : isWhiteSpace d = true
          · simp [replaceFrom, hd, show isWhiteSpace ' ' = true from rfl]
          · simp [replaceFrom, hd]
      rw [if_neg hc, words, words, if_neg hc, if_neg hc, hhead, ih false]

/-- A text that is joined from the words of a text has these words. -/
theorem words_intercalate (text : List Char) :
    words ([' '].intercalate (words text)) = words text := by
  rw [← replaceWhiteSpace_trim, replaceWhiteSpace, words_replaceFrom, words_trim]

end SealedBid.TextLines
