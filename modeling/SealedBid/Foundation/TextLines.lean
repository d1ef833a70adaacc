import SealedBid.Foundation.NumberValues

/-!
# Lines of a text

The lines of a text between line feeds, each of which may have a carriage return before it
(`splitLines`), and the white space around a line (`trim`).

A line that is followed by either line ending comes back from the split, up to a carriage return of
its own before a line feed (`splitLines_append`), and that is white space: a reader that trims
its lines sees the lines that were written, whichever ending each has (`exists_splitLines_append`).
-/

set_option autoImplicit false
set_option relaxedAutoImplicit false

namespace SealedBid.TextLines

/-- The texts between the line endings. -/
def splitLines : List Char → List (List Char)
  | [] => [[]]
  | '\r' :: '\n' :: cs => [] :: splitLines cs
  | '\n' :: cs => [] :: splitLines cs
  | c :: cs => (splitLines cs).modifyHead (c :: ·)

/-- A line feed, or a carriage return and a line feed. -/
inductive LineEnding
  | lf
  | crlf
  deriving DecidableEq

def LineEnding.chars : LineEnding → List Char
  | .lf => ['\n']
  | .crlf => ['\r', '\n']

/-- Without white space at either end. -/
def Unpadded (text : List Char) : Prop :=
  text.head?.all (!isWhiteSpace ·) ∧ text.getLast?.all (!isWhiteSpace ·)
  deriving Decidable

/-! ### White space at the ends -/

theorem unpadded_iff {text : List Char} :
    Unpadded text ↔
      (∀ c ∈ text.head?, isWhiteSpace c = false) ∧
        ∀ c ∈ text.getLast?, isWhiteSpace c = false := by
  simp [Unpadded, Option.all_eq_true]

theorem Unpadded.trim_eq {text : List Char} (h : Unpadded text) : trim text = text :=
  trim_eq_self (unpadded_iff.mp h).1 (unpadded_iff.mp h).2

/-- The parts of a text are unpadded together when the first is not empty and a character that is no
white space stands between them. -/
theorem Unpadded.append {first second : List Char} {c : Char} (hfirst : Unpadded first)
    (hne : first ≠ []) (hc : isWhiteSpace c = false) (hsecond : Unpadded second) :
    Unpadded (first ++ c :: second) := by
  rw [unpadded_iff] at hfirst hsecond ⊢
  constructor
  · rw [List.head?_append_of_ne_nil first hne]
    exact hfirst.1
  · intro last hlast
    rw [List.getLast?_append, List.getLast?_cons, Option.some_or, Option.mem_some_iff] at hlast
    subst hlast
    cases hend : second.getLast? with
    | none => exact hc
    | some d => exact hsecond.2 d hend

/-! ### Splitting -/

theorem splitLines_cons {c : Char} {cs : List Char} (hc : c ≠ '\n')
    (hpair : c = '\r' → cs.head? ≠ some '\n') :
    splitLines (c :: cs) = (splitLines cs).modifyHead (c :: ·) := by
  rw [splitLines]
  · rintro rest rfl rfl
    exact hpair rfl rfl
  · exact hc

theorem splitLines_of_notMem {line : List Char} (h : '\n' ∉ line) : splitLines line = [line] := by
  induction line with
  | nil => rfl
  | cons c line ih =>
    rw [List.mem_cons, not_or] at h
    rw [splitLines_cons (Ne.symm h.1), ih h.2, List.modifyHead_cons]
    intro _ hhead
    exact h.2 (List.mem_of_head? hhead)

/-- A line in front of a line ending is split off, but for a carriage return of its own. -/
theorem splitLines_append {line : List Char} (h : '\n' ∉ line) (ending : LineEnding)
    (rest : List Char) :
    ∃ kept, splitLines (line ++ (ending.chars ++ rest)) = kept :: splitLines rest ∧
      (line = kept ∨ line = kept ++ ['\r']) := by
  induction line with
  | nil => cases ending <;> exact ⟨[], rfl, Or.inl rfl⟩
  | cons c line ih =>
    rw [List.mem_cons, not_or] at h
    by_cases hpair : c = '\r' ∧ (line ++ (ending.chars ++ rest)).head? = some '\n'
    · -- the character before a line feed is taken for its carriage return
      obtain ⟨rfl, hhead⟩ := hpair
      cases line with
      | cons d line =>
        exact absurd (Option.some.inj hhead) (fun hd ↦ h.2 (hd ▸ List.mem_cons_self))
      | nil =>
        cases ending with
        | crlf => cases hhead
        | lf => exact ⟨[], rfl, Or.inr rfl⟩
    · obtain ⟨kept, hsplit, hkept⟩ := ih h.2
      refine ⟨c :: kept, ?_, ?_⟩
      · rw [List.cons_append, splitLines_cons (Ne.symm h.1) fun hc hhead ↦ hpair ⟨hc, hhead⟩,
          hsplit, List.modifyHead_cons]
      · rcases hkept with rfl | rfl
        · exact Or.inl rfl
        · exact Or.inr rfl

/-- A reader that trims its lines sees the line that was written. -/
theorem exists_splitLines_append {line : List Char} (h : '\n' ∉ line) (ending : LineEnding)
    (rest : List Char) :
    ∃ kept, splitLines (line ++ (ending.chars ++ rest)) = kept :: splitLines rest ∧
      trim kept = trim line := by
  obtain ⟨kept, hsplit, rfl | rfl⟩ := splitLines_append h ending rest
  · exact ⟨line, hsplit, rfl⟩
  · exact ⟨kept, hsplit, (trim_concat_of_white rfl kept).symm⟩

end SealedBid.TextLines
