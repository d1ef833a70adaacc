import SealedBid.Foundation.PlainObject
import SealedBid.Foundation.TextLines

/-!
# The `.env` file reader

`parseEnvFile` of `env.ts`: the lines of a text are trimmed, blank lines and comments are skipped,
and every other line with a `=` after its first character assigns to the key before it the value
behind it, both trimmed, the value without a single layer of matching quotes. What the reader
returns is the last assignment to each name (`get_parseEnvFile`).

An `EnvDocument` is a file as a user writes it, pairs between blank lines and comments, each pair
bare or in either quotes. It reads back as its pairs with two exceptions
(`parseEnvFile_text_iff`). The quotes are tested at both ends of the same text, so a bare value that
is a single quote character counts as quoted and is read as the empty text; and the result is an
object literal, which has no place for the key `__proto__`.

Scope. Texts are sequences of Unicode scalar values.
-/

set_option autoImplicit false
set_option relaxedAutoImplicit false

namespace SealedBid

open MapEnumeration TextLines

/-! ### The reader -/

inductive Quote
  | double
  | single
  deriving DecidableEq

def Quote.char : Quote → Char
  | .double => '\u0022'
  | .single => '\u0027'

/-- `value.startsWith(quote) && value.endsWith(quote)`. -/
def startsAndEndsWith (quote : Quote) (value : List Char) : Bool :=
  value.head? = some quote.char && value.getLast? = some quote.char

/-- Between an opening and a closing quote of the same kind. -/
def Enclosed (text : List Char) : Prop :=
  2 ≤ text.length ∧ (startsAndEndsWith .double text ∨ startsAndEndsWith .single text)
  deriving Decidable

/-- The value without a single layer of matching quotes, if present. -/
def stripQuotes (value : List Char) : List Char :=
  if startsAndEndsWith .double value || startsAndEndsWith .single value then
    (value.drop 1).dropLast
  else value

/-- The key and the value of a line, unless it is skipped. -/
def parseLine (rawLine : List Char) : Option (String × String) :=
  let line := trim rawLine
  if line = [] ∨ line.head? = some '#' then none
  else if '=' ∉ line ∨ line.idxOf '=' = 0 then none
  else
    let eq := line.idxOf '='
    let key := trim (line.take eq)
    let value := stripQuotes (trim (line.drop (eq + 1)))
    if key = [] then none else some (String.ofList key, String.ofList value)

def parseEnvFile (contents : String) : PlainObject String :=
  (splitLines contents.toList).foldl
    (fun result rawLine ↦
      match parseLine rawLine with
      | some pair => result.assign pair.1 pair.2
      | none => result)
    PlainObject.empty

/-- The assignments of a file, in their order. -/
def assignments (contents : String) : List (String × String) :=
  (splitLines contents.toList).filterMap parseLine

/-- The last assignment of a file to a name. -/
def lastAssignment (contents : String) (name : String) : Option String :=
  (assignments contents).reverse.lookup name

/-- The reader returns the last assignment to a name, but none to `__proto__`. -/
theorem get_parseEnvFile (contents name : String) :
    (parseEnvFile contents).get name =
      if name = "__proto__" then none else lastAssignment contents name := by
  have hfold : parseEnvFile contents =
      (assignments contents).foldl (fun result pair ↦ result.assign pair.1 pair.2)
        PlainObject.empty := by
    rw [assignments, List.foldl_filterMap, parseEnvFile]
    congr 1
    funext result rawLine
    cases parseLine rawLine <;> rfl
  rw [hfold, PlainObject.get_foldl_assign, PlainObject.get_empty, Option.or_none]
  rfl

/-- The white space around a line does not matter. -/
theorem parseLine_congr {line other : List Char} (h : trim line = trim other) :
    parseLine line = parseLine other := by
  unfold parseLine
  rw [h]

theorem parseLine_of_trim_eq_nil {line : List Char} (h : trim line = []) :
    parseLine line = none := by
  unfold parseLine
  rw [if_pos (Or.inl h)]

theorem parseLine_comment (text : List Char) : parseLine ('#' :: text) = none := by
  obtain ⟨kept, hkept⟩ := trim_cons (c := '#') rfl text
  unfold parseLine
  rw [if_pos (Or.inr (by rw [hkept]; rfl))]

theorem stripQuotes_quoted (quote : Quote) (value : List Char) :
    stripQuotes (quote.char :: (value ++ [quote.char])) = value := by
  have hends : startsAndEndsWith quote (quote.char :: (value ++ [quote.char])) = true := by
    rw [startsAndEndsWith, ← List.cons_append, List.getLast?_concat]
    simp
  have heither : (startsAndEndsWith .double (quote.char :: (value ++ [quote.char])) ||
      startsAndEndsWith .single (quote.char :: (value ++ [quote.char]))) = true := by
    cases quote <;> rw [hends] <;> simp
  rw [stripQuotes, if_pos heither, List.drop_one, List.tail_cons, List.dropLast_concat]

theorem unpadded_quoted (quote : Quote) (value : List Char) :
    Unpadded (quote.char :: (value ++ [quote.char])) := by
  have hlast : (quote.char :: (value ++ [quote.char])).getLast? = some quote.char := by
    rw [← List.cons_append, List.getLast?_concat]
  rw [Unpadded, hlast]
  cases quote <;> exact ⟨rfl, rfl⟩

/-- Stripping leaves a value that is not enclosed as it is, unless it is a quote and no more. -/
theorem stripQuotes_eq_self_iff {value : List Char} (h : ¬ Enclosed value) :
    stripQuotes value = value ↔ ∀ quote : Quote, value ≠ [quote.char] := by
  cases value with
  | nil => exact iff_of_true rfl fun quote ↦ (List.cons_ne_nil _ _).symm
  | cons c rest =>
    cases rest with
    | nil =>
      constructor
      · intro hstrip quote hquote
        rw [hquote] at hstrip
        cases quote <;> exact absurd hstrip (by decide)
      · intro hquote
        have hdouble : c ≠ Quote.double.char := fun hc ↦ hquote .double (by rw [hc])
        have hsingle : c ≠ Quote.single.char := fun hc ↦ hquote .single (by rw [hc])
        simp [stripQuotes, startsAndEndsWith, hdouble, hsingle]
    | cons d rest =>
      refine iff_of_true ?_ fun quote hquote ↦ by cases hquote
      have hneither : ¬ (startsAndEndsWith .double (c :: d :: rest) ∨
          startsAndEndsWith .single (c :: d :: rest)) :=
        fun hends ↦ h ⟨by simp, hends⟩
      rw [stripQuotes, if_neg (by simpa using hneither)]

theorem ofList_stripQuotes_eq_iff {value : String} (h : ¬ Enclosed value.toList) :
    String.ofList (stripQuotes value.toList) = value ↔
      ∀ quote : Quote, value ≠ String.singleton quote.char := by
  simp only [← String.toList_inj, String.toList_ofList, ne_eq, String.toList_singleton]
  exact stripQuotes_eq_self_iff h

/-- A line with a key, a `=` and a text behind it assigns. -/
theorem parseLine_assignment {key rest : List Char} (hne : key ≠ []) (hkey : Unpadded key)
    (heq : '=' ∉ key) (hcomment : key.head? ≠ some '#') (hrest : Unpadded rest) :
    parseLine (key ++ '=' :: rest) =
      some (String.ofList key, String.ofList (stripQuotes rest)) := by
  have htrim : trim (key ++ '=' :: rest) = key ++ '=' :: rest :=
    (hkey.append hne rfl hrest).trim_eq
  have hhead : (key ++ '=' :: rest).head? = key.head? := List.head?_append_of_ne_nil key hne
  have hidx : (key ++ '=' :: rest).idxOf '=' = key.length := by
    rw [List.idxOf_append_of_notMem heq, List.idxOf_cons_self, Nat.add_zero]
  have hdrop : (key ++ '=' :: rest).drop (key.length + 1) = rest := by
    rw [← List.drop_drop, List.drop_left, List.drop_one, List.tail_cons]
  unfold parseLine
  rw [htrim, if_neg (by simp [hhead, hcomment]), hidx, if_neg (by simp [hne])]
  simp only [List.take_left, hkey.trim_eq, hdrop, hrest.trim_eq, if_neg hne]

/-! ### Files as they are written -/

/-- How the value of a pair is written. -/
inductive Quoting
  | quoted (quote : Quote)
  | bare
  deriving DecidableEq

/-- The lines of a file. -/
inductive EnvLine
  | pair (key value : String) (quoting : Quoting)
  | blank (spaces : String)
  | comment (text : String)
  deriving DecidableEq

namespace EnvLine

def text : EnvLine → List Char
  | .pair key value (.quoted quote) =>
    key.toList ++ '=' :: quote.char :: (value.toList ++ [quote.char])
  | .pair key value .bare => key.toList ++ '=' :: value.toList
  | .blank spaces => spaces.toList
  | .comment text => '#' :: text.toList

/-- The pair of a line. -/
def toPair : EnvLine → Option (String × String)
  | .pair key value _ => some (key, value)
  | .blank _ => none
  | .comment _ => none

/-- A key is not empty, does not start like a comment and has no `=`; a value is bare only if it has
nothing around it that the reader takes off. No line has a line feed in it. -/
def WellFormed : EnvLine → Prop
  | .pair key value quoting =>
    (key ≠ "" ∧ Unpadded key.toList ∧ '=' ∉ key.toList ∧ '\n' ∉ key.toList ∧
      key.toList.head? ≠ some '#') ∧
    '\n' ∉ value.toList ∧
    (quoting = .bare → Unpadded value.toList ∧ ¬ Enclosed value.toList)
  | .blank spaces => spaces.toList.all isWhiteSpace ∧ '\n' ∉ spaces.toList
  | .comment text => '\n' ∉ text.toList

instance : DecidablePred WellFormed := fun line ↦
  match line with
  | .pair _ _ _ => inferInstanceAs (Decidable (_ ∧ _))
  | .blank _ => inferInstanceAs (Decidable (_ ∧ _))
  | .comment _ => inferInstanceAs (Decidable (¬ _))

/-- What the reader makes of a line. It tests every value for quotes, also a bare one. -/
def assigned : EnvLine → Option (String × String)
  | .pair key value (.quoted _) => some (key, value)
  | .pair key value .bare => some (key, String.ofList (stripQuotes value.toList))
  | .blank _ => none
  | .comment _ => none

theorem map_fst_assigned (line : EnvLine) :
    line.assigned.map Prod.fst = line.toPair.map Prod.fst := by
  cases line with
  | pair key value quoting => cases quoting <;> rfl
  | blank spaces => rfl
  | comment text => rfl

theorem newline_notMem_text {line : EnvLine} (h : line.WellFormed) : '\n' ∉ line.text := by
  cases line with
  | pair key value quoting =>
    obtain ⟨⟨_, _, _, hkey, _⟩, hvalue, _⟩ := h
    cases quoting with
    | quoted quote => cases quote <;> simp [text, Quote.char, hkey, hvalue]
    | bare => simp [text, hkey, hvalue]
  | blank spaces => exact h.2
  | comment text =>
    have htext : '\n' ∉ text.toList := h
    simp [EnvLine.text, htext]

theorem parseLine_text {line : EnvLine} (h : line.WellFormed) :
    parseLine line.text = line.assigned := by
  cases line with
  | pair key value quoting =>
    obtain ⟨⟨hne, hkey, heq, _, hcomment⟩, _, hbare⟩ := h
    have hne' : key.toList ≠ [] := by simpa using hne
    cases quoting with
    | quoted quote =>
      rw [text, parseLine_assignment hne' hkey heq hcomment (unpadded_quoted quote _),
        stripQuotes_quoted, String.ofList_toList, String.ofList_toList]
      rfl
    | bare =>
      rw [text, parseLine_assignment hne' hkey heq hcomment (hbare rfl).1, String.ofList_toList]
      rfl
  | blank spaces =>
    refine parseLine_of_trim_eq_nil (trim_eq_nil ?_)
    exact List.all_eq_true.mp h.1
  | comment text => exact parseLine_comment text.toList

end EnvLine

/-- A file with a pair for each of some distinct keys: lines with their endings, and the characters
behind the last line ending. -/
structure EnvDocument where
  terminated : List (EnvLine × LineEnding)
  last : EnvLine
  wellFormed : ∀ line ∈ terminated.map Prod.fst ++ [last], line.WellFormed
  nodup_keys :
    (((terminated.map Prod.fst ++ [last]).filterMap EnvLine.toPair).map Prod.fst).Nodup

namespace EnvDocument

def lines (document : EnvDocument) : List EnvLine :=
  document.terminated.map Prod.fst ++ [document.last]

/-- The map that the file is written for. -/
def pairs (document : EnvDocument) : List (String × String) :=
  document.lines.filterMap EnvLine.toPair

def text (document : EnvDocument) : String :=
  String.ofList <|
    document.terminated.flatMap (fun line ↦ line.1.text ++ line.2.chars) ++ document.last.text

/-- The lines are read one by one, whatever their endings. -/
theorem filterMap_parseLine_splitLines {terminated : List (EnvLine × LineEnding)} {last : EnvLine}
    (h : ∀ line ∈ terminated.map Prod.fst ++ [last], line.WellFormed) :
    (splitLines (terminated.flatMap (fun line ↦ line.1.text ++ line.2.chars) ++
        last.text)).filterMap parseLine =
      (terminated.map Prod.fst ++ [last]).filterMap EnvLine.assigned := by
  induction terminated with
  | nil =>
    have hlast : last.WellFormed := h last (by simp)
    rw [List.flatMap_nil, List.nil_append, splitLines_of_notMem (EnvLine.newline_notMem_text hlast)]
    simp [List.filterMap_cons, EnvLine.parseLine_text hlast]
  | cons line terminated ih =>
    rw [List.map_cons, List.cons_append, List.forall_mem_cons] at h
    obtain ⟨kept, hsplit, htrim⟩ :=
      exists_splitLines_append (EnvLine.newline_notMem_text h.1) line.2
        (terminated.flatMap (fun line ↦ line.1.text ++ line.2.chars) ++ last.text)
    rw [List.flatMap_cons, List.append_assoc, List.append_assoc, hsplit, List.filterMap_cons,
      List.map_cons, List.cons_append, List.filterMap_cons, ih h.2, parseLine_congr htrim,
      EnvLine.parseLine_text h.1]

theorem assignments_text (document : EnvDocument) :
    assignments document.text = document.lines.filterMap EnvLine.assigned := by
  rw [assignments, text, String.toList_ofList]
  exact filterMap_parseLine_splitLines document.wellFormed

/-- The reader keeps the keys. -/
theorem map_fst_assignments (document : EnvDocument) :
    (assignments document.text).map Prod.fst = document.pairs.map Prod.fst := by
  rw [assignments_text, pairs, List.map_filterMap, List.map_filterMap]
  exact List.filterMap_congr fun line _ ↦ line.map_fst_assigned

theorem nodup_assignments (document : EnvDocument) :
    ((assignments document.text).map Prod.fst).Nodup := by
  rw [map_fst_assignments]
  exact document.nodup_keys

/-- With distinct keys the last assignment to a name is the only one. -/
theorem lastAssignment_text (document : EnvDocument) (name : String) :
    lastAssignment document.text name = (assignments document.text).lookup name :=
  lookup_eq_of_perm document.nodup_assignments (List.reverse_perm _) name

/-- The pair of a line is found by its key. -/
theorem lookup_pairs {document : EnvDocument} {line : EnvLine} (h : line ∈ document.lines)
    {key value : String} (hpair : line.toPair = some (key, value)) :
    document.pairs.lookup key = some value := by
  have hmem : (key, value) ∈ document.pairs := List.mem_filterMap.mpr ⟨line, h, hpair⟩
  exact (lookup_eq_some_iff_mem document.nodup_keys key value).mpr hmem

/-- What the reader makes of a line is found by its key. -/
theorem lookup_assignments {document : EnvDocument} {line : EnvLine} (h : line ∈ document.lines)
    {key value : String} (hassigned : line.assigned = some (key, value)) :
    (assignments document.text).lookup key = some value := by
  rw [lookup_eq_some_iff_mem document.nodup_assignments, assignments_text]
  exact List.mem_filterMap.mpr ⟨line, h, hassigned⟩

/-- A file without bare quotes assigns its pairs. -/
theorem assignments_text_of_bare {document : EnvDocument}
    (h : ∀ key value, .pair key value .bare ∈ document.lines →
      ∀ quote : Quote, value ≠ String.singleton quote.char) :
    assignments document.text = document.pairs := by
  rw [assignments_text, pairs]
  refine List.filterMap_congr fun line hline ↦ ?_
  cases line with
  | blank spaces => rfl
  | comment text => rfl
  | pair key value quoting =>
    cases quoting with
    | quoted quote => rfl
    | bare =>
      have hbare := (document.wellFormed _ hline).2.2 rfl
      rw [EnvLine.assigned, (ofList_stripQuotes_eq_iff hbare.2).mpr (h key value hline)]
      rfl

/-- When a file is read back. Every line of a file has its pair, or none, and its line ending; the
pairs are what the reader returns exactly when no key is `__proto__` and no bare value is a quote
character and no more. -/
theorem parseEnvFile_text_iff (document : EnvDocument) :
    (∀ name, (parseEnvFile document.text).get name = document.pairs.lookup name) ↔
      "__proto__" ∉ document.pairs.map Prod.fst ∧
        ∀ key value, .pair key value .bare ∈ document.lines →
          ∀ quote : Quote, value ≠ String.singleton quote.char := by
  simp only [get_parseEnvFile, lastAssignment_text]
  constructor
  · intro hread
    have hproto : "__proto__" ∉ document.pairs.map Prod.fst := by
      have hnone : document.pairs.lookup "__proto__" = none := (hread "__proto__").symm
      exact lookup_eq_none_iff_notMem.mp hnone
    refine ⟨hproto, fun key value hmem ↦ ?_⟩
    have hkey : key ≠ "__proto__" := by
      rintro rfl
      exact hproto (List.mem_map.mpr ⟨_, List.mem_filterMap.mpr ⟨_, hmem, rfl⟩, rfl⟩)
    have hvalue := hread key
    rw [if_neg hkey, lookup_pairs hmem rfl, lookup_assignments hmem rfl,
      Option.some.injEq] at hvalue
    exact (ofList_stripQuotes_eq_iff ((document.wellFormed _ hmem).2.2 rfl).2).mp hvalue
  · rintro ⟨hproto, hbare⟩ name
    rw [assignments_text_of_bare hbare]
    split_ifs with hname
    · rw [hname, lookup_eq_none_iff_notMem.mpr hproto]
    · rfl

example : (parseEnvFile "# a\r\nKEY=' b # c='\n\nQUOTE='''").get "QUOTE" = some "'" := by
  decide +kernel

/-- The file with one line and no line ending. -/
def ofLine (line : EnvLine) (h : line.WellFormed) : EnvDocument where
  terminated := []
  last := line
  wellFormed := by simpa using h
  nodup_keys := by cases line <;> simp [List.filterMap_cons, EnvLine.toPair]

/-- The file `KEY="`. -/
def quoteFile : EnvDocument := ofLine (.pair "KEY" "\u0022" .bare) (by decide +kernel)

/-- The file `__proto__=1`. -/
def protoFile : EnvDocument := ofLine (.pair "__proto__" "1" .bare) (by decide +kernel)

/-- The value of `KEY="` is a quote, and is read as the empty text; the assignment `__proto__=1` is
not read at all. -/
theorem parseEnvFile_text_quoteFile :
    (¬ ∀ name, (parseEnvFile quoteFile.text).get name = quoteFile.pairs.lookup name) ∧
      ¬ ∀ name, (parseEnvFile protoFile.text).get name = protoFile.pairs.lookup name := by
  constructor
  · intro hread
    have hkey : (parseEnvFile quoteFile.text).get "KEY" = some "" := by decide +kernel
    have hwritten : quoteFile.pairs.lookup "KEY" = some "\u0022" := by decide +kernel
    rw [hread, hwritten] at hkey
    exact absurd hkey (by decide)
  · intro hread
    have hkey : (parseEnvFile protoFile.text).get "__proto__" = none := by decide +kernel
    have hwritten : protoFile.pairs.lookup "__proto__" = some "1" := by decide +kernel
    rw [hread, hwritten] at hkey
    cases hkey

end EnvDocument

end SealedBid
