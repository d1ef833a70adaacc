import Mathlib

/-!
# Decimal literals

Writing and reading of decimal literals with a point and an exponent. `writeDecimal` writes a
significand and a power of ten the way scripts print numbers: in full up to 21 digits before the
point, with a point, with up to six zeros after the point, and with an exponent otherwise.
`readDecimal` reads any unsigned decimal literal as a rational. What is written is read back
(`readDecimal_writeDecimal`), and nothing but digits, a point, an `e` and a sign is written
(`isDecimalChar_of_mem_writeDecimal`).
-/

set_option autoImplicit false
set_option relaxedAutoImplicit false

namespace SealedBid.DecimalNotation

/-! ### Reading -/

/-- The value of a nonempty string of digits. -/
def readDigits (ds : List Char) : Option ℕ :=
  if ds ≠ [] ∧ ds.all Char.isDigit then some (Nat.ofDigitChars 10 ds 0) else none

/-- The exponent part of a literal, zero when there is none. -/
def readExponent : List Char → Option ℤ
  | [] => some 0
  | c :: rest =>
    if c = 'e' ∨ c = 'E' then
      match rest with
      | '-' :: ds => (readDigits ds).map fun n : ℕ ↦ -(n : ℤ)
      | '+' :: ds => (readDigits ds).map fun n : ℕ ↦ (n : ℤ)
      | ds => (readDigits ds).map fun n : ℕ ↦ (n : ℤ)
    else none

/-- The value of a literal from its digits before and after the point and what follows them. -/
def readParts (integer fraction rest : List Char) : Option ℚ :=
  if integer = [] ∧ fraction = [] then none
  else (readExponent rest).map fun e : ℤ ↦
    (Nat.ofDigitChars 10 (integer ++ fraction) 0 : ℚ) * 10 ^ (e - fraction.length)

/-- The value of an unsigned decimal literal. -/
def readDecimal (cs : List Char) : Option ℚ :=
  let integer := cs.takeWhile Char.isDigit
  match cs.dropWhile Char.isDigit with
  | '.' :: after => readParts integer (after.takeWhile Char.isDigit) (after.dropWhile Char.isDigit)
  | rest => readParts integer [] rest

/-! ### Writing -/

/-- The significant digits with a point after the first one. -/
def writeMantissa : List Char → List Char
  | first :: second :: rest => first :: '.' :: second :: rest
  | ds => ds

/-- The exponent part of a literal. -/
def writeExponent (e : ℤ) : List Char :=
  'e' :: (if e < 0 then '-' else '+') :: Nat.toDigits 10 e.natAbs

/-- The literal of `s * 10 ^ p`. -/
def writeDecimal (s : ℕ) (p : ℤ) : List Char :=
  let ds := Nat.toDigits 10 s
  let n := ds.length + p
  if 0 ≤ p ∧ n ≤ 21 then ds ++ List.replicate p.toNat '0'
  else if 0 < n ∧ n ≤ 21 then ds.take n.toNat ++ '.' :: ds.drop n.toNat
  else if -6 < n ∧ n ≤ 0 then '0' :: '.' :: (List.replicate (-n).toNat '0' ++ ds)
  else writeMantissa ds ++ writeExponent (n - 1)

/-! ### What is written is read back -/

theorem isDigit_of_mem_toDigits {s : ℕ} : ∀ c ∈ Nat.toDigits 10 s, c.isDigit = true :=
  fun _ hc ↦ Nat.isDigit_of_mem_toDigits (by decide) (by decide) hc

/-- The digits at the start of a string are those before the first other character. -/
theorem takeWhile_digits {ds : List Char} (rest : List Char) (hds : ∀ c ∈ ds, c.isDigit = true)
    (hrest : ∀ c ∈ rest.head?, c.isDigit = false) :
    (ds ++ rest).takeWhile Char.isDigit = ds ∧ (ds ++ rest).dropWhile Char.isDigit = rest := by
  rw [List.takeWhile_append_of_pos hds, List.dropWhile_append_of_pos hds]
  cases rest with
  | nil => simp
  | cons c rest => simp [hrest c (by simp)]

theorem digits_of_readDigits {ds : List Char} {n : ℕ} (h : readDigits ds = some n) :
    ds ≠ [] ∧ ds.all Char.isDigit := by
  unfold readDigits at h
  split_ifs at h with hdigits
  exact hdigits

theorem readDigits_toDigits (n : ℕ) : readDigits (Nat.toDigits 10 n) = some n := by
  unfold readDigits
  have hdigits : (Nat.toDigits 10 n).all Char.isDigit = true :=
    List.all_eq_true.mpr isDigit_of_mem_toDigits
  rw [if_pos ⟨Nat.toDigits_ne_nil, hdigits⟩, Nat.ofDigitChars_ten_toDigits]

theorem readExponent_writeExponent (e : ℤ) : readExponent (writeExponent e) = some e := by
  unfold writeExponent
  split_ifs with hneg
  · simp only [readExponent, true_or, if_true, readDigits_toDigits]
    rw [Option.map_some, Option.some.injEq]
    omega
  · simp only [readExponent, true_or, if_true, readDigits_toDigits]
    rw [Option.map_some, Option.some.injEq]
    omega

/-- A literal without a point. -/
theorem readDecimal_integer {ds : List Char} (rest : List Char)
    (hds : ∀ c ∈ ds, c.isDigit = true)
    (hrest : ∀ c ∈ rest.head?, c.isDigit = false ∧ c ≠ '.') :
    readDecimal (ds ++ rest) = readParts ds [] rest := by
  obtain ⟨htake, hdrop⟩ := takeWhile_digits rest hds fun c hc ↦ (hrest c hc).1
  unfold readDecimal
  rw [htake, hdrop]
  cases rest with
  | nil => rfl
  | cons c rest =>
    have hpoint := (hrest c (by simp)).2
    simp only
    split
    · rename_i heq
      exact absurd (List.cons.inj heq).1 hpoint
    · rfl

/-- A literal with a point. -/
theorem readDecimal_point {integer fraction : List Char} (rest : List Char)
    (hinteger : ∀ c ∈ integer, c.isDigit = true) (hfraction : ∀ c ∈ fraction, c.isDigit = true)
    (hrest : ∀ c ∈ rest.head?, c.isDigit = false) :
    readDecimal (integer ++ '.' :: (fraction ++ rest)) = readParts integer fraction rest := by
  obtain ⟨htake, hdrop⟩ := takeWhile_digits ('.' :: (fraction ++ rest)) hinteger (by simp)
  obtain ⟨htake', hdrop'⟩ := takeWhile_digits rest hfraction hrest
  unfold readDecimal
  rw [htake, hdrop]
  simp only
  rw [htake', hdrop']

/-- The value of the parts: the digits without the point, scaled. -/
theorem readParts_of_digits {integer fraction rest : List Char} {s : ℕ} {e : ℤ}
    (hdigits : integer ≠ [] ∨ fraction ≠ [])
    (hvalue : Nat.ofDigitChars 10 (integer ++ fraction) 0 = s)
    (hrest : readExponent rest = some e) :
    readParts integer fraction rest = some ((s : ℚ) * 10 ^ (e - fraction.length)) := by
  have hne : ¬ (integer = [] ∧ fraction = []) := by
    rintro ⟨hinteger, hfraction⟩
    rcases hdigits with h | h
    · exact h hinteger
    · exact h hfraction
  rw [readParts, if_neg hne, hrest, Option.map_some, hvalue]

theorem isDigit_of_mem_replicate {n : ℕ} : ∀ c ∈ List.replicate n '0', c.isDigit = true := by
  intro c hc
  rw [List.eq_of_mem_replicate hc]
  rfl

section Layouts

variable {ds : List Char} {s : ℕ} {p : ℤ}

/-- All digits before the point. -/
theorem readDecimal_full (hdigits : ∀ c ∈ ds, c.isDigit = true) (hne : ds ≠ [])
    (hvalue : Nat.ofDigitChars 10 ds 0 = s) (hp : 0 ≤ p) :
    readDecimal (ds ++ List.replicate p.toNat '0') = some ((s : ℚ) * 10 ^ p) := by
  have hread := readDecimal_integer []
    (List.forall_mem_append.mpr ⟨hdigits, isDigit_of_mem_replicate (n := p.toNat)⟩) (by simp)
  rw [List.append_nil] at hread
  have hpower : (10 : ℚ) ^ p = 10 ^ p.toNat := by
    rw [← zpow_natCast, Int.toNat_of_nonneg hp]
  rw [hread, readParts_of_digits (e := 0) (Or.inl (by simp [hne])) rfl rfl, List.append_nil,
    Nat.ofDigitChars_append, hvalue, Nat.ofDigitChars_replicate_zero, hpower]
  simp [mul_comm]

/-- The point among the digits. -/
theorem readDecimal_among (hdigits : ∀ c ∈ ds, c.isDigit = true)
    (hvalue : Nat.ofDigitChars 10 ds 0 = s) (hpoint : 0 < ds.length + p) (hp : p < 0) :
    readDecimal (ds.take (ds.length + p).toNat ++ '.' :: ds.drop (ds.length + p).toNat) =
      some ((s : ℚ) * 10 ^ p) := by
  have hread := readDecimal_point []
    (fun c hc ↦ hdigits c (List.mem_of_mem_take (i := (ds.length + p).toNat) hc))
    (fun c hc ↦ hdigits c (List.mem_of_mem_drop (i := (ds.length + p).toNat) hc)) (by simp)
  rw [List.append_nil] at hread
  have htake : ds.take (ds.length + p).toNat ≠ [] := by
    rw [ne_eq, List.take_eq_nil_iff]
    rintro (hzero | rfl)
    · omega
    · simp only [List.length_nil] at hpoint
      omega
  have hparts : Nat.ofDigitChars 10
      (ds.take (ds.length + p).toNat ++ ds.drop (ds.length + p).toNat) 0 = s := by
    rw [List.take_append_drop, hvalue]
  have hexponent : (0 : ℤ) - (ds.length - (ds.length + p).toNat : ℕ) = p := by omega
  rw [hread, readParts_of_digits (e := 0) (Or.inl htake) hparts rfl, List.length_drop, hexponent]

/-- The point before the digits. -/
theorem readDecimal_before (hdigits : ∀ c ∈ ds, c.isDigit = true)
    (hvalue : Nat.ofDigitChars 10 ds 0 = s) (hpoint : ds.length + p ≤ 0) :
    readDecimal ('0' :: '.' :: (List.replicate (-(ds.length + p)).toNat '0' ++ ds)) =
      some ((s : ℚ) * 10 ^ p) := by
  have hread := readDecimal_point [] (isDigit_of_mem_replicate (n := 1))
    (List.forall_mem_append.mpr
      ⟨isDigit_of_mem_replicate (n := (-(ds.length + p)).toNat), hdigits⟩) (by simp)
  rw [List.append_nil, List.replicate_one, List.singleton_append] at hread
  have hscaled : Nat.ofDigitChars 10
      (['0'] ++ (List.replicate (-(ds.length + p)).toNat '0' ++ ds)) 0 = s := by
    rw [Nat.ofDigitChars_append, Nat.ofDigitChars_append]
    simpa [Nat.ofDigitChars_cons, Nat.ofDigitChars_replicate_zero] using hvalue
  have hexponent : (0 : ℤ) - ((-(ds.length + p)).toNat + ds.length : ℕ) = p := by omega
  rw [hread, readParts_of_digits (e := 0) (Or.inl (by simp)) hscaled rfl, List.length_append,
    List.length_replicate, hexponent]

/-- One digit before the point and an exponent. -/
theorem readDecimal_scientific (hdigits : ∀ c ∈ ds, c.isDigit = true) (hne : ds ≠ [])
    (hvalue : Nat.ofDigitChars 10 ds 0 = s) :
    readDecimal (writeMantissa ds ++ writeExponent (ds.length + p - 1)) =
      some ((s : ℚ) * 10 ^ p) := by
  have hexponent := readExponent_writeExponent (ds.length + p - 1)
  have hhead : ∀ c ∈ (writeExponent (ds.length + p - 1)).head?,
      c.isDigit = false ∧ c ≠ '.' := by
    simp [writeExponent]
  match ds with
  | [] => exact absurd rfl hne
  | [digit] =>
    show readDecimal ([digit] ++ _) = _
    rw [readDecimal_integer _ hdigits hhead,
      readParts_of_digits (Or.inl hne) (by rw [List.append_nil, hvalue]) hexponent]
    simp
  | first :: second :: rest =>
    obtain ⟨hfirst, hothers⟩ := List.forall_mem_cons.mp hdigits
    have hread := readDecimal_point _ (List.forall_mem_singleton.mpr hfirst) hothers
      fun c hc ↦ (hhead c hc).1
    show readDecimal ([first] ++ '.' :: (second :: rest ++ _)) = _
    rw [hread, readParts_of_digits (Or.inl (by simp)) hvalue hexponent]
    congr 3
    simp only [List.length_cons]
    push_cast
    ring

end Layouts

/-- A written literal has the value it was written for. -/
theorem readDecimal_writeDecimal (s : ℕ) (p : ℤ) :
    readDecimal (writeDecimal s p) = some ((s : ℚ) * 10 ^ p) := by
  have hdigits : ∀ c ∈ Nat.toDigits 10 s, c.isDigit = true := isDigit_of_mem_toDigits
  have hne : Nat.toDigits 10 s ≠ [] := Nat.toDigits_ne_nil
  have hvalue : Nat.ofDigitChars 10 (Nat.toDigits 10 s) 0 = s := Nat.ofDigitChars_ten_toDigits
  unfold writeDecimal
  simp only
  split_ifs with hfull hpoint hsmall
  · exact readDecimal_full hdigits hne hvalue hfull.1
  · exact readDecimal_among hdigits hvalue hpoint.1 (by omega)
  · exact readDecimal_before hdigits hvalue hsmall.2
  · exact readDecimal_scientific hdigits hne hvalue

/-! ### The characters of a literal -/

/-- A digit, a point, an exponent mark or a sign. -/
def IsDecimalChar (c : Char) : Prop := c.isDigit = true ∨ c = '.' ∨ c = 'e' ∨ c = '+' ∨ c = '-'

theorem mem_writeMantissa {ds : List Char} : ∀ c ∈ writeMantissa ds, c ∈ ds ∨ c = '.' := by
  intro c hc
  match ds with
  | [] => exact Or.inl hc
  | [digit] => exact Or.inl hc
  | first :: second :: rest =>
    simp only [writeMantissa, List.mem_cons] at hc ⊢
    tauto

theorem isDecimalChar_of_mem_writeExponent {e : ℤ} : ∀ c ∈ writeExponent e, IsDecimalChar c := by
  refine List.forall_mem_cons.mpr ⟨Or.inr (Or.inr (Or.inl rfl)), List.forall_mem_cons.mpr ⟨?_, ?_⟩⟩
  · unfold IsDecimalChar
    split_ifs <;> simp
  · exact fun c hc ↦ Or.inl (isDigit_of_mem_toDigits c hc)

theorem isDecimalChar_of_mem_writeDecimal {s : ℕ} {p : ℤ} :
    ∀ c ∈ writeDecimal s p, IsDecimalChar c := by
  have hdigits : ∀ c ∈ Nat.toDigits 10 s, IsDecimalChar c :=
    fun c hc ↦ Or.inl (isDigit_of_mem_toDigits c hc)
  have hzeros : ∀ {n : ℕ}, ∀ c ∈ List.replicate n '0', IsDecimalChar c :=
    fun c hc ↦ Or.inl (isDigit_of_mem_replicate c hc)
  have hpoint : IsDecimalChar '.' := Or.inr (Or.inl rfl)
  unfold writeDecimal
  simp only
  split_ifs
  · exact List.forall_mem_append.mpr ⟨hdigits, hzeros⟩
  · exact List.forall_mem_append.mpr ⟨fun c hc ↦ hdigits c (List.mem_of_mem_take hc),
      List.forall_mem_cons.mpr ⟨hpoint, fun c hc ↦ hdigits c (List.mem_of_mem_drop hc)⟩⟩
  · exact List.forall_mem_cons.mpr ⟨Or.inl rfl,
      List.forall_mem_cons.mpr ⟨hpoint, List.forall_mem_append.mpr ⟨hzeros, hdigits⟩⟩⟩
  · refine List.forall_mem_append.mpr ⟨fun c hc ↦ ?_, isDecimalChar_of_mem_writeExponent⟩
    rcases mem_writeMantissa c hc with hc | rfl
    · exact hdigits c hc
    · exact hpoint

/-- A literal starts with a digit. -/
theorem head_writeDecimal (s : ℕ) (p : ℤ) : ∃ c ∈ (writeDecimal s p).head?, c.isDigit = true := by
  have hne : Nat.toDigits 10 s ≠ [] := Nat.toDigits_ne_nil
  have hdigits : ∀ c ∈ Nat.toDigits 10 s, c.isDigit = true := isDigit_of_mem_toDigits
  unfold writeDecimal
  simp only
  generalize Nat.toDigits 10 s = ds at hne hdigits
  obtain ⟨first, rest, rfl⟩ := List.exists_cons_of_ne_nil hne
  have hfirst : first.isDigit = true := hdigits first List.mem_cons_self
  split_ifs with hfull hpoint hsmall
  · exact ⟨first, rfl, hfirst⟩
  · obtain ⟨n, hn⟩ : ∃ n, ((first :: rest).length + p).toNat = n + 1 :=
      Nat.exists_eq_succ_of_ne_zero (by omega)
    rw [hn]
    exact ⟨first, rfl, hfirst⟩
  · exact ⟨'0', rfl, rfl⟩
  · cases rest <;> exact ⟨first, rfl, hfirst⟩

end SealedBid.DecimalNotation
