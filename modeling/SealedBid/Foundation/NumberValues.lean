import Mathlib
import SealedBid.Foundation.BinaryRounding
import SealedBid.Foundation.DecimalNotation

/-!
# Script numbers and big integers

The numbers of a scripting language: double precision numbers (`Double`, which carries that its
value is on the grid and not too large), the two infinities and `NaN`. `Number.ofRat` is the
rounding of a rational, `Number.le` and `Number.max` are the comparison and `Math.max`, which treat
`NaN` differently: a comparison with `NaN` is false, and a maximum with `NaN` is `NaN`.

`Number.toString` writes a number with the fewest significant digits that round to it, and
`Number.ofString` reads a text: decimal and prefixed literals between white space. A number is read
back from its text (`Number.ofString_toString`), so no two numbers have one text
(`Number.toString_injective`). `bigintOfString` reads a big integer.

Scope. There is no negative zero: the two zeros are equal, compare the same and are written the
same. Texts are sequences of Unicode scalar values.
-/

set_option autoImplicit false
set_option relaxedAutoImplicit false

namespace SealedBid

open BinaryRounding DecimalNotation

/-! ### Numbers -/

/-- A finite double precision number. -/
@[ext] structure Double where
  value : ℚ
  representable : Representable value
  bounded : |value| < 2 ^ 1024
  deriving DecidableEq

inductive Number
  | nan
  | negInfinity
  | finite (x : Double)
  | infinity
  deriving DecidableEq

namespace Number

/-- The number a rational is rounded to. -/
def ofRat (q : ℚ) : Number :=
  if h : |roundBinary q| < 2 ^ 1024 then .finite ⟨roundBinary q, representable_roundBinary q, h⟩
  else if 0 < q then .infinity
  else .negInfinity

/-- The number zero. -/
def zero : Number := .finite ⟨0, representable_zero, by norm_num⟩

/-- `-a`. -/
def neg : Number → Number
  | .nan => .nan
  | .negInfinity => .infinity
  | .finite x => .finite ⟨-x.value, x.representable.neg, by rw [abs_neg]; exact x.bounded⟩
  | .infinity => .negInfinity

/-- The place of a number on the extended line; `NaN` has none. -/
def position : Number → Option (WithBot (WithTop ℚ))
  | .nan => none
  | .negInfinity => some ⊥
  | .finite x => some ((x.value : WithTop ℚ) : WithBot (WithTop ℚ))
  | .infinity => some ((⊤ : WithTop ℚ) : WithBot (WithTop ℚ))

/-- `a <= b`. -/
def le (a b : Number) : Bool :=
  match a.position, b.position with
  | some x, some y => x ≤ y
  | _, _ => false

/-- `a < b`. -/
def lt (a b : Number) : Bool :=
  match a.position, b.position with
  | some x, some y => x < y
  | _, _ => false

/-- `Math.max(a, b)`. -/
protected def max (a b : Number) : Number :=
  match a.position, b.position with
  | some x, some y => if x ≤ y then b else a
  | _, _ => .nan

theorem ofRat_of_double (x : Double) : ofRat x.value = .finite x := by
  have hround := roundBinary_of_representable x.representable
  unfold ofRat
  rw [dif_pos (by rw [hround]; exact x.bounded)]
  cases x
  simp only [hround]

/-- A whole number of at most 53 bits is a number of its own value. -/
theorem ofRat_natCast {n : ℕ} (h : n ≤ 2 ^ 53) :
    ∃ x : Double, ofRat n = .finite x ∧ x.value = n := by
  have hrepresentable : Representable (n : ℚ) := ⟨n, 0, by exact_mod_cast h, by norm_num, by simp⟩
  have hbounded : |(n : ℚ)| < 2 ^ 1024 := by
    rw [Nat.abs_cast]
    calc (n : ℚ) ≤ 2 ^ 53 := by exact_mod_cast h
      _ < 2 ^ 1024 := pow_lt_pow_right₀ (by norm_num) (by norm_num)
  exact ⟨⟨n, hrepresentable, hbounded⟩, ofRat_of_double ⟨n, hrepresentable, hbounded⟩, rfl⟩

/-- A number is determined by its place. -/
theorem position_injective : Function.Injective position := by
  intro a b h
  cases a <;> cases b <;> simp_all [position, Double.ext_iff]

theorem position_eq_none_iff (a : Number) : a.position = none ↔ a = .nan := by
  cases a <;> simp [position]

/-! ### Order -/

theorem le_iff {a b : Number} :
    a.le b = true ↔ ∃ x ∈ a.position, ∃ y ∈ b.position, x ≤ y := by
  unfold le
  cases a.position <;> cases b.position <;> simp

theorem nan_le (a : Number) : nan.le a = false := rfl

theorem exists_position {a : Number} (h : a ≠ .nan) : ∃ x, a.position = some x :=
  Option.ne_none_iff_exists'.mp fun hnone ↦ h ((position_eq_none_iff a).mp hnone)

theorem le_refl {a : Number} (h : a ≠ .nan) : a.le a = true := by
  obtain ⟨x, hx⟩ := exists_position h
  exact le_iff.mpr ⟨x, hx, x, hx, rfl.le⟩

theorem le_trans {a b c : Number} (hab : a.le b = true) (hbc : b.le c = true) :
    a.le c = true := by
  obtain ⟨x, hx, y, hy, hxy⟩ := le_iff.mp hab
  obtain ⟨y', hy', z, hz, hyz⟩ := le_iff.mp hbc
  obtain rfl : y = y' := Option.mem_unique hy hy'
  exact le_iff.mpr ⟨x, hx, z, hz, hxy.trans hyz⟩

theorem le_antisymm {a b : Number} (hab : a.le b = true) (hba : b.le a = true) : a = b := by
  obtain ⟨x, hx, y, hy, hxy⟩ := le_iff.mp hab
  obtain ⟨y', hy', x', hx', hyx⟩ := le_iff.mp hba
  obtain rfl : y = y' := Option.mem_unique hy hy'
  obtain rfl : x = x' := Option.mem_unique hx hx'
  apply position_injective
  rw [Option.mem_def] at hx hy
  rw [hx, hy, hxy.antisymm hyx]

theorem le_total {a b : Number} (ha : a ≠ .nan) (hb : b ≠ .nan) :
    a.le b = true ∨ b.le a = true := by
  obtain ⟨x, hx⟩ := exists_position ha
  obtain ⟨y, hy⟩ := exists_position hb
  have htotal : x ≤ y ∨ y ≤ x := Std.le_total
  rcases htotal with hxy | hyx
  · exact Or.inl (le_iff.mpr ⟨x, hx, y, hy, hxy⟩)
  · exact Or.inr (le_iff.mpr ⟨y, hy, x, hx, hyx⟩)

/-- What is less is not at least. -/
theorem not_le_of_lt {a b : Number} (h : a.lt b = true) : b.le a = false := by
  unfold lt at h
  unfold le
  cases hx : a.position <;> cases hy : b.position <;> simp_all

theorem ne_nan_of_lt {a b : Number} (h : a.lt b = true) : b ≠ .nan := by
  rintro rfl
  cases a <;> cases h

theorem max_nan (a : Number) : a.max nan = nan := by
  cases a <;> rfl

/-- The maximum of two numbers, neither of them `NaN`. -/
theorem max_eq {a b : Number} (ha : a ≠ .nan) (hb : b ≠ .nan) :
    a.max b = if b.le a then a else b := by
  obtain ⟨x, hx⟩ := exists_position ha
  obtain ⟨y, hy⟩ := exists_position hb
  have hmax : a.max b = if x ≤ y then b else a := by
    unfold Number.max
    rw [hx, hy]
  have hle : b.le a = true ↔ y ≤ x := by
    unfold le
    rw [hx, hy, decide_eq_true_eq]
  rw [hmax]
  split_ifs with hxy hba hba
  · -- both are at one place
    refine position_injective ?_
    rw [hx, hy, hxy.antisymm (hle.mp hba)]
  · rfl
  · rfl
  · have htotal : x ≤ y ∨ y ≤ x := Std.le_total
    rcases htotal with hxy' | hyx
    · exact absurd hxy' hxy
    · exact absurd (hle.mpr hyx) hba

end Number

/-! ### Writing numbers -/

/-- The decimal with `k` significant digits that rounds to a positive number, the nearer one of
two, as a significand and a power of ten. -/
def decimalOfDigits (q : ℚ) (k : ℕ) : Option (ℕ × ℤ) :=
  let p := Int.log 10 q + 1 - k
  let near := (roundHalfEven (q / 10 ^ p)).toNat
  let other := if (near : ℚ) ≤ q / 10 ^ p then near + 1 else near - 1
  ([near, other].find? fun s : ℕ ↦ roundBinary (s * 10 ^ p) = q).map fun s ↦ (s, p)

/-- The shortest decimal that rounds to a positive number. Seventeen digits are always enough; the
exact expansion stands for the case that never arises. -/
def shortestDecimal (q : ℚ) : ℕ × ℤ :=
  ((List.range 17).findSome? fun i ↦ decimalOfDigits q (i + 1)).getD
    (⌊q * 10 ^ 1074⌋.toNat, -1074)

/-- The digits of a positive number. -/
def writePositive (q : ℚ) : List Char :=
  let (s, p) := shortestDecimal q
  if s % 10 = 0 then writeDecimal (s / 10) (p + 1) else writeDecimal s p

/-- `String(x)` for a number. -/
def Number.toString : Number → String
  | .nan => "NaN"
  | .negInfinity => "-Infinity"
  | .infinity => "Infinity"
  | .finite x =>
    if x.value = 0 then "0"
    else if x.value < 0 then String.ofList ('-' :: writePositive (-x.value))
    else String.ofList (writePositive x.value)

/-! ### Reading numbers -/

/-- White space and line terminators. -/
def isWhiteSpace (c : Char) : Bool :=
  c ∈ ['\t', '\n', '\u000B', '\u000C', '\r', ' ', '\u00A0', '\u1680', '\u2000', '\u2001',
    '\u2002', '\u2003', '\u2004', '\u2005', '\u2006', '\u2007', '\u2008', '\u2009', '\u200A',
    '\u2028', '\u2029', '\u202F', '\u205F', '\u3000', '\uFEFF']

/-- The characters between the white space at both ends. -/
def trim (cs : List Char) : List Char :=
  ((cs.dropWhile isWhiteSpace).reverse.dropWhile isWhiteSpace).reverse

theorem trim_concat_of_white {c : Char} (hc : isWhiteSpace c = true) (cs : List Char) :
    trim (cs ++ [c]) = trim cs := by
  rw [trim, trim, List.dropWhile_append]
  split_ifs with hempty
  · rw [List.isEmpty_iff.mp hempty, List.dropWhile_cons_of_pos hc, List.dropWhile_nil]
  · rw [List.reverse_append, List.reverse_singleton, List.singleton_append,
      List.dropWhile_cons_of_pos hc]

theorem trim_eq_nil {cs : List Char} (h : ∀ c ∈ cs, isWhiteSpace c = true) : trim cs = [] := by
  rw [trim, List.dropWhile_eq_nil_iff.mpr h]
  rfl

/-- A text that starts with no white space keeps its first character. -/
theorem trim_cons {c : Char} (hc : isWhiteSpace c = false) (cs : List Char) :
    ∃ kept, trim (c :: cs) = c :: kept := by
  rw [trim, List.dropWhile_cons_of_neg (by simp [hc]), List.reverse_cons, List.dropWhile_append]
  split_ifs with hempty
  · exact ⟨[], by rw [List.dropWhile_cons_of_neg (by simp [hc])]; rfl⟩
  · exact ⟨(List.dropWhile isWhiteSpace cs.reverse).reverse, by simp⟩

/-- A text without white space at its ends is its own trim. -/
theorem trim_eq_self {cs : List Char} (hhead : ∀ c ∈ cs.head?, isWhiteSpace c = false)
    (hlast : ∀ c ∈ cs.getLast?, isWhiteSpace c = false) : trim cs = cs := by
  have hdrop : ∀ ds : List Char, (∀ c ∈ ds.head?, isWhiteSpace c = false) →
      ds.dropWhile isWhiteSpace = ds := by
    intro ds hds
    cases ds with
    | nil => rfl
    | cons c rest => rw [List.dropWhile_cons_of_neg (by simp [hds c rfl])]
  rw [trim, hdrop cs hhead, hdrop cs.reverse (by rwa [List.head?_reverse]), List.reverse_reverse]

/-- The value of a digit in some radix up to 16. -/
def radixDigit (c : Char) : Option ℕ :=
  if '0' ≤ c ∧ c ≤ '9' then some (c.toNat - 48)
  else if 'a' ≤ c ∧ c ≤ 'f' then some (c.toNat - 87)
  else if 'A' ≤ c ∧ c ≤ 'F' then some (c.toNat - 55)
  else none

/-- The value of a nonempty string of digits in a radix. -/
def readRadix (radix : ℕ) (ds : List Char) : Option ℕ :=
  if ds = [] then none
  else ds.foldl (fun seen c ↦ do
    let value ← seen
    let digit ← radixDigit c
    if digit < radix then some (value * radix + digit) else none) (some 0)

/-- The radix of a prefixed literal, and its digits. -/
def radixPrefix : List Char → Option (ℕ × List Char)
  | '0' :: 'x' :: ds => some (16, ds)
  | '0' :: 'X' :: ds => some (16, ds)
  | '0' :: 'o' :: ds => some (8, ds)
  | '0' :: 'O' :: ds => some (8, ds)
  | '0' :: 'b' :: ds => some (2, ds)
  | '0' :: 'B' :: ds => some (2, ds)
  | _ => none

/-- A decimal literal or the word for infinity, without a sign. -/
def readUnsigned (cs : List Char) : Number :=
  if cs = "Infinity".toList then .infinity
  else match readDecimal cs with
    | some q => .ofRat q
    | none => .nan

/-- `Number(s)` for a text: zero when it is blank, and `NaN` when it is no literal. -/
def Number.ofString (s : String) : Number :=
  let cs := trim s.toList
  match radixPrefix cs with
  | some (radix, ds) =>
    match readRadix radix ds with
    | some n => .ofRat n
    | none => .nan
  | none =>
    match cs with
    | [] => .zero
    | '-' :: rest => (readUnsigned rest).neg
    | '+' :: rest => readUnsigned rest
    | cs => readUnsigned cs

/-- `BigInt(s)` for a text: zero when it is blank, and no value when it is no integer literal. -/
def bigintOfString (s : String) : Option ℤ :=
  let cs := trim s.toList
  match radixPrefix cs with
  | some (radix, ds) => (readRadix radix ds).map fun n : ℕ ↦ (n : ℤ)
  | none =>
    match cs with
    | [] => some 0
    | '-' :: rest => (readDigits rest).map fun n : ℕ ↦ -(n : ℤ)
    | '+' :: rest => (readDigits rest).map fun n : ℕ ↦ (n : ℤ)
    | cs => (readDigits cs).map fun n : ℕ ↦ (n : ℤ)

/-! ### A number is read back from its text -/

/-- The exact expansion of a positive number of the grid ends after 1074 decimal places. -/
theorem exact_expansion {q : ℚ} (hpos : 0 < q) (h : Representable q) :
    (⌊q * 10 ^ 1074⌋.toNat : ℚ) * 10 ^ (-1074 : ℤ) = q := by
  obtain ⟨m, hm⟩ := h.exists_mul_eq
  have hwhole : q * 10 ^ 1074 = (m * 5 ^ 1074 : ℤ) := by
    have hten : (10 : ℚ) = 2 * 5 := by norm_num
    rw [hten, mul_pow, ← mul_assoc, hm, Int.cast_mul, Int.cast_pow, Int.cast_ofNat]
  have hnonneg : 0 ≤ m * 5 ^ 1074 := by
    have hcast : (0 : ℚ) ≤ (m * 5 ^ 1074 : ℤ) := by
      rw [← hwhole]
      positivity
    exact_mod_cast hcast
  have hfloor : (⌊q * 10 ^ 1074⌋.toNat : ℚ) = q * 10 ^ 1074 := by
    rw [hwhole, Int.floor_intCast, ← Int.cast_natCast, Int.toNat_of_nonneg hnonneg]
  have hpower : (10 : ℚ) ^ (1074 : ℕ) ≠ 0 := pow_ne_zero _ (by norm_num)
  rw [hfloor, zpow_neg, ← zpow_natCast]
  exact mul_inv_cancel_right₀ (zpow_ne_zero _ (by norm_num)) q

/-- The shortest decimal of a positive number rounds to it. -/
theorem roundBinary_shortestDecimal {q : ℚ} (hpos : 0 < q) (h : Representable q) :
    roundBinary ((shortestDecimal q).1 * 10 ^ (shortestDecimal q).2) = q := by
  unfold shortestDecimal
  cases hfound : (List.range 17).findSome? fun i ↦ decimalOfDigits q (i + 1) with
  | none =>
    rw [Option.getD_none, exact_expansion hpos h]
    exact roundBinary_of_representable h
  | some decimal =>
    obtain ⟨k, _, hk⟩ := List.exists_of_findSome?_eq_some hfound
    obtain ⟨s, hs, rfl⟩ := Option.map_eq_some_iff.mp hk
    simpa using List.find?_some hs

/-- The digits of a positive number are a literal that rounds to it. -/
theorem readDecimal_writePositive {q : ℚ} (hpos : 0 < q) (h : Representable q) :
    ∃ r, readDecimal (writePositive q) = some r ∧ roundBinary r = q := by
  have hround := roundBinary_shortestDecimal hpos h
  unfold writePositive
  generalize shortestDecimal q = decimal at hround
  obtain ⟨s, p⟩ := decimal
  simp only at hround ⊢
  split_ifs with hzero
  · refine ⟨_, readDecimal_writeDecimal _ _, ?_⟩
    have hs : (s : ℚ) = (s / 10 : ℕ) * 10 := by
      have hmul : s = s / 10 * 10 := by omega
      exact_mod_cast hmul
    rw [zpow_add_one₀ (by norm_num), mul_comm (10 ^ p : ℚ) 10, ← mul_assoc, ← hs, hround]
  · exact ⟨_, readDecimal_writeDecimal _ _, hround⟩

theorem isDecimalChar_of_mem_writePositive {q : ℚ} : ∀ c ∈ writePositive q, IsDecimalChar c := by
  unfold writePositive
  obtain ⟨s, p⟩ := shortestDecimal q
  simp only
  split_ifs <;> exact isDecimalChar_of_mem_writeDecimal

theorem head_writePositive (q : ℚ) : ∃ c ∈ (writePositive q).head?, c.isDigit = true := by
  unfold writePositive
  obtain ⟨s, p⟩ := shortestDecimal q
  simp only
  split_ifs <;> exact head_writeDecimal _ _

theorem isWhiteSpace_of_isDecimalChar {c : Char} (h : IsDecimalChar c) :
    isWhiteSpace c = false := by
  rcases h with hdigit | rfl | rfl | rfl | rfl
  · simp only [isWhiteSpace, decide_eq_false_iff_not]
    intro hmem
    fin_cases hmem <;> simp at hdigit
  · decide
  · decide
  · decide
  · decide

/-- A literal has no white space at its ends. -/
theorem trim_of_isDecimalChar {cs : List Char} (h : ∀ c ∈ cs, IsDecimalChar c) : trim cs = cs :=
  trim_eq_self (fun c hc ↦ isWhiteSpace_of_isDecimalChar (h c (List.mem_of_head? hc)))
    fun c hc ↦ isWhiteSpace_of_isDecimalChar (h c (List.mem_of_getLast? hc))

/-- A decimal literal has no radix prefix. -/
theorem radixPrefix_of_isDecimalChar {cs : List Char} (h : ∀ c ∈ cs, IsDecimalChar c) :
    radixPrefix cs = none := by
  unfold radixPrefix
  split <;> first
    | rfl
    | exact absurd (h _ (List.mem_cons_of_mem _ List.mem_cons_self)) (by simp [IsDecimalChar])

theorem readUnsigned_writePositive {x : Double} (hpos : 0 < x.value) :
    readUnsigned (writePositive x.value) = .finite x := by
  obtain ⟨r, hread, hround⟩ := readDecimal_writePositive hpos x.representable
  have hword : writePositive x.value ≠ "Infinity".toList := by
    intro hword
    have hmem : 'I' ∈ writePositive x.value := by
      rw [hword]
      decide
    have hletter := isDecimalChar_of_mem_writePositive 'I' hmem
    simp [IsDecimalChar] at hletter
  rw [readUnsigned, if_neg hword, hread]
  show Number.ofRat r = _
  unfold Number.ofRat
  rw [dif_pos (by rw [hround]; exact x.bounded)]
  cases x
  simp only [hround]

/-- An unsigned literal that starts with a digit, and the same literal with a sign. -/
theorem ofString_of_isDecimalChar {cs : List Char} (h : ∀ c ∈ cs, IsDecimalChar c)
    (hhead : ∃ c ∈ cs.head?, c.isDigit = true) :
    Number.ofString (String.ofList cs) = readUnsigned cs ∧
      Number.ofString (String.ofList ('-' :: cs)) = (readUnsigned cs).neg := by
  have hsigned : ∀ c ∈ '-' :: cs, IsDecimalChar c := by
    intro c hc
    rcases List.mem_cons.mp hc with rfl | hc
    · exact Or.inr (Or.inr (Or.inr (Or.inr rfl)))
    · exact h c hc
  unfold Number.ofString
  rw [String.toList_ofList, String.toList_ofList, trim_of_isDecimalChar h,
    trim_of_isDecimalChar hsigned]
  simp only [radixPrefix_of_isDecimalChar h, radixPrefix_of_isDecimalChar hsigned, and_true]
  obtain ⟨c, hc, hdigit⟩ := hhead
  cases cs with
  | nil => cases hc
  | cons first rest =>
    obtain rfl : first = c := by simpa using hc
    split <;> simp_all

/-- A big integer is read from a string of digits as its value. -/
theorem bigintOfString_of_readDigits {ds : List Char} {n : ℕ} (h : readDigits ds = some n) :
    bigintOfString (String.ofList ds) = some (n : ℤ) := by
  have hdigits := digits_of_readDigits h
  have hchars : ∀ c ∈ ds, IsDecimalChar c := fun c hc ↦ Or.inl (List.all_eq_true.mp hdigits.2 c hc)
  unfold bigintOfString
  rw [String.toList_ofList, trim_of_isDecimalChar hchars]
  simp only [radixPrefix_of_isDecimalChar hchars]
  cases ds with
  | nil => exact absurd rfl hdigits.1
  | cons first rest =>
    have hfirst : first.isDigit = true := List.all_eq_true.mp hdigits.2 first List.mem_cons_self
    split
    · rename_i hnil
      cases hnil
    · rename_i hminus
      obtain ⟨rfl, rfl⟩ := List.cons.inj hminus
      cases hfirst
    · rename_i hplus
      obtain ⟨rfl, rfl⟩ := List.cons.inj hplus
      cases hfirst
    · rw [h, Option.map_some]

/-- Every integer is read from some text. -/
theorem exists_bigintOfString (value : ℤ) : ∃ text, bigintOfString text = some value := by
  obtain ⟨n, rfl | rfl⟩ := value.eq_nat_or_neg
  · exact ⟨_, bigintOfString_of_readDigits (readDigits_toDigits n)⟩
  · have hchars : ∀ c ∈ '-' :: Nat.toDigits 10 n, IsDecimalChar c := by
      intro c hc
      rcases List.mem_cons.mp hc with rfl | hc
      · simp [IsDecimalChar]
      · exact Or.inl (isDigit_of_mem_toDigits c hc)
    refine ⟨String.ofList ('-' :: Nat.toDigits 10 n), ?_⟩
    unfold bigintOfString
    rw [String.toList_ofList, trim_of_isDecimalChar hchars]
    simp only [radixPrefix_of_isDecimalChar hchars]
    rw [readDigits_toDigits, Option.map_some]

theorem readUnsigned_zero : readUnsigned ['0'] = .ofRat 0 := by
  have hread : readDecimal ['0'] = some (((0 : ℕ) : ℚ) * 10 ^ (0 : ℤ)) :=
    readDecimal_writeDecimal 0 0
  have hword : ['0'] ≠ "Infinity".toList := by decide
  rw [readUnsigned, if_neg hword, hread, Nat.cast_zero, zero_mul]

namespace Number

/-- A number is read back from its text. -/
theorem ofString_toString (a : Number) : ofString a.toString = a := by
  cases a with
  | nan => decide
  | negInfinity => decide
  | infinity => decide
  | finite x =>
    simp only [toString]
    split_ifs with hzero hneg
    · have hx : Number.finite x = ofRat 0 := by rw [← ofRat_of_double x, hzero]
      have hzero : ∀ c ∈ ['0'], IsDecimalChar c := by simp [IsDecimalChar]
      have hread := (ofString_of_isDecimalChar hzero ⟨'0', rfl, rfl⟩).1
      rw [hx, ← readUnsigned_zero, ← hread]
    · have hpos : 0 < (⟨-x.value, x.representable.neg, by rw [abs_neg]; exact x.bounded⟩ :
          Double).value := neg_pos.mpr hneg
      rw [(ofString_of_isDecimalChar isDecimalChar_of_mem_writePositive (head_writePositive _)).2,
        readUnsigned_writePositive hpos]
      simp [neg]
    · have hpos : 0 < x.value := lt_of_le_of_ne (not_lt.mp hneg) (Ne.symm hzero)
      rw [(ofString_of_isDecimalChar isDecimalChar_of_mem_writePositive (head_writePositive _)).1,
        readUnsigned_writePositive hpos]

/-- No two numbers have one text. -/
theorem toString_injective : Function.Injective toString :=
  Function.LeftInverse.injective ofString_toString

/-- The text of a number is made of digits, a point, an exponent mark, signs and letters. -/
theorem colon_notMem_toString (a : Number) : ':' ∉ a.toString.toList := by
  have hcolon : ¬ IsDecimalChar ':' := by simp [IsDecimalChar]
  cases a with
  | nan => decide
  | negInfinity => decide
  | infinity => decide
  | finite x =>
    simp only [toString]
    split_ifs
    · decide
    · rw [String.toList_ofList, List.mem_cons, not_or]
      exact ⟨by decide, fun hmem ↦ hcolon (isDecimalChar_of_mem_writePositive _ hmem)⟩
    · rw [String.toList_ofList]
      exact fun hmem ↦ hcolon (isDecimalChar_of_mem_writePositive _ hmem)

end Number

end SealedBid
