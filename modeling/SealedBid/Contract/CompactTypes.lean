import Mathlib.Data.Finmap
import Mathlib.Order.Fin.Basic

/-!
# The Compact types and primitives of the contract

The types of the Compact language that `sealed-bid.compact` is written in. `Bytes<32>` is a vector
of 32 bytes, `Uint<64>` the natural numbers below `2^64`, `Map` a finite map, `Set` a finite set,
`Maybe` an option and `Counter` a natural number. `pad` is the byte padding of a string literal,
`asBytes` the cast of an unsigned integer to 32 bytes, which is little-endian and loses nothing
(`asBytes_injective`), and `assert` the assertion that ends a circuit with its message.

`persistentHash` comes from the standard library of the language and is not part of the repository.
Everywhere below it is a parameter, a function from the vector of hashed byte strings. Results that
need the hash to separate its inputs say on which inputs; no 32-byte hash separates all of them.

Scope. `Counter` is taken as an exact natural number: a run has fewer than `2^64` increments.
-/

set_option autoImplicit false
set_option relaxedAutoImplicit false

namespace SealedBid

/-- `Bytes<32>`. -/
abbrev Bytes32 := Vector UInt8 32

/-- `Uint<64>`. -/
abbrev Uint64 := Fin 18446744073709551616

/-- There are 64-bit integers, so their literals are defined. -/
instance uint64NeZero : @NeZero ℕ Zero.ofOfNat0 18446744073709551616 :=
  ⟨Nat.succ_ne_zero 18446744073709551615⟩

/-- `Map<Bytes<32>, Bytes<32>>`. -/
abbrev BytesMap := Finmap fun _ : Bytes32 ↦ Bytes32

/-- `persistentHash<Vector<n, Bytes<32>>>`, for every `n`: the hash of a vector of byte strings. -/
abbrev PersistentHash := List Bytes32 → Bytes32

/-- The default value of `Bytes<32>`: 32 zero bytes. -/
def zeroBytes : Bytes32 := Vector.replicate 32 0

/-- `pad(n, s)`: the UTF-8 bytes of a literal, followed by zero bytes. -/
def pad (n : ℕ) (s : String) : Vector UInt8 n :=
  Vector.ofFn fun i ↦ s.toUTF8.data.getD i 0

/-- `x as Bytes<32>`: the little-endian bytes of an unsigned integer. -/
def asBytes (x : Uint64) : Bytes32 :=
  Vector.ofFn fun i ↦ UInt8.ofNat (x.val / 256 ^ i.val)

/-- `assert(condition, message)`: ends the circuit with the message unless the condition holds. -/
def assert (condition : Prop) [Decidable condition] (message : String) : Except String Unit :=
  if condition then .ok () else .error ("failed assert: " ++ message)

/-- A circuit continues after an assertion exactly when its condition holds. -/
@[simp] theorem assert_bind_eq_ok {α : Type} {condition : Prop} [Decidable condition]
    {message : String} {rest : Unit → Except String α} {result : α} :
    (assert condition message >>= rest) = .ok result ↔
      condition ∧ rest () = .ok result := by
  unfold assert
  split_ifs with hcondition
  · simp [hcondition, bind, Except.bind]
  · simp [hcondition, bind, Except.bind]

/-! ### The cast to bytes -/

/-- Two numbers with the same first `count` base-256 digits agree modulo `256 ^ count`. -/
theorem mod_eq_of_digits_eq {x y : ℕ} (count : ℕ)
    (h : ∀ i < count, x / 256 ^ i % 256 = y / 256 ^ i % 256) :
    x % 256 ^ count = y % 256 ^ count := by
  induction count with
  | zero => simp [Nat.mod_one]
  | succ count ih =>
    have hlow := ih fun i hi ↦ h i (Nat.lt_succ_of_lt hi)
    have htop := h count (Nat.lt_succ_self count)
    rw [Nat.mod_pow_succ, Nat.mod_pow_succ, hlow, htop]

/-- The cast of an unsigned integer to bytes loses nothing. -/
theorem asBytes_injective : Function.Injective asBytes := by
  intro x y h
  have hdigit : ∀ i < 32, x.val / 256 ^ i % 256 = y.val / 256 ^ i % 256 := by
    intro i hi
    have hbyte := congrArg (fun bytes : Bytes32 ↦ (bytes[i]).toNat) h
    simpa [asBytes] using hbyte
  have hmod := mod_eq_of_digits_eq 32 hdigit
  have hx : x.val < 256 ^ 32 := x.isLt.trans (by decide)
  have hy : y.val < 256 ^ 32 := y.isLt.trans (by decide)
  rw [Nat.mod_eq_of_lt hx, Nat.mod_eq_of_lt hy] at hmod
  exact Fin.ext hmod

example : asBytes 258 =
    (#v[2, 1] : Vector UInt8 2) ++ (Vector.replicate 30 0 : Vector UInt8 30) := by
  decide

end SealedBid
