import SealedBid.Contract.Circuits
import SealedBid.Foundation.RecordedPrograms
import Mathlib.Data.Nat.Digits.Defs

/-!
# The ledger machine and the runtime types of the compiled contract

The compiled contract (`managed/sealed-bid/contract/index.js`) does not compute on the ledger
itself. It hands programs of a stack machine to its runtime, and these are what a node executes when
a transaction applies. This module has the values these programs work on, their instructions, and
the machine.

An aligned value (`AlignedValue`) is a list of atoms, each the unsigned integer of its little-endian
bytes with its length in bytes; the descriptors of the compiled contract convert between the types
of the contract and aligned values (`Descriptor`). A state value is null, a cell, a map or an array;
`Leaf`, `Node` and `StateValue` are its levels, as deep as the contract nests them.

The runtime is not part of the repository, so the machine is a parameter, `LedgerVm`. What the
contract relies on are its laws: an instruction does what its documentation says on the stacks that
`documented` covers, it removes and pushes as many cells as documented (`effect`), and only `popeq`
reads. `referenceVm` satisfies the laws. `LedgerVm.machine` is the machine as a stack machine with
recorded reads; where it succeeds on documented stacks it does what `documented` says.

Scope. Gas, the call context and the effects of a call are not modelled; the cells that hold the
last two stand beneath the contract state and no program of the contract touches them.
-/

set_option autoImplicit false
set_option relaxedAutoImplicit false

namespace SealedBid.Compiled

open RecordedPrograms

/-! ### Aligned values and descriptors -/

/-- An atom: its length in bytes, and the unsigned integer that its little-endian bytes make. -/
structure Atom where
  length : ℕ
  value : ℕ
  deriving DecidableEq, Repr

/-- A value with its alignment. -/
abbrev AlignedValue := List Atom

/-- A type descriptor: the aligned value of a value, and the value read back. -/
structure Descriptor (α : Type) where
  toValue : α → AlignedValue
  fromValue : AlignedValue → Option α
  fromValue_toValue : ∀ x, fromValue (toValue x) = some x

theorem Descriptor.toValue_injective {α : Type} (descriptor : Descriptor α) :
    Function.Injective descriptor.toValue := by
  intro x y h
  have hread := congrArg descriptor.fromValue h
  rw [descriptor.fromValue_toValue, descriptor.fromValue_toValue, Option.some.injEq] at hread
  exact hread

theorem Descriptor.toValue_inj {α : Type} (descriptor : Descriptor α) {x y : α} :
    descriptor.toValue x = descriptor.toValue y ↔ x = y :=
  descriptor.toValue_injective.eq_iff

/-- `CompactTypeUnsignedInteger`: the unsigned integers below a bound, in `length` bytes. -/
def compactTypeUnsignedInteger (bound length : ℕ) : Descriptor (Fin bound) where
  toValue x := [⟨length, x.val⟩]
  fromValue
    | [atom] =>
      if h : atom.length = length ∧ atom.value < bound then some ⟨atom.value, h.2⟩ else none
    | _ => none
  fromValue_toValue x := by simp

/-- The little-endian unsigned integer of a byte string. -/
def leNat (bytes : List UInt8) : ℕ := Nat.ofDigits 256 (bytes.map UInt8.toNat)

/-- The byte string of a number of bytes with a little-endian unsigned integer. -/
def leBytes (n x : ℕ) : Vector UInt8 n := Vector.ofFn fun i ↦ UInt8.ofNat (x / 256 ^ i.val)

@[simp] theorem leNat_nil : leNat [] = 0 := rfl

@[simp] theorem leNat_cons (byte : UInt8) (bytes : List UInt8) :
    leNat (byte :: bytes) = byte.toNat + 256 * leNat bytes := by
  simp [leNat, Nat.ofDigits_cons]

theorem leNat_lt (bytes : List UInt8) : leNat bytes < 256 ^ bytes.length := by
  have hdigits : ∀ d ∈ bytes.map UInt8.toNat, d < 256 := by
    intro d hd
    obtain ⟨byte, -, rfl⟩ := List.mem_map.mp hd
    exact byte.toNat_lt
  simpa [leNat] using Nat.ofDigits_lt_base_pow_length (by decide) hdigits

/-- A byte of a byte string is a digit of its integer. -/
theorem leNat_digit (bytes : List UInt8) (i : ℕ) :
    UInt8.ofNat (leNat bytes / 256 ^ i) = bytes.getD i 0 := by
  induction bytes generalizing i with
  | nil => simp [leNat]
  | cons byte bytes ih =>
    rw [leNat_cons]
    cases i with
    | zero =>
      apply UInt8.toNat_inj.mp
      simp
    | succ i =>
      have hbyte : byte.toNat < 256 := byte.toNat_lt
      have hdiv : (byte.toNat + 256 * leNat bytes) / 256 = leNat bytes := by omega
      rw [pow_succ', ← Nat.div_div_eq_div_mul, hdiv, ih]
      rfl

theorem leBytes_leNat (bytes : Bytes32) : leBytes 32 (leNat bytes.toList) = bytes := by
  ext i hi
  rw [leBytes, Vector.getElem_ofFn, leNat_digit]
  simp [hi]

theorem leNat_ofFn (n x : ℕ) :
    leNat (List.ofFn fun i : Fin n ↦ UInt8.ofNat (x / 256 ^ i.val)) = x % 256 ^ n := by
  induction n generalizing x with
  | zero => simp [Nat.mod_one]
  | succ n ih =>
    have hrest : (fun i : Fin n ↦ UInt8.ofNat (x / 256 ^ i.succ.val)) =
        fun i : Fin n ↦ UInt8.ofNat (x / 256 / 256 ^ i.val) := by
      funext i
      rw [Fin.val_succ, pow_succ', Nat.div_div_eq_div_mul]
    rw [List.ofFn_succ, leNat_cons, hrest, ih, pow_succ', Nat.mod_mul]
    simp

theorem leNat_leBytes {n x : ℕ} (h : x < 256 ^ n) : leNat (leBytes n x).toList = x := by
  rw [leBytes, Vector.toList_ofFn, leNat_ofFn, Nat.mod_eq_of_lt h]

theorem leNat_bytes32_lt (bytes : Bytes32) : leNat bytes.toList < 2 ^ 256 := by
  have h := leNat_lt bytes.toList
  rw [Vector.length_toList] at h
  exact h

/-- `CompactTypeBytes(32)`. -/
def compactTypeBytes32 : Descriptor Bytes32 where
  toValue bytes := [⟨32, leNat bytes.toList⟩]
  fromValue
    | [atom] =>
      if atom.length = 32 ∧ atom.value < 2 ^ 256 then some (leBytes 32 atom.value) else none
    | _ => none
  fromValue_toValue bytes := by
    refine (if_pos ⟨rfl, leNat_bytes32_lt bytes⟩).trans ?_
    rw [leBytes_leNat]

/-- `CompactTypeBoolean`. -/
def compactTypeBoolean : Descriptor Bool where
  toValue b := [⟨1, b.toNat⟩]
  fromValue
    | [⟨1, 0⟩] => some false
    | [⟨1, 1⟩] => some true
    | _ => none
  fromValue_toValue b := by cases b <;> rfl

/-- The number of a phase in the enumeration of the compiled contract. -/
def phaseNumber : Phase → ℕ
  | .bidding => 0
  | .reveal => 1
  | .finalized => 2
  | .cancelled => 3

/-- `CompactTypeEnum(3, 1)`, the enumeration of the phases. -/
def compactTypeEnumPhase : Descriptor Phase where
  toValue phase := [⟨1, phaseNumber phase⟩]
  fromValue
    | [⟨1, 0⟩] => some .bidding
    | [⟨1, 1⟩] => some .reveal
    | [⟨1, 2⟩] => some .finalized
    | [⟨1, 3⟩] => some .cancelled
    | _ => none
  fromValue_toValue phase := by cases phase <;> rfl

/-- A `Maybe` as the compiled contract holds it. -/
structure Maybe where
  isSome : Bool
  value : Bytes32
  deriving DecidableEq

/-- `_none_0`. -/
def none0 : Maybe := ⟨false, zeroBytes⟩

/-- `_some_0`. -/
def some0 (value : Bytes32) : Maybe := ⟨true, value⟩

/-- `_Maybe_0`: the atoms of the flag and of the bytes. -/
def maybe0 : Descriptor Maybe where
  toValue maybe :=
    compactTypeBoolean.toValue maybe.isSome ++ compactTypeBytes32.toValue maybe.value
  fromValue
    | [flag, bytes] =>
      (compactTypeBoolean.fromValue [flag]).bind fun isSome ↦
        (compactTypeBytes32.fromValue [bytes]).map (Maybe.mk isSome)
    | _ => none
  fromValue_toValue maybe := by
    show ((compactTypeBoolean.fromValue (compactTypeBoolean.toValue maybe.isSome)).bind fun isSome ↦
      (compactTypeBytes32.fromValue (compactTypeBytes32.toValue maybe.value)).map
        (Maybe.mk isSome)) = some maybe
    rw [compactTypeBoolean.fromValue_toValue, compactTypeBytes32.fromValue_toValue]
    rfl

def descriptor0 : Descriptor Uint64 := compactTypeUnsignedInteger 18446744073709551616 8
def descriptor1 : Descriptor Phase := compactTypeEnumPhase
def descriptor2 : Descriptor Bytes32 := compactTypeBytes32
def descriptor3 : Descriptor Bool := compactTypeBoolean
def descriptor5 : Descriptor Maybe := maybe0
def descriptor11 : Descriptor (Fin 256) := compactTypeUnsignedInteger 256 1

/-! ### State values -/

/-- What a map holds: null, or a cell. -/
inductive Leaf
  | null
  | cell (value : AlignedValue)
  deriving DecidableEq

/-- The maps of the ledger machine. -/
abbrev StateMap := Finmap fun _ : AlignedValue ↦ Leaf

/-- What the state array of the contract holds: null, a cell or a map. -/
inductive Node
  | leaf (leaf : Leaf)
  | map (entries : StateMap)
  deriving DecidableEq

/-- A state value. -/
inductive StateValue
  | node (node : Node)
  | array (items : List Node)
  deriving DecidableEq

/-- `StateValue.newNull()`. -/
def newNull : StateValue := .node (.leaf .null)

/-- `StateValue.newCell(value)`. -/
def newCell (value : AlignedValue) : StateValue := .node (.leaf (.cell value))

/-- `StateValue.newMap(new StateMap())`. -/
def newMap : StateValue := .node (.map ∅)

/-- The item of a container at a key: arrays are indexed by a one-byte number. -/
def StateValue.child : StateValue → AlignedValue → Option StateValue
  | .array items, [⟨1, i⟩] => (items[i]?).map .node
  | .node (.map entries), key => (entries.lookup key).map fun leaf ↦ .node (.leaf leaf)
  | _, _ => none

/-- A container with an item put at a key. -/
def StateValue.insertChild : StateValue → AlignedValue → StateValue → Option StateValue
  | .array items, [⟨1, i⟩], .node item =>
    if i < items.length then some (.array (items.set i item)) else none
  | .node (.map entries), key, .node (.leaf leaf) => some (.node (.map (entries.insert key leaf)))
  | _, _, _ => none

/-! ### Instructions -/

/-- The instructions that the compiled contract uses. -/
inductive Op
  | noop (n : ℕ)
  | dup (n : ℕ)
  | idx (cached pushPath : Bool) (path : List AlignedValue)
  | push (storage : Bool) (value : StateValue)
  | member
  | size
  | eq
  | addi (immediate : ℕ)
  | ins (cached : Bool) (n : ℕ)
  | popeq (cached : Bool) (result : Option AlignedValue)
  deriving DecidableEq

/-- How many cells an instruction removes from the top of the stack, and how many it puts there. -/
def Op.effect : Op → ℕ × ℕ
  | .noop _ => (0, 0)
  | .dup _ => (0, 1)
  | .idx _ pushPath path => (1, if pushPath then 1 + 2 * path.length else 1)
  | .push _ _ => (0, 1)
  | .member => (2, 1)
  | .size => (1, 1)
  | .eq => (2, 1)
  | .addi _ => (1, 1)
  | .ins _ n => (2 * n + 1, 1)
  | .popeq _ _ => (1, 0)

/-- An instruction that read a value, with the value filled in. -/
def Op.record : Op → List AlignedValue → Op
  | .popeq cached none, [value] => .popeq cached (some value)
  | op, _ => op

/-- What the documentation of an instruction says about a stack: the next stack and the values
read, that the instruction fails, or nothing. -/
inductive Documented
  | next (stack : List StateValue) (reads : List AlignedValue)
  | fails
  | unspecified

/-- The documented behaviour of the instructions, on the stacks that the contract meets. The top of
a stack is its first cell. A `popeq` with a result fails unless it pops that result. -/
def Op.documented : Op → List StateValue → Documented
  | .noop _, stack => .next stack []
  | .dup n, stack =>
    match stack[n]? with
    | some cell => .next (cell :: stack) []
    | none => .unspecified
  | .idx _ pushPath [key], container :: stack =>
    match container.child key with
    | some item =>
      if pushPath then .next (item :: newCell key :: container :: stack) []
      else .next (item :: stack) []
    | none => .unspecified
  | .push _ value, stack => .next (value :: stack) []
  | .member, .node (.leaf (.cell key)) :: .node (.map entries) :: stack =>
    .next (newCell (compactTypeBoolean.toValue (decide (key ∈ entries))) :: stack) []
  | .size, .node (.map entries) :: stack =>
    .next (newCell [⟨8, entries.keys.card⟩] :: stack) []
  | .eq, .node (.leaf (.cell x)) :: .node (.leaf (.cell y)) :: stack =>
    .next (newCell (compactTypeBoolean.toValue (decide (x = y))) :: stack) []
  | .addi immediate, .node (.leaf (.cell [⟨8, x⟩])) :: stack =>
    if x + immediate < 18446744073709551616 then .next (newCell [⟨8, x + immediate⟩] :: stack) []
    else .fails
  | .ins _ 1, item :: .node (.leaf (.cell key)) :: container :: stack =>
    match container.insertChild key item with
    | some filled => .next (filled :: stack) []
    | none => .unspecified
  | .popeq _ none, .node (.leaf (.cell value)) :: stack => .next stack [value]
  | .popeq _ (some result), .node (.leaf (.cell value)) :: stack =>
    if value = result then .next stack [] else .fails
  | .popeq _ _, _ => .fails
  | _, _ => .unspecified

/-- An instruction other than `popeq`. -/
def Op.IsPlain : Op → Prop
  | .popeq _ _ => False
  | _ => True

/-! ### The machine -/

/-- The ledger machine of the runtime, with what the contract relies on. -/
structure LedgerVm where
  step : Op → List StateValue → Except String (List StateValue × List AlignedValue)
  /-- The cells beneath the contract state when a program starts. -/
  beneath : List StateValue
  step_of_next : ∀ {op stack next reads},
    op.documented stack = .next next reads → step op stack = .ok (next, reads)
  step_of_fails : ∀ {op stack}, op.documented stack = .fails → ∃ error, step op stack = .error error
  step_effect : ∀ {op stack next reads}, step op stack = .ok (next, reads) →
    op.effect.1 ≤ stack.length ∧
      ∃ top, top.length = op.effect.2 ∧ next = top ++ stack.drop op.effect.1
  reads_eq_nil : ∀ {op stack next reads}, op.IsPlain → step op stack = .ok (next, reads) →
    reads = []

variable (vm : LedgerVm)

/-- An instruction with a value filled in is another instruction only when it is a `popeq`. -/
theorem Op.record_of_isPlain {op : Op} (h : op.IsPlain) (reads : List AlignedValue) :
    op.record reads = op := by
  cases op with
  | popeq cached result => exact h.elim
  | noop | dup | idx | push | member | size | eq | addi | ins => rfl

theorem Op.isPlain_or_popeq (op : Op) :
    op.IsPlain ∨ (∃ cached, op = .popeq cached none) ∨ ∃ cached result,
      op = .popeq cached (some result) := by
  cases op with
  | popeq cached result =>
    cases result with
    | none => exact Or.inr (Or.inl ⟨cached, rfl⟩)
    | some result => exact Or.inr (Or.inr ⟨cached, result, rfl⟩)
  | noop | dup | idx | push | member | size | eq | addi | ins => exact Or.inl trivial

/-- A `popeq` without a result pops a cell and reads it. -/
theorem LedgerVm.step_popeq_none_eq_ok_iff {cached : Bool} {stack next : List StateValue}
    {reads : List AlignedValue} :
    vm.step (.popeq cached none) stack = .ok (next, reads) ↔
      ∃ value, stack = newCell value :: next ∧ reads = [value] := by
  constructor
  · intro hstep
    have hfails : (Op.popeq cached none).documented stack ≠ .fails := by
      intro hdocumented
      obtain ⟨error, herror⟩ := vm.step_of_fails hdocumented
      rw [hstep] at herror
      cases herror
    match stack, hfails with
    | .node (.leaf (.cell value)) :: rest, _ =>
      have hok : vm.step (.popeq cached none) (newCell value :: rest) = .ok (rest, [value]) :=
        vm.step_of_next rfl
      change vm.step (.popeq cached none) (newCell value :: rest) = .ok (next, reads) at hstep
      rw [hstep] at hok
      cases hok
      exact ⟨value, rfl, rfl⟩
    | [], hfails => exact absurd rfl hfails
    | .node (.leaf .null) :: _, hfails => exact absurd rfl hfails
    | .node (.map _) :: _, hfails => exact absurd rfl hfails
    | .array _ :: _, hfails => exact absurd rfl hfails
  · rintro ⟨value, rfl, rfl⟩
    exact vm.step_of_next rfl

/-- A `popeq` with a result pops that result and reads nothing. -/
theorem LedgerVm.step_popeq_some_eq_ok_iff {cached : Bool} {result : AlignedValue}
    {stack next : List StateValue} {reads : List AlignedValue} :
    vm.step (.popeq cached (some result)) stack = .ok (next, reads) ↔
      stack = newCell result :: next ∧ reads = [] := by
  constructor
  · intro hstep
    have hfails : (Op.popeq cached (some result)).documented stack ≠ .fails := by
      intro hdocumented
      obtain ⟨error, herror⟩ := vm.step_of_fails hdocumented
      rw [hstep] at herror
      cases herror
    match stack, hfails with
    | .node (.leaf (.cell value)) :: rest, hfails =>
      have hvalue : value = result := by
        by_contra hne
        exact hfails (if_neg hne)
      subst hvalue
      have hok : vm.step (.popeq cached (some value)) (newCell value :: rest) = .ok (rest, []) :=
        vm.step_of_next (if_pos rfl)
      change vm.step (.popeq cached (some value)) (newCell value :: rest) = .ok (next, reads)
        at hstep
      rw [hstep] at hok
      cases hok
      exact ⟨rfl, rfl⟩
    | [], hfails => exact absurd rfl hfails
    | .node (.leaf .null) :: _, hfails => exact absurd rfl hfails
    | .node (.map _) :: _, hfails => exact absurd rfl hfails
    | .array _ :: _, hfails => exact absurd rfl hfails
  · rintro ⟨rfl, rfl⟩
    exact vm.step_of_next (if_pos rfl)

/-- The ledger machine as a stack machine with recorded reads. -/
def LedgerVm.machine : Machine Op StateValue AlignedValue String where
  step := vm.step
  record := Op.record
  effect := Op.effect
  emptyStack := "the stack is empty"
  step_effect := vm.step_effect
  effect_record op reads := by
    obtain hplain | ⟨cached, rfl⟩ | ⟨cached, result, rfl⟩ := op.isPlain_or_popeq
    · rw [Op.record_of_isPlain hplain]
    · unfold Op.record
      split <;> simp_all [Op.effect]
    · rfl
  step_record {op stack next reads} hstep := by
    obtain hplain | ⟨cached, rfl⟩ | ⟨cached, result, rfl⟩ := op.isPlain_or_popeq
    · exact ⟨reads, by rw [Op.record_of_isPlain hplain, hstep]⟩
    · obtain ⟨value, rfl, rfl⟩ := vm.step_popeq_none_eq_ok_iff.mp hstep
      exact ⟨[], vm.step_popeq_some_eq_ok_iff.mpr ⟨rfl, rfl⟩⟩
    · exact ⟨reads, hstep⟩
  step_of_step_record {op stack next reads other otherNext seen} hstep hother := by
    obtain hplain | ⟨cached, rfl⟩ | ⟨cached, result, rfl⟩ := op.isPlain_or_popeq
    · rw [Op.record_of_isPlain hplain] at hother
      have hreads := vm.reads_eq_nil hplain hstep
      have hseen := vm.reads_eq_nil hplain hother
      rw [hother, hreads, hseen]
    · obtain ⟨value, rfl, rfl⟩ := vm.step_popeq_none_eq_ok_iff.mp hstep
      obtain ⟨rfl, rfl⟩ := vm.step_popeq_some_eq_ok_iff.mp hother
      exact vm.step_popeq_none_eq_ok_iff.mpr ⟨value, rfl, rfl⟩
    · obtain ⟨-, rfl⟩ := vm.step_popeq_some_eq_ok_iff.mp hstep
      obtain ⟨rfl, rfl⟩ := vm.step_popeq_some_eq_ok_iff.mp hother
      exact hother

/-! ### A machine that satisfies the laws -/

/-- The documented behaviour respects the documented effect on the stack, and only `popeq` reads. -/
theorem Op.documented_next {op : Op} {stack next : List StateValue} {reads : List AlignedValue}
    (h : op.documented stack = .next next reads) :
    op.effect.1 ≤ stack.length ∧
      (∃ top, top.length = op.effect.2 ∧ next = top ++ stack.drop op.effect.1) ∧
        (op.IsPlain → reads = []) := by
  unfold Op.documented at h
  split at h
  case h_1 =>
    cases h
    exact ⟨Nat.zero_le _, ⟨[], rfl, rfl⟩, fun _ ↦ rfl⟩
  case h_4 =>
    cases h
    exact ⟨Nat.zero_le _, ⟨[_], rfl, rfl⟩, fun _ ↦ rfl⟩
  case h_2 =>
    split at h <;> cases h
    exact ⟨Nat.zero_le _, ⟨[_], rfl, rfl⟩, fun _ ↦ rfl⟩
  case h_3 cached pushPath key container rest =>
    split at h
    · cases pushPath <;> cases h
      · exact ⟨by simp [Op.effect], ⟨[_], rfl, rfl⟩, fun _ ↦ rfl⟩
      · exact ⟨by simp [Op.effect], ⟨[_, _, _], rfl, rfl⟩, fun _ ↦ rfl⟩
    · cases h
  case h_5 | h_6 | h_7 =>
    cases h
    exact ⟨by simp [Op.effect], ⟨[_], rfl, rfl⟩, fun _ ↦ rfl⟩
  case h_8 | h_9 =>
    split at h <;> cases h
    exact ⟨by simp [Op.effect], ⟨[_], rfl, rfl⟩, fun _ ↦ rfl⟩
  case h_10 =>
    cases h
    exact ⟨by simp [Op.effect], ⟨[], rfl, rfl⟩, fun hplain ↦ hplain.elim⟩
  case h_11 =>
    split at h <;> cases h
    exact ⟨by simp [Op.effect], ⟨[], rfl, rfl⟩, fun hplain ↦ hplain.elim⟩
  case h_12 => cases h
  case h_13 => cases h

/-- The machine that fails wherever the documentation does not say that it goes on. -/
def referenceVm : LedgerVm where
  step op stack :=
    match op.documented stack with
    | .next next reads => .ok (next, reads)
    | .fails => .error "the instruction fails"
    | .unspecified => .error "the instruction does not apply"
  beneath := []
  step_of_next h := by rw [h]
  step_of_fails h := ⟨_, by rw [h]⟩
  step_effect {op stack next reads} h := by
    split at h <;> cases h
    obtain ⟨hheight, heffect, -⟩ := Op.documented_next ‹_›
    exact ⟨hheight, heffect⟩
  reads_eq_nil {op stack next reads} hplain h := by
    split at h <;> cases h
    exact (Op.documented_next ‹_›).2.2 hplain

end SealedBid.Compiled
