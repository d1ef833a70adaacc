import SealedBid.Compiled.FieldRepresentation

/-!
# The intermediate representation of the proofs

Next to the JavaScript of each circuit, the compiled contract has the circuit that is proved
(`managed/sealed-bid/zkir/*.zkir`): a straight-line program over wires. The first wires are the
inputs of the circuit, and every instruction appends the wires that it outputs. This module has the
instructions that the five programs use, the five programs, and what it means that wires satisfy a
program.

An instruction has a precondition on the wires it reads (`Defined`) and says what its outputs are
when the precondition holds (`Result`); when it does not hold nothing is known about the outputs.
Wires satisfy a program when every instruction whose precondition holds has its result
(`Satisfied`), and they execute it when every precondition holds as well (`Executed`). The public
inputs of the proof are the declared wires in their order (`declared`).

The proof system is not part of the repository and is a parameter, `ProofSystem`. What the contract
relies on are its laws: the wires of a proof that verifies satisfy the program, and wires that
execute the program have a proof.

Scope. A wire holds a field element, given by its least natural number. No program does arithmetic
in the field; the laws only use that the field has more than `2^248` elements. A guard that is not
set makes an input wire zero; which declarations are skipped is seen from their zeros, so `piSkip`
constrains nothing. The commitment to the inputs and outputs of a circuit is not modelled.
-/

set_option autoImplicit false
set_option relaxedAutoImplicit false

namespace SealedBid.Compiled

/-! ### Instructions -/

/-- The instructions of the representation that the programs use. Wires are given by their
numbers, immediates by their bytes, the lowest first. -/
inductive Instruction
  | constrainBits (var bits : ℕ)
  | loadImm (imm : List UInt8)
  | declarePubInput (var : ℕ)
  | piSkip (guard count : ℕ)
  | publicInput (guard : Option ℕ)
  | privateInput (guard : Option ℕ)
  | testEq (a b : ℕ)
  | assert (cond : ℕ)
  | condSelect (bit a b : ℕ)
  | lessThan (a b bits : ℕ)
  | divModPowerOfTwo (var bits : ℕ)
  | persistentHash (alignment inputs : List ℕ)
  deriving DecidableEq

/-- A program: the number of its inputs and its instructions. -/
structure Program where
  numInputs : ℕ
  instructions : List Instruction
  deriving DecidableEq

/-- The wires of a program. -/
abbrev Wires := ℕ → ℕ

/-- How many wires an instruction appends. -/
def Instruction.outputs : Instruction → ℕ
  | .constrainBits _ _ | .declarePubInput _ | .piSkip _ _ | .assert _ => 0
  | .loadImm _ | .publicInput _ | .privateInput _ | .testEq _ _ | .condSelect _ _ _
  | .lessThan _ _ _ => 1
  | .divModPowerOfTwo _ _ | .persistentHash _ _ => 2

/-- The highest byte of 32 bytes, as a limb. -/
def highLimb (bytes : Bytes32) : ℕ := leNat bytes.toList / 2 ^ 248

/-- The other bytes of 32 bytes, as a limb. -/
def lowLimb (bytes : Bytes32) : ℕ := leNat bytes.toList % 2 ^ 248

@[simp] theorem valueFields_bytes32 (bytes : Bytes32) :
    valueFields (descriptor2.toValue bytes) = [1, 32, highLimb bytes, lowLimb bytes] :=
  valueFields_bytes _

/-- The 32 bytes that two limbs make. -/
def bytesOfLimbs (high low : ℕ) : Bytes32 := leBytes 32 (high * 2 ^ 248 + low)

theorem highLimb_lt (bytes : Bytes32) : highLimb bytes < 2 ^ 8 := by
  have h := leNat_bytes32_lt bytes
  rw [highLimb]
  omega

theorem lowLimb_lt (bytes : Bytes32) : lowLimb bytes < 2 ^ 248 := Nat.mod_lt _ (by decide)

theorem bytesOfLimbs_limbs (bytes : Bytes32) :
    bytesOfLimbs (highLimb bytes) (lowLimb bytes) = bytes := by
  rw [bytesOfLimbs, highLimb, lowLimb, Nat.div_add_mod', leBytes_leNat]

theorem highLimb_bytesOfLimbs {high low : ℕ} (hhigh : high < 2 ^ 8) (hlow : low < 2 ^ 248) :
    highLimb (bytesOfLimbs high low) = high := by
  rw [highLimb, bytesOfLimbs, leNat_leBytes (by omega)]
  omega

theorem lowLimb_bytesOfLimbs {high low : ℕ} (hhigh : high < 2 ^ 8) (hlow : low < 2 ^ 248) :
    lowLimb (bytesOfLimbs high low) = low := by
  rw [lowLimb, bytesOfLimbs, leNat_leBytes (by omega)]
  omega

/-- The limbs of a 64-bit integer, taken as 32 bytes. -/
theorem bytesOfLimbs_amount (amount : Uint64) :
    bytesOfLimbs (amount.val / 2 ^ 248) (amount.val % 2 ^ 248) = asBytes amount := by
  rw [bytesOfLimbs, Nat.div_add_mod']
  rfl

/-- The byte strings that a hash reads from its input wires, two limbs to each, unless a limb has
more bits than it may. -/
def hashInput (wires : Wires) : List ℕ → List ℕ → Option (List Bytes32)
  | [], [] => some []
  | 32 :: alignment, high :: low :: inputs =>
    if wires high < 2 ^ 8 ∧ wires low < 2 ^ 248 then
      (hashInput wires alignment inputs).map (bytesOfLimbs (wires high) (wires low) :: ·)
    else none
  | _, _ => none

/-- What an instruction requires of the wires that it reads. -/
def Instruction.Defined (wires : Wires) : Instruction → Prop
  | .publicInput (some guard) | .privateInput (some guard) => wires guard ≤ 1
  | .piSkip guard _ => wires guard ≤ 1
  | .assert cond => wires cond ≤ 1
  | .condSelect bit _ _ => wires bit ≤ 1
  | .lessThan a b bits => wires a < 2 ^ bits ∧ wires b < 2 ^ bits
  | .persistentHash alignment inputs => (hashInput wires alignment inputs).isSome
  | _ => True

variable (persistentHash : PersistentHash)

/-- What an instruction says about the wires, when the first wire that it appends is `next`. -/
def Instruction.Result (wires : Wires) (next : ℕ) : Instruction → Prop
  | .constrainBits var bits => wires var < 2 ^ bits
  | .loadImm imm => wires next = leNat imm
  | .declarePubInput _ | .piSkip _ _ => True
  | .publicInput guard | .privateInput guard => ∀ bit ∈ guard, wires bit = 0 → wires next = 0
  | .testEq a b => wires next = if wires a = wires b then 1 else 0
  | .assert cond => wires cond = 1
  | .condSelect bit a b => wires next = if wires bit = 1 then wires a else wires b
  | .lessThan a b _ => wires next = if wires a < wires b then 1 else 0
  | .divModPowerOfTwo var bits =>
    wires next = wires var / 2 ^ bits ∧ wires (next + 1) = wires var % 2 ^ bits
  | .persistentHash alignment inputs =>
    ∀ blocks ∈ hashInput wires alignment inputs,
      wires next = highLimb (persistentHash blocks) ∧
        wires (next + 1) = lowLimb (persistentHash blocks)

/-! ### Programs -/

/-- Wires that satisfy a list of instructions: every instruction whose precondition holds has its
result. -/
def Satisfied (wires : Wires) : ℕ → List Instruction → Prop
  | _, [] => True
  | next, instruction :: rest =>
    (instruction.Defined wires → instruction.Result persistentHash wires next) ∧
      Satisfied wires (next + instruction.outputs) rest

/-- Wires that execute a list of instructions: every precondition holds and every instruction has
its result. -/
def Executed (wires : Wires) : ℕ → List Instruction → Prop
  | _, [] => True
  | next, instruction :: rest =>
    (instruction.Defined wires ∧ instruction.Result persistentHash wires next) ∧
      Executed wires (next + instruction.outputs) rest

/-- The public inputs of a proof. -/
def declared (wires : Wires) : List Instruction → List ℕ
  | [] => []
  | .declarePubInput var :: rest => wires var :: declared wires rest
  | _ :: rest => declared wires rest

variable {persistentHash}

theorem Executed.satisfied {wires : Wires} {next : ℕ} {instructions : List Instruction}
    (h : Executed persistentHash wires next instructions) :
    Satisfied persistentHash wires next instructions := by
  induction instructions generalizing next with
  | nil => trivial
  | cons instruction rest ih => exact ⟨fun _ ↦ h.1.2, ih h.2⟩

/-! ### The programs of the contract -/

/-- `placeBid.zkir`. -/
def placeBidIr : Program where
  numInputs := 2
  instructions :=
    [.constrainBits 0 8, .constrainBits 1 248, .loadImm [0x01], .loadImm [0x30],
      .declarePubInput 3, .piSkip 2 1,
      .loadImm [0x50], .loadImm [0x00], .declarePubInput 4, .declarePubInput 2,
      .declarePubInput 2, .declarePubInput 5, .piSkip 2 4,
      .publicInput none, .loadImm [0x0c], .declarePubInput 7, .declarePubInput 2,
      .declarePubInput 2, .declarePubInput 6, .piSkip 2 4,
      .testEq 6 5, .assert 8,
      .privateInput none, .constrainBits 9 8, .privateInput none, .constrainBits 10 248,
      .loadImm [0x73, 0x65, 0x61, 0x6c, 0x65, 0x64, 0x62, 0x69, 0x64, 0x3a, 0x62, 0x69,
        0x64, 0x64, 0x65, 0x72, 0x3a, 0x76, 0x31],
      .persistentHash [32, 32] [5, 11, 9, 10],
      .declarePubInput 3, .piSkip 2 1,
      .loadImm [0x05], .declarePubInput 4, .declarePubInput 2, .declarePubInput 2,
      .declarePubInput 14, .piSkip 2 4,
      .loadImm [0x10], .loadImm [0x20], .declarePubInput 15, .declarePubInput 2,
      .declarePubInput 2, .declarePubInput 16, .declarePubInput 0, .declarePubInput 1,
      .piSkip 2 6,
      .loadImm [0x18], .declarePubInput 17, .piSkip 2 1,
      .publicInput none, .loadImm [0x0d], .declarePubInput 19, .declarePubInput 2,
      .declarePubInput 2, .declarePubInput 18, .piSkip 2 4,
      .condSelect 18 5 2, .assert 20,
      .declarePubInput 3, .piSkip 2 1,
      .loadImm [0x06], .declarePubInput 4, .declarePubInput 2, .declarePubInput 2,
      .declarePubInput 21, .piSkip 2 4,
      .declarePubInput 15, .declarePubInput 2, .declarePubInput 2, .declarePubInput 16,
      .declarePubInput 12, .declarePubInput 13, .piSkip 2 6,
      .declarePubInput 17, .piSkip 2 1,
      .publicInput none, .declarePubInput 19, .declarePubInput 2, .declarePubInput 2,
      .declarePubInput 22, .piSkip 2 4,
      .condSelect 22 5 2, .assert 23,
      .loadImm [0x70], .declarePubInput 24, .declarePubInput 2, .declarePubInput 2,
      .declarePubInput 14, .piSkip 2 4,
      .declarePubInput 15, .declarePubInput 2, .declarePubInput 2, .declarePubInput 16,
      .declarePubInput 0, .declarePubInput 1, .piSkip 2 6,
      .loadImm [0x11], .declarePubInput 25, .declarePubInput 2, .declarePubInput 2,
      .declarePubInput 16, .declarePubInput 12, .declarePubInput 13, .piSkip 2 6,
      .loadImm [0x91], .declarePubInput 26, .piSkip 2 1,
      .loadImm [0xa1], .declarePubInput 27, .piSkip 2 1,
      .declarePubInput 24, .declarePubInput 2, .declarePubInput 2, .declarePubInput 21,
      .piSkip 2 4,
      .declarePubInput 15, .declarePubInput 2, .declarePubInput 2, .declarePubInput 16,
      .declarePubInput 12, .declarePubInput 13, .piSkip 2 6,
      .declarePubInput 25, .declarePubInput 2, .declarePubInput 2, .declarePubInput 16,
      .declarePubInput 0, .declarePubInput 1, .piSkip 2 6,
      .declarePubInput 26, .piSkip 2 1,
      .declarePubInput 27, .piSkip 2 1,
      .declarePubInput 24, .declarePubInput 2, .declarePubInput 2, .declarePubInput 7,
      .piSkip 2 4,
      .loadImm [0x0e], .declarePubInput 28, .declarePubInput 2, .piSkip 2 2,
      .declarePubInput 27, .piSkip 2 1]

/-- `closeBidding.zkir`. -/
def closeBiddingIr : Program where
  numInputs := 0
  instructions :=
    [.loadImm [0x01], .loadImm [0x30], .declarePubInput 1, .piSkip 0 1,
      .loadImm [0x50], .declarePubInput 2, .declarePubInput 0, .declarePubInput 0,
      .declarePubInput 0, .piSkip 0 4,
      .publicInput none, .publicInput none, .loadImm [0x20], .loadImm [0x0c], .declarePubInput 6,
      .declarePubInput 0, .declarePubInput 5, .declarePubInput 3, .declarePubInput 4, .piSkip 0 5,
      .privateInput none, .constrainBits 7 8, .privateInput none, .constrainBits 8 248,
      .loadImm [0x00],
      .loadImm [0x73, 0x65, 0x61, 0x6c, 0x65, 0x64, 0x62, 0x69, 0x64, 0x3a, 0x61, 0x75,
        0x63, 0x74, 0x69, 0x6f, 0x6e, 0x65, 0x65, 0x72, 0x3a, 0x76, 0x31],
      .persistentHash [32, 32] [9, 10, 7, 8],
      .testEq 3 11, .testEq 4 12, .condSelect 13 14 9, .assert 15,
      .declarePubInput 1, .piSkip 0 1,
      .declarePubInput 2, .declarePubInput 0, .declarePubInput 0, .declarePubInput 9, .piSkip 0 4,
      .publicInput none, .declarePubInput 6, .declarePubInput 0, .declarePubInput 0,
      .declarePubInput 16, .piSkip 0 4,
      .testEq 16 9, .assert 17,
      .loadImm [0x10], .declarePubInput 18, .declarePubInput 0, .declarePubInput 0,
      .declarePubInput 0, .declarePubInput 9, .piSkip 0 5,
      .loadImm [0x11], .declarePubInput 19, .declarePubInput 0, .declarePubInput 0,
      .declarePubInput 0, .declarePubInput 0, .piSkip 0 5,
      .loadImm [0x91], .declarePubInput 20, .piSkip 0 1]

/-- `revealBid.zkir`. -/
def revealBidIr : Program where
  numInputs := 3
  instructions :=
    [.constrainBits 0 64, .constrainBits 1 8, .constrainBits 2 248, .loadImm [0x01],
      .loadImm [0x30], .declarePubInput 4, .piSkip 3 1,
      .loadImm [0x50], .loadImm [0x00], .declarePubInput 5, .declarePubInput 3,
      .declarePubInput 3, .declarePubInput 6, .piSkip 3 4,
      .publicInput none, .loadImm [0x0c], .declarePubInput 8, .declarePubInput 3,
      .declarePubInput 3, .declarePubInput 7, .piSkip 3 4,
      .testEq 7 3, .assert 9,
      .privateInput none, .constrainBits 10 8, .privateInput none, .constrainBits 11 248,
      .loadImm [0x73, 0x65, 0x61, 0x6c, 0x65, 0x64, 0x62, 0x69, 0x64, 0x3a, 0x62, 0x69,
        0x64, 0x64, 0x65, 0x72, 0x3a, 0x76, 0x31],
      .persistentHash [32, 32] [6, 12, 10, 11],
      .declarePubInput 4, .piSkip 3 1,
      .loadImm [0x06], .declarePubInput 5, .declarePubInput 3, .declarePubInput 3,
      .declarePubInput 15, .piSkip 3 4,
      .loadImm [0x10], .loadImm [0x20], .declarePubInput 16, .declarePubInput 3,
      .declarePubInput 3, .declarePubInput 17, .declarePubInput 13, .declarePubInput 14,
      .piSkip 3 6,
      .loadImm [0x18], .declarePubInput 18, .piSkip 3 1,
      .publicInput none, .loadImm [0x0d], .declarePubInput 20, .declarePubInput 3,
      .declarePubInput 3, .declarePubInput 19, .piSkip 3 4,
      .assert 19,
      .declarePubInput 4, .piSkip 3 1,
      .declarePubInput 5, .declarePubInput 3, .declarePubInput 3, .declarePubInput 15,
      .piSkip 3 4,
      .declarePubInput 5, .declarePubInput 3, .declarePubInput 17, .declarePubInput 13,
      .declarePubInput 14, .piSkip 3 5,
      .publicInput none, .publicInput none, .declarePubInput 8, .declarePubInput 3,
      .declarePubInput 17, .declarePubInput 21, .declarePubInput 22, .piSkip 3 5,
      .declarePubInput 4, .piSkip 3 1,
      .loadImm [0x07], .declarePubInput 5, .declarePubInput 3, .declarePubInput 3,
      .declarePubInput 23, .piSkip 3 4,
      .declarePubInput 16, .declarePubInput 3, .declarePubInput 3, .declarePubInput 17,
      .declarePubInput 21, .declarePubInput 22, .piSkip 3 6,
      .declarePubInput 18, .piSkip 3 1,
      .publicInput none, .declarePubInput 20, .declarePubInput 3, .declarePubInput 3,
      .declarePubInput 24, .piSkip 3 4,
      .condSelect 24 6 3, .assert 25,
      .divModPowerOfTwo 0 248,
      .loadImm [0x73, 0x65, 0x61, 0x6c, 0x65, 0x64, 0x62, 0x69, 0x64, 0x3a, 0x63, 0x6f,
        0x6d, 0x6d, 0x69, 0x74, 0x3a, 0x76, 0x31],
      .persistentHash [32, 32, 32, 32] [6, 28, 26, 27, 1, 2, 13, 14],
      .testEq 29 21, .testEq 30 22, .condSelect 31 32 6, .assert 33,
      .loadImm [0x70], .declarePubInput 34, .declarePubInput 3, .declarePubInput 3,
      .declarePubInput 23, .piSkip 3 4,
      .declarePubInput 16, .declarePubInput 3, .declarePubInput 3, .declarePubInput 17,
      .declarePubInput 21, .declarePubInput 22, .piSkip 3 6,
      .loadImm [0x11], .declarePubInput 35, .declarePubInput 6, .piSkip 3 2,
      .loadImm [0x91], .declarePubInput 36, .piSkip 3 1,
      .loadImm [0xa1], .declarePubInput 37, .piSkip 3 1,
      .declarePubInput 4, .piSkip 3 1,
      .loadImm [0x02], .declarePubInput 5, .declarePubInput 3, .declarePubInput 3,
      .declarePubInput 38, .piSkip 3 4,
      .publicInput none, .loadImm [0x08], .declarePubInput 8, .declarePubInput 3,
      .declarePubInput 40, .declarePubInput 39, .piSkip 3 4,
      .lessThan 0 39 64, .condSelect 41 6 3, .declarePubInput 4, .piSkip 3 1,
      .declarePubInput 5, .declarePubInput 3, .declarePubInput 3, .declarePubInput 40,
      .piSkip 3 4,
      .publicInput none, .declarePubInput 8, .declarePubInput 3, .declarePubInput 40,
      .declarePubInput 43, .piSkip 3 4,
      .lessThan 43 0 64, .condSelect 42 34 6, .declarePubInput 45, .declarePubInput 42,
      .declarePubInput 42, .condSelect 42 20 6, .declarePubInput 46, .piSkip 42 4,
      .loadImm [0x0e], .condSelect 42 47 6, .declarePubInput 48, .declarePubInput 42,
      .piSkip 42 2,
      .condSelect 42 37 6, .declarePubInput 49, .piSkip 42 1,
      .condSelect 44 42 6, .condSelect 50 16 6, .declarePubInput 51, .declarePubInput 50,
      .declarePubInput 50, .declarePubInput 50, .condSelect 50 40 6, .declarePubInput 52,
      .piSkip 50 5,
      .condSelect 50 35 6, .declarePubInput 53, .declarePubInput 50, .declarePubInput 50,
      .condSelect 50 40 6, .declarePubInput 54, .condSelect 50 0 6, .declarePubInput 55,
      .piSkip 50 5,
      .condSelect 50 36 6, .declarePubInput 56, .piSkip 50 1,
      .loadImm [0x09], .condSelect 50 16 6, .declarePubInput 58, .declarePubInput 50,
      .declarePubInput 50, .declarePubInput 50, .condSelect 50 57 6, .declarePubInput 59,
      .piSkip 50 5,
      .condSelect 50 35 6, .declarePubInput 60, .declarePubInput 50, .declarePubInput 50,
      .condSelect 50 17 6, .declarePubInput 61, .condSelect 50 13 6, .declarePubInput 62,
      .condSelect 50 14 6, .declarePubInput 63, .piSkip 50 6,
      .condSelect 50 36 6, .declarePubInput 64, .piSkip 50 1]

/-- `finalize.zkir`. -/
def finalizeIr : Program where
  numInputs := 0
  instructions :=
    [.loadImm [0x01], .loadImm [0x30], .declarePubInput 1, .piSkip 0 1,
      .loadImm [0x50], .loadImm [0x00], .declarePubInput 2, .declarePubInput 0,
      .declarePubInput 0, .declarePubInput 3, .piSkip 0 4,
      .publicInput none, .loadImm [0x0c], .declarePubInput 5, .declarePubInput 0,
      .declarePubInput 0, .declarePubInput 4, .piSkip 0 4,
      .testEq 4 0, .assert 6,
      .declarePubInput 1, .piSkip 0 1,
      .loadImm [0x0d], .declarePubInput 2, .declarePubInput 0, .declarePubInput 0,
      .declarePubInput 7, .piSkip 0 4,
      .publicInput none, .loadImm [0x08], .declarePubInput 7, .declarePubInput 0,
      .declarePubInput 9, .declarePubInput 8, .piSkip 0 4,
      .testEq 8 3, .condSelect 10 3 0, .loadImm [0x10], .loadImm [0x0a], .condSelect 10 12 3,
      .declarePubInput 14, .declarePubInput 10, .declarePubInput 10, .declarePubInput 10,
      .condSelect 10 13 3, .declarePubInput 15, .piSkip 10 5,
      .loadImm [0x11], .loadImm [0x02], .loadImm [0x20], .condSelect 10 16 3, .declarePubInput 19,
      .declarePubInput 10, .condSelect 10 17 3, .declarePubInput 20, .declarePubInput 10,
      .condSelect 10 18 3, .declarePubInput 21, .condSelect 10 3 3, .declarePubInput 22,
      .condSelect 10 3 3, .declarePubInput 23, .condSelect 10 3 3, .declarePubInput 24,
      .piSkip 10 8,
      .loadImm [0x91], .condSelect 10 25 3, .declarePubInput 26, .piSkip 10 1,
      .loadImm [0x0b], .condSelect 10 12 3, .declarePubInput 28, .declarePubInput 10,
      .declarePubInput 10, .declarePubInput 10, .condSelect 10 27 3, .declarePubInput 29,
      .piSkip 10 5,
      .condSelect 10 16 3, .declarePubInput 30, .declarePubInput 10, .declarePubInput 10,
      .condSelect 10 9 3, .declarePubInput 31, .condSelect 10 3 3, .declarePubInput 32,
      .piSkip 10 5,
      .condSelect 10 25 3, .declarePubInput 33, .piSkip 10 1,
      .condSelect 11 1 3, .declarePubInput 34, .piSkip 11 1,
      .loadImm [0x09], .condSelect 11 2 3, .declarePubInput 36, .declarePubInput 11,
      .declarePubInput 11, .condSelect 11 35 3, .declarePubInput 37, .piSkip 11 4,
      .publicInput (some 11), .publicInput (some 11), .condSelect 11 5 3, .declarePubInput 40,
      .declarePubInput 11, .condSelect 11 18 3, .declarePubInput 41, .condSelect 11 38 3,
      .declarePubInput 42, .condSelect 11 39 3, .declarePubInput 43, .piSkip 11 5,
      .condSelect 11 12 3, .declarePubInput 44, .declarePubInput 11, .declarePubInput 11,
      .declarePubInput 11, .condSelect 11 13 3, .declarePubInput 45, .piSkip 11 5,
      .condSelect 11 16 3, .declarePubInput 46, .declarePubInput 11, .condSelect 11 17 3,
      .declarePubInput 47, .declarePubInput 11, .condSelect 11 18 3, .declarePubInput 48,
      .declarePubInput 11, .condSelect 11 38 3, .declarePubInput 49, .condSelect 11 39 3,
      .declarePubInput 50, .piSkip 11 8,
      .condSelect 11 25 3, .declarePubInput 51, .piSkip 11 1,
      .condSelect 11 1 3, .declarePubInput 52, .piSkip 11 1,
      .condSelect 11 2 3, .declarePubInput 53, .declarePubInput 11, .declarePubInput 11,
      .condSelect 11 9 3, .declarePubInput 54, .piSkip 11 4,
      .publicInput (some 11), .condSelect 11 5 3, .declarePubInput 56, .declarePubInput 11,
      .condSelect 11 9 3, .declarePubInput 57, .condSelect 11 55 3, .declarePubInput 58,
      .piSkip 11 4,
      .condSelect 11 12 3, .declarePubInput 59, .declarePubInput 11, .declarePubInput 11,
      .declarePubInput 11, .condSelect 11 27 3, .declarePubInput 60, .piSkip 11 5,
      .condSelect 11 16 3, .declarePubInput 61, .declarePubInput 11, .declarePubInput 11,
      .condSelect 11 9 3, .declarePubInput 62, .condSelect 11 55 3, .declarePubInput 63,
      .piSkip 11 5,
      .condSelect 11 25 3, .declarePubInput 64, .piSkip 11 1,
      .declarePubInput 12, .declarePubInput 0, .declarePubInput 0, .declarePubInput 0,
      .declarePubInput 3, .piSkip 0 5,
      .declarePubInput 16, .declarePubInput 0, .declarePubInput 0, .declarePubInput 0,
      .declarePubInput 17, .piSkip 0 5,
      .declarePubInput 25, .piSkip 0 1]

/-- `cancel.zkir`. -/
def cancelIr : Program where
  numInputs := 0
  instructions :=
    [.loadImm [0x01], .loadImm [0x30], .declarePubInput 1, .piSkip 0 1,
      .loadImm [0x50], .declarePubInput 2, .declarePubInput 0, .declarePubInput 0,
      .declarePubInput 0, .piSkip 0 4,
      .publicInput none, .publicInput none, .loadImm [0x20], .loadImm [0x0c], .declarePubInput 6,
      .declarePubInput 0, .declarePubInput 5, .declarePubInput 3, .declarePubInput 4, .piSkip 0 5,
      .privateInput none, .constrainBits 7 8, .privateInput none, .constrainBits 8 248,
      .loadImm [0x00],
      .loadImm [0x73, 0x65, 0x61, 0x6c, 0x65, 0x64, 0x62, 0x69, 0x64, 0x3a, 0x61, 0x75,
        0x63, 0x74, 0x69, 0x6f, 0x6e, 0x65, 0x65, 0x72, 0x3a, 0x76, 0x31],
      .persistentHash [32, 32] [9, 10, 7, 8],
      .testEq 3 11, .testEq 4 12, .condSelect 13 14 9, .assert 15,
      .declarePubInput 1, .piSkip 0 1,
      .declarePubInput 2, .declarePubInput 0, .declarePubInput 0, .declarePubInput 9, .piSkip 0 4,
      .publicInput none, .declarePubInput 6, .declarePubInput 0, .declarePubInput 0,
      .declarePubInput 16, .piSkip 0 4,
      .testEq 16 9, .condSelect 17 9 0, .condSelect 18 1 9, .declarePubInput 19, .piSkip 18 1,
      .condSelect 18 2 9, .declarePubInput 20, .declarePubInput 18, .declarePubInput 18,
      .condSelect 18 9 9, .declarePubInput 21, .piSkip 18 4,
      .publicInput (some 18), .condSelect 18 6 9, .declarePubInput 23, .declarePubInput 18,
      .declarePubInput 18, .condSelect 18 22 9, .declarePubInput 24, .piSkip 18 4,
      .testEq 22 0, .condSelect 17 0 25, .assert 26,
      .declarePubInput 1, .piSkip 0 1,
      .declarePubInput 2, .declarePubInput 0, .declarePubInput 0, .declarePubInput 6, .piSkip 0 4,
      .publicInput none, .loadImm [0x08], .loadImm [0x0d], .declarePubInput 29,
      .declarePubInput 0, .declarePubInput 28, .declarePubInput 27, .piSkip 0 4,
      .testEq 27 9, .assert 30,
      .loadImm [0x03], .loadImm [0x10], .declarePubInput 32, .declarePubInput 0,
      .declarePubInput 0, .declarePubInput 0, .declarePubInput 9, .piSkip 0 5,
      .loadImm [0x11], .declarePubInput 33, .declarePubInput 0, .declarePubInput 0,
      .declarePubInput 0, .declarePubInput 31, .piSkip 0 5,
      .loadImm [0x91], .declarePubInput 34, .piSkip 0 1]

/-- The entry points of the contract. -/
inductive EntryPoint
  | placeBid
  | closeBidding
  | revealBid
  | finalize
  | cancel
  deriving DecidableEq

/-- The entry point of a call. -/
def entryPoint : SealedBid.Circuit → EntryPoint
  | .placeBid _ => .placeBid
  | .closeBidding => .closeBidding
  | .revealBid _ _ => .revealBid
  | .finalize => .finalize
  | .cancel => .cancel

/-- The program of an entry point. -/
def EntryPoint.program : EntryPoint → Program
  | .placeBid => placeBidIr
  | .closeBidding => closeBiddingIr
  | .revealBid => revealBidIr
  | .finalize => finalizeIr
  | .cancel => cancelIr

/-! ### Proofs -/

variable (persistentHash)

/-- A proof system, with what the contract relies on. -/
structure ProofSystem where
  Proof : Type
  /-- A proof of a program verifies against public inputs. -/
  Verifies : Program → List ℕ → Proof → Prop
  sound : ∀ {program publicInputs proof}, Verifies program publicInputs proof →
    ∃ wires, Satisfied persistentHash wires program.numInputs program.instructions ∧
      declared wires program.instructions = publicInputs
  complete : ∀ {program wires}, (∀ wire, wires wire < 2 ^ 248) →
    Executed persistentHash wires program.numInputs program.instructions →
      ∃ proof, Verifies program (declared wires program.instructions) proof

/-- The proof system whose proofs are the wires. -/
def referenceProofs : ProofSystem persistentHash where
  Proof := Wires
  Verifies program publicInputs wires :=
    Executed persistentHash wires program.numInputs program.instructions ∧
      declared wires program.instructions = publicInputs
  sound h := ⟨_, h.1.satisfied, h.2⟩
  complete _ h := ⟨_, h, rfl⟩

end SealedBid.Compiled
