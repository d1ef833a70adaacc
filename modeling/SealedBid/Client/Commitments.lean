import SealedBid.Client.CompiledContract

/-!
# The client side of the commitment scheme

The helpers of `commitments.ts` that application code seals a bid with. `sealBid` draws a nonce and
returns everything that is needed to open the bid later; the nonce is an argument here. It throws
outside `Uint<64>` and otherwise returns the commitment that the circuit recomputes
(`sealBid_val`).
-/

set_option autoImplicit false
set_option relaxedAutoImplicit false

namespace SealedBid

open FailSafeRun

/-- Everything needed to open a sealed bid later. -/
structure SealedOpening where
  amount : ℤ
  nonce : Bytes32
  bidderId : Bytes32
  commitment : Bytes32
  deriving DecidableEq

/-- 32 zero bytes; a convenient, obviously-not-secret placeholder key. -/
def zeroKey : Bytes32 := Vector.replicate 32 0

variable (persistentHash : PersistentHash)

/-- Seal a bid, with the nonce that `randomNonce` drew. -/
def sealBid (randomNonce : Bytes32) (amount : ℤ) (secretKey : Bytes32) :
    Except CompactError SealedOpening := do
  let nonce := randomNonce
  let bidderId := deriveBidderId persistentHash secretKey
  let commitment ← PureCircuits.computeCommitment persistentHash amount nonce bidderId
  return { amount, nonce, bidderId, commitment }

/-- In the range of the contract a sealed bid is the commitment of its own amount and nonce. -/
theorem sealBid_val (nonce : Bytes32) (amount : Uint64) (secretKey : Bytes32) :
    sealBid persistentHash nonce amount.val secretKey = .ok {
      amount := amount.val
      nonce := nonce
      bidderId := deriveBidderId persistentHash secretKey
      commitment := computeCommitmentFor persistentHash amount nonce secretKey } := by
  simp only [sealBid, PureCircuits.computeCommitment, checkUint64_val]
  rfl

/-- `sealBid` returns exactly for the amounts of the contract. -/
theorem sealBid_succeeds_iff (nonce : Bytes32) (amount : ℤ) (secretKey : Bytes32) :
    (∃ opening, sealBid persistentHash nonce amount secretKey = .ok opening) ↔
      0 ≤ amount ∧ amount ≤ 18446744073709551615 := by
  constructor
  · rintro ⟨opening, hok⟩
    simp only [sealBid, PureCircuits.computeCommitment, bind_eq_ok_iff,
      checkUint64_eq_ok_iff] at hok
    obtain ⟨_, ⟨value, hvalue, _⟩, _⟩ := hok
    have hrange := value.isLt
    omega
  · rintro ⟨hlow, hhigh⟩
    obtain ⟨value, rfl⟩ : ∃ value : Uint64, amount = value.val :=
      ⟨⟨amount.toNat, by omega⟩, by simp [hlow]⟩
    exact ⟨_, sealBid_val persistentHash nonce value secretKey⟩

end SealedBid
