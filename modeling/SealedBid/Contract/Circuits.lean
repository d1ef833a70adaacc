import SealedBid.Contract.CompactTypes

/-!
# The ledger and the circuits of `sealed-bid.compact`

The 14 cells of the public ledger (`Ledger`), the identity derivations and the commitment, the
constructor, and the five circuits, each with its assertions in the order of the source and their
messages. A circuit takes the value that the witness `localSecretKey` returns to it, its arguments
and the ledger, and returns the next ledger or the message of the assertion that failed; a failed
circuit returns no ledger, so the ledger on chain stays as it was.

Every circuit has one lemma that says when it succeeds and what it then returns
(`placeBid_eq_ok_iff`, `closeBidding_eq_ok_iff`, `revealBid_eq_ok_iff`, `finalize_eq_ok_iff`,
`cancel_eq_ok_iff`); no later proof unfolds a circuit.

Scope. `disclose` marks what may become public and does not change a value, so it is left out; the
proof and the transaction that carries it are not modelled.
-/

set_option autoImplicit false
set_option relaxedAutoImplicit false

namespace SealedBid

/-- Lifecycle of an auction. -/
inductive Phase
  | bidding
  | reveal
  | finalized
  | cancelled
  deriving DecidableEq, Repr

/-- The public ledger. -/
@[ext] structure Ledger where
  phase : Phase
  auctioneer : Bytes32
  reservePrice : Uint64
  bidDeadline : Uint64
  revealDeadline : Uint64
  /-- commitment -> bidder identity -/
  commitments : BytesMap
  /-- bidder identity -> commitment -/
  bidderCommitment : BytesMap
  revealedCommitments : Finset Bytes32
  highestBid : Uint64
  highestBidder : Bytes32
  winner : Option Bytes32
  winningAmount : Uint64
  bidCount : ℕ
  validRevealCount : ℕ
  deriving DecidableEq

variable (persistentHash : PersistentHash)

/-! ### Identity derivations -/

/-- Domain-separated, pseudonymous bidder identity. -/
def deriveBidderId (sk : Bytes32) : Bytes32 :=
  persistentHash [pad 32 "sealedbid:bidder:v1", sk]

/-- Domain-separated auctioneer identity. -/
def deriveAuctioneerId (sk : Bytes32) : Bytes32 :=
  persistentHash [pad 32 "sealedbid:auctioneer:v1", sk]

/-- The sealed bid commitment, `H(domain, amount, nonce, bidderId)`. -/
def computeCommitment (amount : Uint64) (nonce bidderId : Bytes32) : Bytes32 :=
  persistentHash [pad 32 "sealedbid:commit:v1", asBytes amount, nonce, bidderId]

/-- Commit as the identity of a secret key. -/
def computeCommitmentFor (amount : Uint64) (nonce sk : Bytes32) : Bytes32 :=
  computeCommitment persistentHash amount nonce (deriveBidderId persistentHash sk)

/-! ### Constructor -/

/-- The constructor, on a ledger whose cells hold their default values. -/
def constructor (localSecretKey : Bytes32) (reservePrice bidDeadline revealDeadline : Uint64) :
    Except String Ledger := do
  assert (reservePrice > 0) "Reserve price must be greater than zero"
  assert (revealDeadline > bidDeadline) "Reveal deadline must be after the bidding deadline"
  return {
    phase := .bidding
    auctioneer := deriveAuctioneerId persistentHash localSecretKey
    reservePrice := reservePrice
    bidDeadline := bidDeadline
    revealDeadline := revealDeadline
    commitments := ∅
    bidderCommitment := ∅
    revealedCommitments := ∅
    highestBid := 0
    highestBidder := zeroBytes
    winner := none
    winningAmount := 0
    bidCount := 0
    validRevealCount := 0 }

/-! ### Circuits -/

/-- Submit a sealed bid. -/
def placeBid (localSecretKey sealedBid : Bytes32) (ledger : Ledger) : Except String Ledger := do
  assert (ledger.phase = .bidding) "Sealed bidding is not open"
  let bidder := deriveBidderId persistentHash localSecretKey
  let commitment := sealedBid
  assert (commitment ∉ ledger.commitments) "This sealed bid commitment was already registered"
  assert (bidder ∉ ledger.bidderCommitment) "This identity has already placed a sealed bid"
  return { ledger with
    commitments := ledger.commitments.insert commitment bidder
    bidderCommitment := ledger.bidderCommitment.insert bidder commitment
    bidCount := ledger.bidCount + 1 }

/-- Close the sealed-bidding window and open reveals. Auctioneer only. -/
def closeBidding (localSecretKey : Bytes32) (ledger : Ledger) : Except String Ledger := do
  assert (ledger.auctioneer = deriveAuctioneerId persistentHash localSecretKey)
    "Only the auctioneer can close the bidding"
  assert (ledger.phase = .bidding) "Sealed bidding is already closed"
  return { ledger with phase := .reveal }

/-- What `revealBid` writes once its assertions hold: the commitment is opened, and the amount
counts and may become the best bid when it meets the reserve. -/
def recordReveal (bidder commitment : Bytes32) (amount : Uint64) (ledger : Ledger) : Ledger :=
  let opened := { ledger with
    revealedCommitments := insert commitment ledger.revealedCommitments }
  let meetsReserve := amount ≥ opened.reservePrice
  let beatsCurrentBest := amount > opened.highestBid
  if meetsReserve then
    let counted := { opened with validRevealCount := opened.validRevealCount + 1 }
    if beatsCurrentBest then
      { counted with highestBid := amount, highestBidder := bidder }
    else counted
  else opened

/-- Open a sealed bid. -/
def revealBid (localSecretKey : Bytes32) (amount : Uint64) (nonce : Bytes32) (ledger : Ledger) :
    Except String Ledger := do
  assert (ledger.phase = .reveal) "Reveals are not open"
  let bidder := deriveBidderId persistentHash localSecretKey
  -- `lookup` is total after the membership assertion, so the two are one match here
  match ledger.bidderCommitment.lookup bidder with
  | none => .error "failed assert: This identity never placed a sealed bid"
  | some commitment =>
    assert (commitment ∉ ledger.revealedCommitments) "This sealed bid has already been revealed"
    let expected := computeCommitment persistentHash amount nonce bidder
    assert (expected = commitment) "Reveal does not match the sealed bid commitment"
    return recordReveal bidder commitment amount ledger

/-- Close the auction and record the winner. Permissionless. -/
def finalize (ledger : Ledger) : Except String Ledger := do
  assert (ledger.phase = .reveal) "Auction is not in the reveal phase"
  let settled :=
    if ledger.validRevealCount = 0 then { ledger with winner := none, winningAmount := 0 }
    else { ledger with winner := some ledger.highestBidder, winningAmount := ledger.highestBid }
  return { settled with phase := .finalized }

/-- Cancel an auction that has attracted no sealed bids. Auctioneer only. -/
def cancel (localSecretKey : Bytes32) (ledger : Ledger) : Except String Ledger := do
  assert (ledger.auctioneer = deriveAuctioneerId persistentHash localSecretKey)
    "Only the auctioneer can cancel this auction"
  assert (ledger.phase = .bidding ∨ ledger.phase = .reveal) "Auction has already concluded"
  assert (ledger.bidCount = 0) "Cannot cancel an auction that already has sealed bids"
  return { ledger with phase := .cancelled }

/-! ### When a circuit succeeds, and what it returns -/

variable {persistentHash}

/-- The cells that `revealBid` writes, each with its condition. -/
theorem recordReveal_eq (bidder commitment : Bytes32) (amount : Uint64) (ledger : Ledger) :
    recordReveal bidder commitment amount ledger = { ledger with
      revealedCommitments := insert commitment ledger.revealedCommitments
      validRevealCount :=
        if ledger.reservePrice ≤ amount then ledger.validRevealCount + 1
        else ledger.validRevealCount
      highestBid :=
        if ledger.reservePrice ≤ amount ∧ ledger.highestBid < amount then amount
        else ledger.highestBid
      highestBidder :=
        if ledger.reservePrice ≤ amount ∧ ledger.highestBid < amount then bidder
        else ledger.highestBidder } := by
  by_cases hreserve : ledger.reservePrice ≤ amount
  · by_cases hbest : ledger.highestBid < amount <;> simp [recordReveal, hreserve, hbest]
  · simp [recordReveal, hreserve]

theorem constructor_eq_ok_iff {sk : Bytes32} {reserve bidEnd revealEnd : Uint64}
    {ledger : Ledger} :
    constructor persistentHash sk reserve bidEnd revealEnd = .ok ledger ↔
      0 < reserve ∧ bidEnd < revealEnd ∧
        ledger = {
          phase := .bidding
          auctioneer := deriveAuctioneerId persistentHash sk
          reservePrice := reserve
          bidDeadline := bidEnd
          revealDeadline := revealEnd
          commitments := ∅
          bidderCommitment := ∅
          revealedCommitments := ∅
          highestBid := 0
          highestBidder := zeroBytes
          winner := none
          winningAmount := 0
          bidCount := 0
          validRevealCount := 0 } := by
  simp only [constructor, assert_bind_eq_ok, pure, Except.pure, Except.ok.injEq, gt_iff_lt]
  grind

theorem placeBid_eq_ok_iff {sk sealedBid : Bytes32} {ledger next : Ledger} :
    placeBid persistentHash sk sealedBid ledger = .ok next ↔
      ledger.phase = .bidding ∧ sealedBid ∉ ledger.commitments ∧
        deriveBidderId persistentHash sk ∉ ledger.bidderCommitment ∧
        next = { ledger with
          commitments := ledger.commitments.insert sealedBid (deriveBidderId persistentHash sk)
          bidderCommitment :=
            ledger.bidderCommitment.insert (deriveBidderId persistentHash sk) sealedBid
          bidCount := ledger.bidCount + 1 } := by
  simp only [placeBid, assert_bind_eq_ok, pure, Except.pure, Except.ok.injEq]
  exact and_congr_right' (and_congr_right' (and_congr_right' eq_comm))

theorem closeBidding_eq_ok_iff {sk : Bytes32} {ledger next : Ledger} :
    closeBidding persistentHash sk ledger = .ok next ↔
      ledger.auctioneer = deriveAuctioneerId persistentHash sk ∧ ledger.phase = .bidding ∧
        next = { ledger with phase := .reveal } := by
  simp only [closeBidding, assert_bind_eq_ok, pure, Except.pure, Except.ok.injEq]
  exact and_congr_right' (and_congr_right' eq_comm)

/-- The commitment opened by a successful `revealBid` is the one registered for the caller's
identity, it has not been opened before, and it is the commitment of the arguments. -/
theorem revealBid_eq_ok_iff {sk nonce : Bytes32} {amount : Uint64} {ledger next : Ledger} :
    revealBid persistentHash sk amount nonce ledger = .ok next ↔
      ledger.phase = .reveal ∧
        ledger.bidderCommitment.lookup (deriveBidderId persistentHash sk) =
          some (computeCommitment persistentHash amount nonce (deriveBidderId persistentHash sk)) ∧
        computeCommitment persistentHash amount nonce (deriveBidderId persistentHash sk) ∉
          ledger.revealedCommitments ∧
        next = recordReveal (deriveBidderId persistentHash sk)
          (computeCommitment persistentHash amount nonce (deriveBidderId persistentHash sk))
          amount ledger := by
  simp only [revealBid, assert_bind_eq_ok]
  refine and_congr_right' ?_
  cases ledger.bidderCommitment.lookup (deriveBidderId persistentHash sk) with
  | none => simp
  | some commitment =>
    simp only [assert_bind_eq_ok, pure, Except.pure, Except.ok.injEq, Option.some.injEq]
    constructor
    · rintro ⟨hfresh, rfl, hnext⟩
      exact ⟨rfl, hfresh, hnext.symm⟩
    · rintro ⟨rfl, hfresh, hnext⟩
      exact ⟨hfresh, rfl, hnext.symm⟩

theorem finalize_eq_ok_iff {ledger next : Ledger} :
    finalize ledger = .ok next ↔
      ledger.phase = .reveal ∧
        next = { ledger with
          phase := .finalized
          winner := if ledger.validRevealCount = 0 then none else some ledger.highestBidder
          winningAmount := if ledger.validRevealCount = 0 then 0 else ledger.highestBid } := by
  simp only [finalize, assert_bind_eq_ok, pure, Except.pure, Except.ok.injEq]
  refine and_congr_right' ?_
  rw [eq_comm]
  split_ifs <;> rfl

theorem cancel_eq_ok_iff {sk : Bytes32} {ledger next : Ledger} :
    cancel persistentHash sk ledger = .ok next ↔
      ledger.auctioneer = deriveAuctioneerId persistentHash sk ∧
        (ledger.phase = .bidding ∨ ledger.phase = .reveal) ∧ ledger.bidCount = 0 ∧
        next = { ledger with phase := .cancelled } := by
  simp only [cancel, assert_bind_eq_ok, pure, Except.pure, Except.ok.injEq]
  exact and_congr_right' (and_congr_right' (and_congr_right' eq_comm))

end SealedBid
