import SealedBid.Contract.Circuits
import SealedBid.Foundation.FailSafeRun

/-!
# Calls of the contract and their runs

A call names a circuit with its arguments and the secret key that the caller's witness returns
(`Call`). `exec` executes it on a ledger; a failed call returns no ledger, so a run of the contract
is a `FailSafeRun` of `exec`. The ledgers reachable from a constructor call are the ends of these
runs, over any callers, in any order, with any arguments.

The last section is the auction of the test harness (`harness.ts`), over a hash that separates the
few inputs of its runs; the results of the later modules are instantiated there.
-/

set_option autoImplicit false
set_option relaxedAutoImplicit false

namespace SealedBid

open FailSafeRun

/-- A circuit with its arguments. -/
inductive Circuit
  | placeBid (sealedBid : Bytes32)
  | closeBidding
  | revealBid (amount : Uint64) (nonce : Bytes32)
  | finalize
  | cancel
  deriving DecidableEq

/-- A circuit call, with the secret key that the witness of the caller returns. -/
structure Call where
  secretKey : Bytes32
  circuit : Circuit
  deriving DecidableEq

variable (persistentHash : PersistentHash)

/-- One call executed on a ledger. -/
def exec (call : Call) (ledger : Ledger) : Except String Ledger :=
  match call.circuit with
  | .placeBid sealedBid => placeBid persistentHash call.secretKey sealedBid ledger
  | .closeBidding => closeBidding persistentHash call.secretKey ledger
  | .revealBid amount nonce => revealBid persistentHash call.secretKey amount nonce ledger
  | .finalize => finalize ledger
  | .cancel => cancel persistentHash call.secretKey ledger

/-- The bidder identity of the caller. -/
def Call.bidder (call : Call) : Bytes32 := deriveBidderId persistentHash call.secretKey

/-! ### The auction of the test harness -/

/-- A sample hash: every byte of the digest is a base-31 number of the bytes at its position. -/
def sampleHash : PersistentHash := fun inputs ↦
  Vector.ofFn fun i ↦
    UInt8.ofNat (inputs.foldl (fun seen input ↦ seen * 31 + (input.get i).toNat) 0)

/-- The deterministic secret of a test participant: 32 times the seed. -/
def key (seed : UInt8) : Bytes32 := Vector.replicate 32 seed

/-- The ledger of a harness auction with reserve 100 and deadlines 1000 and 2000. -/
def harnessLedger : Ledger where
  phase := .bidding
  auctioneer := deriveAuctioneerId sampleHash (key 0xa0)
  reservePrice := 100
  bidDeadline := 1000
  revealDeadline := 2000
  commitments := ∅
  bidderCommitment := ∅
  revealedCommitments := ∅
  highestBid := 0
  highestBidder := zeroBytes
  winner := none
  winningAmount := 0
  bidCount := 0
  validRevealCount := 0

theorem harnessLedger_eq :
    constructor sampleHash (key 0xa0) 100 1000 2000 = .ok harnessLedger :=
  rfl

/-- The participant of a seed commits to an amount. -/
def commitCall (seed : UInt8) (amount : Uint64) : Call where
  secretKey := key seed
  circuit := .placeBid (computeCommitmentFor sampleHash amount (key 0x5a) (key seed))

/-- The participant of a seed opens an amount. -/
def revealCall (seed : UInt8) (amount : Uint64) : Call where
  secretKey := key seed
  circuit := .revealBid amount (key 0x5a)

/-- The auctioneer closes the bidding. -/
def closeCall : Call where
  secretKey := key 0xa0
  circuit := .closeBidding

/-- The participant of a seed finalizes. -/
def finalizeCall (seed : UInt8) : Call where
  secretKey := key seed
  circuit := .finalize

end SealedBid
