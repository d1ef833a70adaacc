import Mathlib
import SealedBid.Auction.LedgerConsistency
import SealedBid.Auction.Lifecycle
import SealedBid.Client.Config
import SealedBid.Client.Deploy

/-!
# Verification of a deployment

`verifySealedBid` of `verify.ts` compares the ledger that the indexer reports for a contract address
with the record that the deployment wrote: three terms by their decimal rendering, and the phase,
the bid counter and the winner with their values in a fresh auction. It looks at six of the fourteen
cells. On a reachable ledger that is enough: the checks pass exactly when the terms are the recorded
ones and no call has succeeded since the constructor (`verified_iff`), because the first successful
call of any run is a bid, which counts, or a change of the phase.

Scope. The indexer is the argument `state`, the ledger of the recorded address if there is one. Of
the deployment record only the fields that the verification reads are kept.
-/

set_option autoImplicit false
set_option relaxedAutoImplicit false

namespace SealedBid

open FailSafeRun

/-- The constructor arguments of a deployment record, in decimal. -/
structure ConstructorArgs where
  reservePrice : String
  bidDeadline : String
  revealDeadline : String
  deriving DecidableEq

/-- The verifiable deployment record. -/
structure DeploymentRecord where
  contractAddress : String
  constructorArgs : ConstructorArgs
  deriving DecidableEq

/-- The constructor arguments that the deployment writes into its record. -/
def recordedArgs (params : AuctionParameters) : ConstructorArgs where
  reservePrice := toString params.reservePrice
  bidDeadline := toString params.bidDeadline
  revealDeadline := toString params.revealDeadline

structure VerificationCheck where
  name : String
  ok : Bool
  detail : String
  deriving DecidableEq

structure VerificationResult where
  verified : Bool
  contractAddress : String
  network : String
  indexer : String
  checks : List VerificationCheck
  deriving DecidableEq

/-- `Phase[phase]`: the name of a phase in the contract. -/
def Phase.name : Phase → String
  | .bidding => "BIDDING"
  | .reveal => "REVEAL"
  | .finalized => "FINALIZED"
  | .cancelled => "CANCELLED"

/-- The checks on the ledger of the recorded address. -/
def ledgerChecks (record : DeploymentRecord) (l : Ledger) : List VerificationCheck := [
  { name := "constructor reserve price matches the deployment record"
    ok := toString l.reservePrice.val = record.constructorArgs.reservePrice
    detail := "on-chain=" ++ toString l.reservePrice.val ++ " record=" ++
      record.constructorArgs.reservePrice },
  { name := "constructor bid deadline matches the deployment record"
    ok := toString l.bidDeadline.val = record.constructorArgs.bidDeadline
    detail := "on-chain=" ++ toString l.bidDeadline.val ++ " record=" ++
      record.constructorArgs.bidDeadline },
  { name := "constructor reveal deadline matches the deployment record"
    ok := toString l.revealDeadline.val = record.constructorArgs.revealDeadline
    detail := "on-chain=" ++ toString l.revealDeadline.val ++ " record=" ++
      record.constructorArgs.revealDeadline },
  { name := "contract is freshly deployed in the BIDDING phase"
    ok := l.phase = .bidding
    detail := "phase=" ++ l.phase.name },
  { name := "no sealed bids recorded yet"
    ok := l.bidCount = 0
    detail := "bidCount=" ++ toString l.bidCount },
  { name := "no winner declared yet"
    ok := l.winner.isSome = false
    detail := "winner.is_some=" ++ toString l.winner.isSome }]

/-- Verify a deployment record against the state that the indexer reports for its address. -/
def verifySealedBid (config : NetworkConfig) (record : DeploymentRecord) (state : Option Ledger) :
    VerificationResult :=
  let checks :=
    { name := "contract state is retrievable from the indexer"
      ok := state.isSome
      detail := toString state.isSome } ::
    match state with
    | some l => ledgerChecks record l
    | none => []
  { verified := checks.all fun c ↦ c.ok
    contractAddress := record.contractAddress
    network := config.name.toString
    indexer := config.indexer
    checks := checks }

/-- The decimal rendering of a cell is that of an integer exactly when they are equal. -/
theorem toString_eq_iff (x : Uint64) (y : ℤ) : toString x.val = toString y ↔ (x.val : ℤ) = y :=
  Int.repr_inj (a := x.val)

/-- A ledger is verified when it has the recorded terms and looks fresh. -/
theorem verified_some_iff (config : NetworkConfig) (record : DeploymentRecord)
    (params : AuctionParameters) (hargs : record.constructorArgs = recordedArgs params)
    (l : Ledger) :
    (verifySealedBid config record (some l)).verified = true ↔
      ((l.reservePrice.val : ℤ) = params.reservePrice ∧
        (l.bidDeadline.val : ℤ) = params.bidDeadline ∧
        (l.revealDeadline.val : ℤ) = params.revealDeadline) ∧
        l.phase = .bidding ∧ l.bidCount = 0 ∧ l.winner = none := by
  simp only [verifySealedBid, ledgerChecks, hargs, recordedArgs, List.all_cons, List.all_nil,
    Option.isSome_some, Bool.true_and, Bool.and_true, Bool.and_eq_true, decide_eq_true_eq,
    toString_eq_iff, Option.isSome_eq_false_iff, Option.isNone_iff_eq_none, and_assoc]

/-- A missing contract state is never verified. -/
theorem not_verified_none (config : NetworkConfig) (record : DeploymentRecord) :
    (verifySealedBid config record none).verified = false :=
  rfl

section Runs

variable {persistentHash : PersistentHash} {sk : Bytes32} {reserve bidEnd revealEnd : Uint64}
  {initial : Ledger}

/-- While bids are collected, a successful call places a bid or ends the bidding. -/
theorem bidCount_pos_of_exec {ledger next : Ledger} {call : Call}
    (hok : exec persistentHash call ledger = .ok next) (hphase : ledger.phase = .bidding)
    (hstill : next.phase = .bidding) : 0 < next.bidCount := by
  obtain ⟨caller, circuit⟩ := call
  cases circuit with
  | placeBid sealedBid =>
    obtain ⟨_, _, _, rfl⟩ := placeBid_eq_ok_iff.mp hok
    exact Nat.succ_pos _
  | closeBidding =>
    obtain ⟨_, _, rfl⟩ := closeBidding_eq_ok_iff.mp hok
    cases hstill
  | revealBid amount nonce =>
    have hreveal := (revealBid_eq_ok_iff.mp hok).1
    rw [hphase] at hreveal
    cases hreveal
  | finalize =>
    have hreveal := (finalize_eq_ok_iff.mp hok).1
    rw [hphase] at hreveal
    cases hreveal
  | cancel =>
    obtain ⟨_, _, _, rfl⟩ := cancel_eq_ok_iff.mp hok
    cases hstill

/-- No call has succeeded in a run that ends in the bidding phase without a bid. -/
theorem successes_eq_nil_of_fresh {ledger : Ledger} {calls : List Call}
    (hphase : (run (exec persistentHash) ledger calls).phase = .bidding)
    (hcount : (run (exec persistentHash) ledger calls).bidCount = 0) :
    successes (exec persistentHash) ledger calls = [] := by
  refine List.eq_nil_iff_forall_not_mem.mpr fun call hmem ↦ ?_
  obtain ⟨before, after, rfl, hsucceeds⟩ := mem_successes_iff.mp hmem
  rw [run_append, run_cons] at hphase hcount
  set middle := run (exec persistentHash) ledger before
  set next := step (exec persistentHash) middle call
  -- the bidding never starts again, so it was open on both sides of the call
  have hnext : next.phase = .bidding := by
    by_contra hleft
    exact phase_ne_bidding_of_run hleft after hphase
  have hmiddle : middle.phase = .bidding := by
    by_contra hleft
    exact phase_ne_bidding_of_run hleft [call] hnext
  have hpos := bidCount_pos_of_exec hsucceeds.exec_eq hmiddle hnext
  have hextends : Extends next (run (exec persistentHash) next after) := run_extends next after
  have hzero : next.bidCount ≤ 0 := hextends.bidCount_le.trans (le_of_eq hcount)
  exact absurd hpos (not_lt.mpr hzero)

/-- What the verification establishes. Assumes: an accepted constructor call, and a record whose
arguments are the decimal renderings that the deployment writes. On every reachable ledger the
checks pass exactly when the recorded terms are those of the constructor and no call has succeeded
since, and then, and only then, the ledger is the one of the constructor in every cell. A missing
contract state is never verified. -/
theorem verified_iff
    (h : constructor persistentHash sk reserve bidEnd revealEnd = .ok initial)
    (config : NetworkConfig) {record : DeploymentRecord} {params : AuctionParameters}
    (hargs : record.constructorArgs = recordedArgs params) (calls : List Call) :
    let ledger := run (exec persistentHash) initial calls
    let terms : AuctionParameters := ⟨reserve.val, bidEnd.val, revealEnd.val⟩
    ((verifySealedBid config record (some ledger)).verified = true ↔
      terms = params ∧ successes (exec persistentHash) initial calls = []) ∧
    (successes (exec persistentHash) initial calls = [] ↔ ledger = initial) ∧
    (verifySealedBid config record none).verified = false := by
  intro ledger terms
  have hterms : ledger.reservePrice = reserve ∧ ledger.bidDeadline = bidEnd ∧
      ledger.revealDeadline = revealEnd := by
    have hextends : Extends initial ledger := run_extends initial calls
    obtain ⟨_, _, rfl⟩ := constructor_eq_ok_iff.mp h
    exact ⟨hextends.reservePrice_eq, hextends.bidDeadline_eq, hextends.revealDeadline_eq⟩
  have hinitial : initial.phase = .bidding ∧ initial.bidCount = 0 ∧ initial.winner = none := by
    obtain ⟨_, _, rfl⟩ := constructor_eq_ok_iff.mp h
    exact ⟨rfl, rfl, rfl⟩
  have hunchanged : successes (exec persistentHash) initial calls = [] ↔ ledger = initial := by
    constructor
    · exact run_of_successes_eq_nil
    · intro hsame
      refine successes_eq_nil_of_fresh ?_ ?_
      · show ledger.phase = .bidding
        rw [hsame, hinitial.1]
      · show ledger.bidCount = 0
        rw [hsame, hinitial.2.1]
  refine ⟨?_, hunchanged, not_verified_none config record⟩
  rw [verified_some_iff config record params hargs, hterms.1, hterms.2.1, hterms.2.2]
  constructor
  · rintro ⟨⟨hreserve, hbidEnd, hrevealEnd⟩, hphase, hcount, _⟩
    refine ⟨?_, successes_eq_nil_of_fresh hphase hcount⟩
    show AuctionParameters.mk _ _ _ = params
    rw [hreserve, hbidEnd, hrevealEnd]
  · rintro ⟨rfl, hnone⟩
    rw [hunchanged.mp hnone]
    exact ⟨⟨rfl, rfl, rfl⟩, hinitial⟩

/-- The harness auction is verified after a call that failed, and no longer after a bid. -/
theorem verified_iff_harness :
    let verified := fun calls ↦ (verifySealedBid localConfig
      ⟨"contract", recordedArgs ⟨100, 1000, 2000⟩⟩
      (some (run (exec sampleHash) harnessLedger calls))).verified
    verified [finalizeCall 9] = true ∧ verified [finalizeCall 9, commitCall 1 150] ≠ true := by
  intro verified
  constructor
  · exact (verified_iff harnessLedger_eq localConfig rfl [finalizeCall 9]).1.mpr
      ⟨rfl, by decide +kernel⟩
  · intro hverified
    have hnone := ((verified_iff harnessLedger_eq localConfig rfl
      [finalizeCall 9, commitCall 1 150]).1.mp hverified).2
    exact absurd hnone (by decide +kernel)

end Runs

end SealedBid
