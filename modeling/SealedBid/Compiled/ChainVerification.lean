import SealedBid.Client.Verify
import SealedBid.Compiled.LedgerView
import SealedBid.Compiled.Node

/-!
# Verification of a deployment on the chain

`verifySealedBid` of `verify.ts` does not see a ledger. It has the contract state that the indexer
returns and reads it through the view of the compiled contract, every getter once for the comparison
and once for the text of the check (`verifyOnChain`). On the state array of a ledger it is the
verification of that ledger (`verifyOnChain_encode`).

After any transactions that a node accepted since the deployment, the verification goes through and
passes exactly when the recorded terms are those of the constructor and there was no transaction
(`verification_of_accepted`).

Scope. The query to the indexer is the argument `state`.
-/

set_option autoImplicit false
set_option relaxedAutoImplicit false

namespace SealedBid.Compiled

open RecordedPrograms FailSafeRun

/-- A check on a getter: it is read for the comparison and again for the detail. -/
def pushCheck {α : Type} (name : String) (getter : CircuitM α) (ok : α → Bool)
    (detail : α → String) : CircuitM VerificationCheck := do
  let compared ← getter
  let shown ← getter
  return { name := name, ok := ok compared, detail := detail shown }

/-- The checks on the view of the contract state. -/
def viewChecks (record : DeploymentRecord) (l : LedgerView) :
    CircuitM (List VerificationCheck) := do
  let reservePrice ← pushCheck "constructor reserve price matches the deployment record"
    l.reservePrice (fun value ↦ toString value.val = record.constructorArgs.reservePrice)
    (fun value ↦ "on-chain=" ++ toString value.val ++ " record=" ++
      record.constructorArgs.reservePrice)
  let bidDeadline ← pushCheck "constructor bid deadline matches the deployment record"
    l.bidDeadline (fun value ↦ toString value.val = record.constructorArgs.bidDeadline)
    (fun value ↦ "on-chain=" ++ toString value.val ++ " record=" ++
      record.constructorArgs.bidDeadline)
  let revealDeadline ← pushCheck "constructor reveal deadline matches the deployment record"
    l.revealDeadline (fun value ↦ toString value.val = record.constructorArgs.revealDeadline)
    (fun value ↦ "on-chain=" ++ toString value.val ++ " record=" ++
      record.constructorArgs.revealDeadline)
  let phase ← pushCheck "contract is freshly deployed in the BIDDING phase"
    l.phase (fun value ↦ value = .bidding) (fun value ↦ "phase=" ++ value.name)
  let bidCount ← pushCheck "no sealed bids recorded yet"
    l.bidCount (fun value ↦ value = 0) (fun value ↦ "bidCount=" ++ toString value.val)
  let winner ← pushCheck "no winner declared yet"
    l.winner (fun value ↦ value.isSome = false)
    (fun value ↦ "winner.is_some=" ++ toString value.isSome)
  return [reservePrice, bidDeadline, revealDeadline, phase, bidCount, winner]

/-- `verifySealedBid` on the contract state that the indexer reports for the recorded address. -/
def verifyOnChain (vm : LedgerVm) (config : NetworkConfig) (record : DeploymentRecord)
    (state : Option StateValue) : Except String VerificationResult := do
  let ledgerChecks ←
    match state with
    | some data => ask (viewChecks record (ledgerView vm)) data
    | none => .ok []
  let checks :=
    { name := "contract state is retrievable from the indexer"
      ok := state.isSome
      detail := toString state.isSome } :: ledgerChecks
  return {
    verified := checks.all fun c ↦ c.ok
    contractAddress := record.contractAddress
    network := config.name.toString
    indexer := config.indexer
    checks := checks }

theorem reads_pushCheck {α : Type} {name : String} {getter : CircuitM α} {ok : α → Bool}
    {detail : α → String} {state : StateValue} {value : α} (h : Reads getter state value) :
    Reads (pushCheck name getter ok detail) state
      { name := name, ok := ok value, detail := detail value } :=
  h.bind (h.bind (Reads.pure _ _))

/-- The checks on the view of the state array of a ledger are those on the ledger. -/
theorem reads_viewChecks (vm : LedgerVm) (record : DeploymentRecord) {ledger : Ledger}
    (hfits : Fits ledger) :
    Reads (viewChecks record (ledgerView vm)) (encode ledger) (ledgerChecks record ledger) := by
  have hshows := @ledgerView_shows vm ledger hfits
  have hcount := val_ofNat hfits.bidCount_lt
  have hzero : Fin.ofNat 18446744073709551616 ledger.bidCount = 0 ↔ ledger.bidCount = 0 := by
    rw [Fin.ext_iff, ← hcount]
    rfl
  have hwinner : (encodeWinner ledger.winner).isSome = ledger.winner.isSome := by
    cases ledger.winner <;> rfl
  unfold viewChecks
  refine (reads_pushCheck hshows.reservePrice).bind ?_
  refine (reads_pushCheck hshows.bidDeadline).bind ?_
  refine (reads_pushCheck hshows.revealDeadline).bind ?_
  refine (reads_pushCheck hshows.phase).bind ?_
  refine (reads_pushCheck hshows.bidCount).bind ?_
  refine (reads_pushCheck hshows.winner).bind ?_
  rw [ledgerChecks]
  simp only [hzero, hwinner, ← hcount]
  exact Reads.pure _ _

/-- The verification of the state array of a ledger is that of the ledger. -/
theorem verifyOnChain_encode (vm : LedgerVm) (config : NetworkConfig) (record : DeploymentRecord)
    {ledger : Ledger} (hfits : Fits ledger) :
    verifyOnChain vm config record (some (encode ledger)) =
      .ok (verifySealedBid config record (some ledger)) := by
  rw [verifyOnChain]
  simp only [ask_of_reads (reads_viewChecks vm record hfits), ok_bind]
  rfl

variable {persistentHash : PersistentHash} {sk : Bytes32} {reserve bidEnd revealEnd : Uint64}
  {initial : Ledger}

/-- A ledger to which calls led one after the other looks freshly constructed only when there were
no calls. -/
theorem calls_eq_nil_of_fresh {ledger last : Ledger} {calls : List Call}
    (hrun : runAll (exec persistentHash) ledger calls = .ok last) (hphase : last.phase = .bidding)
    (hcount : last.bidCount = 0) : calls = [] := by
  obtain ⟨hsuccesses, rfl⟩ := runAll_eq_ok_iff.mp hrun
  rw [← hsuccesses]
  exact successes_eq_nil_of_fresh hphase hcount

/-- **The verification recognises an untouched deployment.** After any transactions that a node
accepted since the constructor, the verification of the contract state does not throw, and it passes
exactly when the recorded terms are those of the constructor and no transaction was accepted.
Assumes: fewer than `2^64 - 1` transactions, and a record whose arguments are the decimal renderings
that the deployment writes. -/
theorem verification_of_accepted (vm : LedgerVm) (undeclared : UndeclaredFields)
    (proofs : ProofSystem persistentHash)
    (hcreate : constructor persistentHash sk reserve bidEnd revealEnd = .ok initial)
    (config : NetworkConfig) {record : DeploymentRecord} {params : AuctionParameters}
    (hargs : record.constructorArgs = recordedArgs params)
    {transactions : List (Transaction proofs)}
    (hlength : transactions.length < 18446744073709551615) {state : StateValue}
    (hpath : Path (Accepts vm undeclared proofs) transactions (encode initial) state) :
    ∃ result, verifyOnChain vm config record (some state) = .ok result ∧
      (result.verified = true ↔
        (⟨reserve.val, bidEnd.val, revealEnd.val⟩ : AuctionParameters) = params ∧
          transactions = []) := by
  have hroom : Room transactions.length initial := room_of_constructor hcreate (by omega)
  obtain ⟨calls, last, hcalls, hrun, rfl⟩ := calls_of_accepted hroom hpath
  have hcount : calls.length = transactions.length := by
    simpa using congrArg List.length hcalls
  obtain ⟨-, hlast⟩ := runAll_eq_ok_iff.mp hrun
  have hfits : Fits last := hlast ▸ fits_of_run hcreate calls (by omega)
  refine ⟨_, verifyOnChain_encode vm config record hfits, ?_⟩
  have hterms : last.reservePrice = reserve ∧ last.bidDeadline = bidEnd ∧
      last.revealDeadline = revealEnd := by
    have hextends : Extends initial last := hlast ▸ run_extends initial calls
    obtain ⟨-, -, rfl⟩ := constructor_eq_ok_iff.mp hcreate
    exact ⟨hextends.reservePrice_eq, hextends.bidDeadline_eq, hextends.revealDeadline_eq⟩
  rw [verified_some_iff config record params hargs, hterms.1, hterms.2.1, hterms.2.2]
  constructor
  · rintro ⟨⟨hreserve, hbidEnd, hrevealEnd⟩, hphase, hbids, -⟩
    have hnone := calls_eq_nil_of_fresh hrun hphase hbids
    refine ⟨?_, ?_⟩
    · rw [hreserve, hbidEnd, hrevealEnd]
    · rw [hnone, List.length_nil] at hcount
      exact List.length_eq_zero_iff.mp hcount.symm
  · rintro ⟨rfl, rfl⟩
    have hnone : calls = [] := List.length_eq_zero_iff.mp hcount
    subst hnone
    cases hrun
    obtain ⟨-, -, rfl⟩ := constructor_eq_ok_iff.mp hcreate
    exact ⟨⟨rfl, rfl, rfl⟩, rfl, rfl, rfl⟩

/-- One accepted bid, and the harness auction is not verified any more. -/
theorem verification_of_accepted_harness :
    ∃ (transaction : Transaction (referenceProofs sampleHash)) (state : StateValue)
      (result : VerificationResult),
      Accepts referenceVm sampleUndeclared (referenceProofs sampleHash) transaction
          (encode harnessLedger) state ∧
        verifyOnChain referenceVm localConfig ⟨"contract", recordedArgs ⟨100, 1000, 2000⟩⟩
          (some state) = .ok result ∧
        result.verified = false := by
  obtain ⟨next, hcall⟩ : Succeeds (exec sampleHash) harnessLedger (commitCall 0xb0 150) := by
    decide +kernel
  obtain ⟨transaction, -, haccepts⟩ := @accepts_of_exec referenceVm sampleHash sampleUndeclared
    (referenceProofs sampleHash) _ _ _ (by decide +kernel) hcall
  have hlength : [transaction].length < 18446744073709551615 := by simp
  obtain ⟨result, hresult, hverified⟩ := verification_of_accepted referenceVm sampleUndeclared
    (referenceProofs sampleHash) harnessLedger_eq localConfig
    (@rfl _ (DeploymentRecord.mk "contract" (recordedArgs ⟨100, 1000, 2000⟩)).constructorArgs)
    hlength ⟨_, haccepts, rfl⟩
  refine ⟨transaction, _, result, haccepts, hresult, ?_⟩
  rw [← Bool.not_eq_true, hverified]
  exact fun hfresh ↦ nomatch hfresh.2

end SealedBid.Compiled
