import SealedBid.Auction.Lifecycle
import SealedBid.Compiled.Node

/-!
# No transaction is accepted twice

The state of the contract is all that keeps a transaction from being accepted again: a transaction
carries no number, and whoever has seen one may send it again, with its proof or with another one.

A transcript that was accepted is that of a call of the source (`exec_of_accepts`), and is accepted
later exactly when that call succeeds again (`applyTranscript_eq_ok_iff`), which no call does
(`not_succeeds_again`). So the accepted transcripts of a contract differ from each other, `noop`
instructions apart, and none of them is accepted after the last (`accepted_once`).

Scope. As for the node; the protection of the platform against repeated transactions is not modelled
and not needed.
-/

set_option autoImplicit false
set_option relaxedAutoImplicit false

namespace SealedBid.Compiled

open FailSafeRun

variable {vm : LedgerVm} {persistentHash : PersistentHash} {undeclared : UndeclaredFields}
  {proofs : ProofSystem persistentHash}

/-- A transcript without its `noop` instructions. -/
def withoutNoops (transcript : List Op) : List Op :=
  transcript.filter fun op ↦ op.padLength.isNone

/-- A node refuses a copy of a transcript that it accepted, whatever it accepted in between.
Assumes: the counters have room for the transactions. -/
theorem copy_refused {transaction : Transaction proofs} {between : List (Transaction proofs)}
    {ledger : Ledger} {next later : StateValue} (hroom : Room (between.length + 1 + 1) ledger)
    (haccepts : Accepts vm undeclared proofs transaction (encode ledger) next)
    (hpath : Path (Accepts vm undeclared proofs) between next later)
    {copy : List Op} (hcopy : withoutNoops copy = withoutNoops transaction.transcript)
    (state : StateValue) : applyTranscript vm copy later ≠ .ok state := by
  have hfirst : Room 1 ledger := hroom.mono (Nat.le_add_left 1 _)
  obtain ⟨call, last, -, hcall, htranscript, rfl⟩ := exec_of_accepts hfirst haccepts
  have hlast : Room (between.length + 1) last := by
    rw [← step_of_ok hcall]
    exact Room.step _ ledger call hroom
  obtain ⟨calls, final, hcalls, hrun, rfl⟩ :=
    calls_of_accepted (hlast.mono (Nat.le_succ _)) hpath
  have hfinal : Room 1 final := by
    have hlength : calls.length = between.length := by simpa using congrArg List.length hcalls
    rw [← (runAll_eq_ok_iff.mp hrun).2]
    exact (run_encode vm (by rwa [hlength, Nat.add_comm])).2
  intro happly
  -- the copy would be accepted as the transcript of the same call
  rw [← @applyTranscript_strip_iff vm undeclared] at happly
  rw [show (fieldCode undeclared).strip copy = transcript persistentHash call ledger from
    hcopy.trans htranscript] at happly
  obtain ⟨again, hagain, -⟩ := (applyTranscript_eq_ok_iff hfirst hfinal hcall).mp happly
  refine not_succeeds_again hcall calls ⟨again, ?_⟩
  rwa [(runAll_eq_ok_iff.mp hrun).2]

/-- **No transaction is accepted twice.** The transcripts that a node accepts one after the other,
without their `noop` instructions, differ from each other, and after the last of them the node
refuses a copy of any, whatever proof comes with it. Assumes: the counters have room for the
transactions and one more. -/
theorem accepted_once (vm : LedgerVm) (undeclared : UndeclaredFields)
    (proofs : ProofSystem persistentHash) {ledger : Ledger}
    {transactions : List (Transaction proofs)} (hroom : Room (transactions.length + 1) ledger)
    {final : StateValue}
    (hpath : Path (Accepts vm undeclared proofs) transactions (encode ledger) final) :
    (transactions.map fun transaction ↦ withoutNoops transaction.transcript).Nodup ∧
      ∀ transaction ∈ transactions, ∀ copy,
        withoutNoops copy = withoutNoops transaction.transcript →
          ∀ state, applyTranscript vm copy final ≠ .ok state := by
  induction transactions generalizing ledger with
  | nil => exact ⟨List.nodup_nil, fun _ hmem ↦ absurd hmem List.not_mem_nil⟩
  | cons transaction rest ih =>
    obtain ⟨next, haccepts, hrest⟩ := hpath
    obtain ⟨call, last, -, hcall, -, hnext⟩ :=
      exec_of_accepts (hroom.mono (Nat.le_add_left 1 _)) haccepts
    have hlast : Room (rest.length + 1) last := by
      rw [← step_of_ok hcall]
      exact Room.step _ ledger call hroom
    obtain ⟨hdistinct, hrefused⟩ := ih hlast (hnext ▸ hrest)
    refine ⟨List.nodup_cons.mpr ⟨fun hmem ↦ ?_, hdistinct⟩, ?_⟩
    · obtain ⟨other, hother, hsame⟩ := List.mem_map.mp hmem
      obtain ⟨between, after, rfl⟩ := List.append_of_mem hother
      obtain ⟨later, hbetween, reached, hagain, -⟩ := path_append_iff.mp hrest
      refine copy_refused (hroom.mono ?_) haccepts hbetween hsame reached hagain.2
      simp only [List.length_cons, List.length_append]
      omega
    · intro other hother copy hcopy
      rcases List.mem_cons.mp hother with rfl | hother
      · exact copy_refused hroom haccepts hrest hcopy
      · exact hrefused other hother copy hcopy

/-- The bids of two bidders of the test harness, accepted one after the other, have different
transcripts, and both are refused afterwards. -/
theorem accepted_once_harness :
    ∃ (first second : Transaction (referenceProofs sampleHash)) (final : StateValue),
      Path (Accepts referenceVm sampleUndeclared (referenceProofs sampleHash)) [first, second]
          (encode harnessLedger) final ∧
        withoutNoops first.transcript ≠ withoutNoops second.transcript ∧
        (∀ state, applyTranscript referenceVm first.transcript final ≠ .ok state) ∧
        ∀ state, applyTranscript referenceVm second.transcript final ≠ .ok state := by
  have hfirst : Succeeds (exec sampleHash) harnessLedger (commitCall 1 150) := by decide +kernel
  have hsecond : Succeeds (exec sampleHash)
      (step (exec sampleHash) harnessLedger (commitCall 1 150)) (commitCall 2 250) := by
    decide +kernel
  obtain ⟨first, -, haccepts⟩ := @accepts_of_exec referenceVm sampleHash sampleUndeclared
    (referenceProofs sampleHash) _ harnessLedger _ (by decide +kernel) hfirst.exec_eq
  obtain ⟨second, -, haccepts'⟩ := @accepts_of_exec referenceVm sampleHash sampleUndeclared
    (referenceProofs sampleHash) _ _ _ (by decide +kernel) hsecond.exec_eq
  have hpath : Path (Accepts referenceVm sampleUndeclared (referenceProofs sampleHash))
      [first, second] (encode harnessLedger) _ := ⟨_, haccepts, _, haccepts', rfl⟩
  have hroom : Room ([first, second].length + 1) harnessLedger :=
    show Room 3 harnessLedger by decide +kernel
  obtain ⟨hdistinct, hrefused⟩ :=
    accepted_once referenceVm sampleUndeclared (referenceProofs sampleHash) hroom hpath
  refine ⟨first, second, _, hpath, ?_, hrefused first (by simp) _ rfl,
    hrefused second (by simp) _ rfl⟩
  simpa using hdistinct

end SealedBid.Compiled
