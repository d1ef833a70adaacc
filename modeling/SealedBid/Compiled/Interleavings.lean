import SealedBid.Auction.Lifecycle
import SealedBid.Compiled.Replay
import SealedBid.Foundation.DelayedCalls

/-!
# Participants that prepare their calls at the same time

Every participant runs its calls on a state of the chain that it has seen, which may be an old one,
and sends the transcripts to the node, which applies them to the current state in the order of their
arrival, some never and some more than once. `transcriptCalls` is this system for the compiled
contract, with transcripts as the receipts.

Whatever the order, the state of the chain is that of the calls of the source whose transcripts were
applied, executed one after the other on current ledgers, and none of them twice
(`interleaved_calls`). So what is proved of the runs of the source holds of every interleaving. The
theorem also says which prepared calls the node would accept next: those that still succeed and of
which nothing that they read has changed since.

Scope. The order in which a node receives transcripts is arbitrary; fees are not modelled.
-/

set_option autoImplicit false
set_option relaxedAutoImplicit false

namespace SealedBid.Compiled

open FailSafeRun

variable (vm : LedgerVm) (persistentHash : PersistentHash)

/-- The compiled contract: a call is prepared by its entry point, with the secret key of the caller
in the private state, and applied by its transcript. -/
def transcriptCalls : DelayedCalls Ledger Call StateValue (List Op) String where
  exec := exec persistentHash
  image := encode
  receipt := transcript persistentHash
  prepare call state := (Compiled.call vm persistentHash call.circuit state ⟨call.secretKey⟩).map
    fun result ↦ result.proofData.publicTranscript
  apply := applyTranscript vm
  Room := Room
  room_mono := Room.mono
  room_step := Room.step
  prepare_image := by
    intro call ledger hroom
    rw [call_encode call hroom]
    cases exec persistentHash call ledger with
    | error message => rfl
    | ok next => rfl
  apply_image := applyTranscript_eq_ok_iff

/-- The chain of a deployed contract with what its participants have prepared. -/
abbrev ChainSite := DelayedCalls.Site Call StateValue (List Op)

/-- The chain after the participants and the node have acted. An action on a height or an index that
does not exist does nothing. -/
def chainAfter (state : StateValue) (actions : List (DelayedCalls.Action Call)) : ChainSite :=
  run ((transcriptCalls vm persistentHash).act "not found") (DelayedCalls.Site.start state) actions

variable {persistentHash}

/-- **Every interleaving is a sequence of calls of the source.** Participants prepare calls on any
states that the chain has had, and the node applies prepared transcripts in any order. The calls
whose transcripts were applied succeed one after the other from the first ledger and differ from
each other, and the state of the chain is the state array of the ledger to which they lead. A
prepared transcript is accepted next exactly when its call succeeds on that ledger and the calls
applied since its preparation left alone what it read, and then it leads to the state array of the
ledger to which the call leads afresh. Assumes: the counters have room for the actions. -/
theorem interleaved_calls (vm : LedgerVm) {initial : Ledger}
    {actions : List (DelayedCalls.Action Call)} (hroom : Room (1 + actions.length) initial) :
    let site := chainAfter vm persistentHash (encode initial) actions
    ∃ ledger, runAll (exec persistentHash) initial site.applied = .ok ledger ∧
      site.applied.Nodup ∧ site.current = encode ledger ∧
      ∀ prepared ∈ site.prepared, ∀ state,
        applyTranscript vm prepared.receipt site.current = .ok state ↔
          ∃ next, exec persistentHash prepared.call ledger = .ok next ∧
            SameReads prepared.call
              (run (exec persistentHash) initial (site.applied.take prepared.height)) ledger ∧
            state = encode next := by
  intro site
  obtain ⟨hexplained, hlength⟩ : (transcriptCalls vm persistentHash).Explained initial site ∧
      site.applied.length ≤ actions.length := DelayedCalls.run_explained "not found" hroom
  have hroom' : Room (1 + site.applied.length) initial := hroom.mono (by omega)
  have happlied : runAll (exec persistentHash) initial site.applied =
      .ok (run (exec persistentHash) initial site.applied) := hexplained.applied_ok
  refine ⟨_, happlied, ?_, hexplained.current_eq, fun prepared hprepared state ↦ ?_⟩
  · exact nodup_of_runAll (fun _ _ _ calls hok ↦ not_succeeds_again hok calls) happlied
  · obtain ⟨_, ⟨reached, hcall⟩, _⟩ := hexplained.prepared_ok prepared hprepared
    refine (hexplained.apply_iff hroom' hprepared).trans ?_
    -- the ledger on which the call was prepared is an earlier one
    have hfollows : Follows
        (run (exec persistentHash) initial (site.applied.take prepared.height))
        (run (exec persistentHash) initial site.applied) := by
      rw [← List.take_append_drop prepared.height site.applied, run_append,
        List.take_append_drop]
      exact follows_run _ _
    have hprepared : Room 1
        (run (exec persistentHash) initial (site.applied.take prepared.height)) :=
      (run_encode vm (hroom'.mono (by rw [List.length_take]; omega))).2
    have hcurrent : Room 1 (run (exec persistentHash) initial site.applied) :=
      (run_encode vm hroom').2
    refine exists_congr fun next ↦ and_congr_right fun hnext ↦ and_congr_left fun _ ↦ ?_
    exact transcript_eq_iff hprepared hcurrent hfollows hcall hnext

/-- Two bidders of the test harness prepare their bids on the constructed ledger, the first one
twice; all three transcripts are sent. -/
def harnessActions : List (DelayedCalls.Action Call) :=
  [.prepare (commitCall 0xb0 150) 0, .prepare (commitCall 0xb1 200) 0,
    .prepare (commitCall 0xb0 150) 0, .apply 1, .apply 0, .apply 2]

theorem interleaved_calls_harness :
    (chainAfter referenceVm sampleHash (encode harnessLedger) harnessActions).applied =
        [commitCall 0xb1 200, commitCall 0xb0 150] ∧
      (chainAfter referenceVm sampleHash (encode harnessLedger) harnessActions).current =
        encode (run (exec sampleHash) harnessLedger
          [commitCall 0xb1 200, commitCall 0xb0 150]) := by
  have happlied : (chainAfter referenceVm sampleHash (encode harnessLedger)
      harnessActions).applied = [commitCall 0xb1 200, commitCall 0xb0 150] := by decide +kernel
  obtain ⟨ledger, hrun, _, hcurrent, _⟩ := @interleaved_calls sampleHash referenceVm
    harnessLedger harnessActions (by decide +kernel)
  rw [happlied] at hrun
  refine ⟨happlied, ?_⟩
  rw [hcurrent, (runAll_eq_ok_iff.mp hrun).2]

end SealedBid.Compiled
