import SealedBid.Auction.LedgerRefinement

/-!
# The lifecycle of an auction

How a ledger changes along a run. The phase only moves forward (`Phase.Moves`, `exec_moves`); the
auctioneer and the terms never change, the two maps and the set of revealed commitments only grow,
and the best bid and the two counters never decrease (`Extends`, `exec_extends`, `run_extends`); a
concluded auction refuses every call (`not_succeeds_of_concluded`). The only protection of a
committed bid against `cancel` is a comparison with the bid counter: an auction with a sealed bid is
never cancelled because the counter is the number of sealed bids on every path
(`phase_ne_cancelled_of_placed`). `lifecycle_of_run` puts these together.
-/

set_option autoImplicit false
set_option relaxedAutoImplicit false

namespace SealedBid

open FailSafeRun AuctionRecord MapEnumeration

/-- The phase after a successful call: the same phase, or one transition of the lifecycle. -/
inductive Phase.Moves : Phase → Phase → Prop
  | stay (phase : Phase) : Moves phase phase
  | close : Moves .bidding .reveal
  | finalize : Moves .reveal .finalized
  | cancelBidding : Moves .bidding .cancelled
  | cancelReveal : Moves .reveal .cancelled

/-- What no later call takes back: the terms are the same, the maps and the set of revealed
commitments contain the earlier ones, and the best bid and the counters are at least as large. -/
structure Extends (first last : Ledger) : Prop where
  auctioneer_eq : last.auctioneer = first.auctioneer
  reservePrice_eq : last.reservePrice = first.reservePrice
  bidDeadline_eq : last.bidDeadline = first.bidDeadline
  revealDeadline_eq : last.revealDeadline = first.revealDeadline
  commitments : ∀ commitment bidder, first.commitments.lookup commitment = some bidder →
    last.commitments.lookup commitment = some bidder
  bidderCommitment : ∀ bidder commitment, first.bidderCommitment.lookup bidder = some commitment →
    last.bidderCommitment.lookup bidder = some commitment
  revealed : first.revealedCommitments ⊆ last.revealedCommitments
  highestBid_le : first.highestBid ≤ last.highestBid
  bidCount_le : first.bidCount ≤ last.bidCount
  validRevealCount_le : first.validRevealCount ≤ last.validRevealCount

theorem Extends.refl (ledger : Ledger) : Extends ledger ledger where
  auctioneer_eq := rfl
  reservePrice_eq := rfl
  bidDeadline_eq := rfl
  revealDeadline_eq := rfl
  commitments := fun _ _ h ↦ h
  bidderCommitment := fun _ _ h ↦ h
  revealed := Finset.Subset.refl _
  highestBid_le := le_rfl
  bidCount_le := le_rfl
  validRevealCount_le := le_rfl

theorem Extends.trans {first middle last : Ledger} (hfirst : Extends first middle)
    (hlast : Extends middle last) : Extends first last where
  auctioneer_eq := hlast.auctioneer_eq.trans hfirst.auctioneer_eq
  reservePrice_eq := hlast.reservePrice_eq.trans hfirst.reservePrice_eq
  bidDeadline_eq := hlast.bidDeadline_eq.trans hfirst.bidDeadline_eq
  revealDeadline_eq := hlast.revealDeadline_eq.trans hfirst.revealDeadline_eq
  commitments := fun c b h ↦ hlast.commitments c b (hfirst.commitments c b h)
  bidderCommitment := fun b c h ↦ hlast.bidderCommitment b c (hfirst.bidderCommitment b c h)
  revealed := hfirst.revealed.trans hlast.revealed
  highestBid_le := hfirst.highestBid_le.trans hlast.highestBid_le
  bidCount_le := hfirst.bidCount_le.trans hlast.bidCount_le
  validRevealCount_le := hfirst.validRevealCount_le.trans hlast.validRevealCount_le

section Steps

variable {persistentHash : PersistentHash} {call : Call} {ledger next : Ledger}

/-- Every successful call keeps the phase or makes one transition of the lifecycle. -/
theorem exec_moves (hok : exec persistentHash call ledger = .ok next) :
    ledger.phase.Moves next.phase := by
  obtain ⟨sk, circuit⟩ := call
  cases circuit with
  | placeBid sealedBid =>
    obtain ⟨_, _, _, rfl⟩ := placeBid_eq_ok_iff.mp hok
    exact .stay _
  | closeBidding =>
    obtain ⟨_, hphase, rfl⟩ := closeBidding_eq_ok_iff.mp hok
    rw [hphase]
    exact .close
  | revealBid amount nonce =>
    obtain ⟨_, _, _, rfl⟩ := revealBid_eq_ok_iff.mp hok
    rw [recordReveal_eq]
    exact .stay _
  | finalize =>
    obtain ⟨hphase, rfl⟩ := finalize_eq_ok_iff.mp hok
    rw [hphase]
    exact .finalize
  | cancel =>
    obtain ⟨_, hphase, _, rfl⟩ := cancel_eq_ok_iff.mp hok
    rcases hphase with hphase | hphase
    · rw [hphase]
      exact .cancelBidding
    · rw [hphase]
      exact .cancelReveal

/-- An insertion at a fresh key keeps the entries of a map. -/
theorem lookup_insert_of_fresh {m : BytesMap} {key other : Bytes32} {value found : Bytes32}
    (hfresh : key ∉ m) (hfound : m.lookup other = some found) :
    (m.insert key value).lookup other = some found := by
  refine (lookup_insert_eq_some_iff m key other value found).mpr (Or.inr ⟨?_, hfound⟩)
  rintro rfl
  exact hfresh (Finmap.mem_of_lookup_eq_some hfound)

/-- Every successful call extends the ledger. -/
theorem exec_extends (hok : exec persistentHash call ledger = .ok next) : Extends ledger next := by
  obtain ⟨sk, circuit⟩ := call
  cases circuit with
  | placeBid sealedBid =>
    obtain ⟨_, hcommitment, hbidder, rfl⟩ := placeBid_eq_ok_iff.mp hok
    exact { Extends.refl ledger with
      commitments := fun _ _ hfound ↦ lookup_insert_of_fresh hcommitment hfound
      bidderCommitment := fun _ _ hfound ↦ lookup_insert_of_fresh hbidder hfound
      bidCount_le := Nat.le_succ _ }
  | closeBidding =>
    obtain ⟨_, _, rfl⟩ := closeBidding_eq_ok_iff.mp hok
    exact { Extends.refl ledger with }
  | revealBid amount nonce =>
    obtain ⟨_, _, _, rfl⟩ := revealBid_eq_ok_iff.mp hok
    rw [recordReveal_eq]
    refine { Extends.refl ledger with
      revealed := Finset.subset_insert _ _
      highestBid_le := ?_
      validRevealCount_le := ?_ }
    · show ledger.highestBid ≤ if _ then amount else ledger.highestBid
      split_ifs with hbeats
      · exact hbeats.2.le
      · exact le_rfl
    · show ledger.validRevealCount ≤ if _ then ledger.validRevealCount + 1 else _
      split_ifs
      · exact Nat.le_succ _
      · exact le_rfl
  | finalize =>
    obtain ⟨_, rfl⟩ := finalize_eq_ok_iff.mp hok
    exact { Extends.refl ledger with }
  | cancel =>
    obtain ⟨_, _, _, rfl⟩ := cancel_eq_ok_iff.mp hok
    exact { Extends.refl ledger with }

/-- A concluded auction refuses every call, of every caller. -/
theorem not_succeeds_of_concluded (hphase : ledger.phase = .finalized ∨ ledger.phase = .cancelled)
    (call : Call) : ¬ Succeeds (exec persistentHash) ledger call := by
  rintro ⟨next, hok⟩
  obtain ⟨sk, circuit⟩ := call
  have hopen : ledger.phase = .bidding ∨ ledger.phase = .reveal := by
    cases circuit with
    | placeBid sealedBid => exact Or.inl (placeBid_eq_ok_iff.mp hok).1
    | closeBidding => exact Or.inl (closeBidding_eq_ok_iff.mp hok).2.1
    | revealBid amount nonce => exact Or.inr (revealBid_eq_ok_iff.mp hok).1
    | finalize => exact Or.inr (finalize_eq_ok_iff.mp hok).1
    | cancel => exact (cancel_eq_ok_iff.mp hok).2.1
  rcases hphase with hphase | hphase <;> rw [hphase] at hopen <;> simp at hopen

end Steps

/-! ### Runs -/

section Runs

variable {persistentHash : PersistentHash} {sk : Bytes32} {reserve bidEnd revealEnd : Uint64}
  {initial : Ledger}

/-- Every run extends the ledger it starts from. -/
theorem run_extends (ledger : Ledger) (calls : List Call) :
    Extends ledger (run (exec persistentHash) ledger calls) :=
  run_relation Extends Extends.refl (fun _ _ _ ↦ Extends.trans) (fun _ _ _ ↦ exec_extends)
    ledger calls

/-- The bidding never starts again. -/
theorem phase_ne_bidding_of_run {ledger : Ledger} (hphase : ledger.phase ≠ .bidding)
    (calls : List Call) : (run (exec persistentHash) ledger calls).phase ≠ .bidding := by
  refine run_invariant (fun ledger : Ledger ↦ ledger.phase ≠ .bidding) (fun _ ↦ True) ?_
    (fun _ _ ↦ trivial) hphase
  intro ledger call next _ hledger hok hnext
  have hmoves := exec_moves hok
  rw [hnext] at hmoves
  cases hphase : ledger.phase with
  | bidding => exact hledger hphase
  | reveal => rw [hphase] at hmoves; cases hmoves
  | finalized => rw [hphase] at hmoves; cases hmoves
  | cancelled => rw [hphase] at hmoves; cases hmoves

/-- A call that succeeded never succeeds again: its commitment is registered or revealed, or its
phase is over. -/
theorem not_succeeds_again {ledger next : Ledger} {call : Call}
    (hok : exec persistentHash call ledger = .ok next) (calls : List Call) :
    ¬ Succeeds (exec persistentHash) (run (exec persistentHash) next calls) call := by
  have hextends : Extends next (run (exec persistentHash) next calls) := run_extends next calls
  rintro ⟨again, hagain⟩
  obtain ⟨sk, circuit⟩ := call
  cases circuit with
  | placeBid sealedBid =>
    obtain ⟨_, _, _, rfl⟩ := placeBid_eq_ok_iff.mp hok
    obtain ⟨_, hfresh, _, _⟩ := placeBid_eq_ok_iff.mp hagain
    have hregistered := hextends.commitments sealedBid _ (Finmap.lookup_insert _)
    exact hfresh (Finmap.mem_of_lookup_eq_some hregistered)
  | closeBidding =>
    obtain ⟨_, _, rfl⟩ := closeBidding_eq_ok_iff.mp hok
    obtain ⟨_, hphase, _⟩ := closeBidding_eq_ok_iff.mp hagain
    refine phase_ne_bidding_of_run ?_ calls hphase
    simp
  | revealBid amount nonce =>
    obtain ⟨_, _, _, rfl⟩ := revealBid_eq_ok_iff.mp hok
    obtain ⟨_, _, hfresh, _⟩ := revealBid_eq_ok_iff.mp hagain
    refine hfresh (hextends.revealed ?_)
    rw [recordReveal_eq]
    exact Finset.mem_insert_self _ _
  | finalize =>
    obtain ⟨_, hnext⟩ := finalize_eq_ok_iff.mp hok
    have hfrozen : ∀ call, ¬ Succeeds (exec persistentHash) next call :=
      not_succeeds_of_concluded (Or.inl (by rw [hnext]))
    rw [run_of_frozen hfrozen] at hagain
    exact hfrozen _ ⟨again, hagain⟩
  | cancel =>
    obtain ⟨_, _, _, hnext⟩ := cancel_eq_ok_iff.mp hok
    have hfrozen : ∀ call, ¬ Succeeds (exec persistentHash) next call :=
      not_succeeds_of_concluded (Or.inr (by rw [hnext]))
    rw [run_of_frozen hfrozen] at hagain
    exact hfrozen _ ⟨again, hagain⟩

/-- An auction in which a bid was placed is not cancelled. Assumes: an accepted constructor call,
and a run with a successful `placeBid`. -/
theorem phase_ne_cancelled_of_placed
    (h : constructor persistentHash sk reserve bidEnd revealEnd = .ok initial) {calls : List Call}
    {call : Call} {sealedBid : Bytes32}
    (hmem : call ∈ successes (exec persistentHash) initial calls)
    (hcall : call.circuit = .placeBid sealedBid) :
    (run (exec persistentHash) initial calls).phase ≠ .cancelled := by
  intro hcancelled
  obtain ⟨record, hrecord, _, hsealed, _⟩ := exists_represents_run h calls
  have hempty := record.cancelled_unsealed (by rw [← hrecord.phase_eq, hcancelled])
  have hplaced : (call.bidder persistentHash, sealedBid) ∈
      placements persistentHash (successes (exec persistentHash) initial calls) :=
    mem_placements_iff.mpr ⟨call, hmem, rfl, hcall⟩
  rw [← hsealed, hempty] at hplaced
  simp at hplaced

/-- The lifecycle of every run. Assumes: an accepted constructor call. In the ledger after any run a
successful call keeps the phase or makes one transition of the lifecycle; once a `placeBid`
succeeded no continuation is cancelled; a finalized or cancelled ledger refuses every call and stays
the same for ever; the auctioneer and the terms are those of the constructor; and every continuation
extends the ledger. -/
theorem lifecycle_of_run
    (h : constructor persistentHash sk reserve bidEnd revealEnd = .ok initial)
    (calls : List Call) :
    let ledger := run (exec persistentHash) initial calls
    (∀ call next, exec persistentHash call ledger = .ok next →
      ledger.phase.Moves next.phase) ∧
    (∀ call ∈ successes (exec persistentHash) initial calls, ∀ sealedBid,
      call.circuit = .placeBid sealedBid →
        ∀ more, (run (exec persistentHash) ledger more).phase ≠ .cancelled) ∧
    (ledger.phase = .finalized ∨ ledger.phase = .cancelled →
      (∀ call, ¬ Succeeds (exec persistentHash) ledger call) ∧
        ∀ more, run (exec persistentHash) ledger more = ledger) ∧
    (ledger.auctioneer = deriveAuctioneerId persistentHash sk ∧ ledger.reservePrice = reserve ∧
      ledger.bidDeadline = bidEnd ∧ ledger.revealDeadline = revealEnd ∧ bidEnd < revealEnd) ∧
    (∀ more, Extends ledger (run (exec persistentHash) ledger more)) := by
  intro ledger
  refine ⟨fun call next hok ↦ exec_moves hok, ?_, ?_, ?_, fun more ↦ run_extends ledger more⟩
  · intro call hmem sealedBid hcall more
    rw [← run_append]
    refine phase_ne_cancelled_of_placed h ?_ hcall
    rw [successes_append]
    exact List.mem_append_left _ hmem
  · intro hphase
    have hfrozen : ∀ call, ¬ Succeeds (exec persistentHash) ledger call :=
      not_succeeds_of_concluded hphase
    exact ⟨hfrozen, run_of_frozen hfrozen⟩
  · have hextends : Extends initial ledger := run_extends initial calls
    obtain ⟨_, hdeadline, rfl⟩ := constructor_eq_ok_iff.mp h
    exact ⟨hextends.auctioneer_eq, hextends.reservePrice_eq, hextends.bidDeadline_eq,
      hextends.revealDeadline_eq, hdeadline⟩

/-- Once a bid is placed in the harness auction, its auctioneer does not cancel it. -/
theorem lifecycle_of_run_harness :
    (run (exec sampleHash) (run (exec sampleHash) harnessLedger [commitCall 1 150])
      [⟨key 0xa0, .cancel⟩]).phase ≠ .cancelled :=
  (lifecycle_of_run harnessLedger_eq [commitCall 1 150]).2.1 (commitCall 1 150)
    (by decide +kernel) _ rfl _

end Runs

end SealedBid
