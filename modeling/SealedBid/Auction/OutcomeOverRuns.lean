import SealedBid.Auction.LedgerRefinement

/-!
# The outcome of a run

What the outcome cells hold after any run. The list `revealed` of a run is the identities and
amounts of the `revealBid` calls that succeeded, in order, and `valid` its entries that meet the
reserve. `outcome_of_run` reads the running best and the reveal counter off `valid` in every
reachable ledger, and the declared outcome in every reachable ledger that is finalized.

The cells are updated under two nested conditions and the winner is decided from the counter, not
from the best bid. They agree because the reserve is positive, so that the best bid is zero only
before the first valid opening, and because the comparison is strict, so that the first of several
equal amounts stays.
-/

set_option autoImplicit false
set_option relaxedAutoImplicit false

namespace SealedBid

open FailSafeRun AuctionRecord LeadingEntry

variable {persistentHash : PersistentHash} {sk : Bytes32} {reserve bidEnd revealEnd : Uint64}
  {initial : Ledger}

namespace Represents

variable {ledger : Ledger} {record : AuctionRecord Bytes32 Bytes32 Uint64}

/-- The best bid splits the valid openings: smaller amounts before it, amounts at most as large
after it. Assumes: an opening that meets the reserve. -/
theorem valid_split (h : Represents ledger record) (hvalid : record.valid ≠ []) :
    ∃ before after,
      record.valid = before ++ (ledger.highestBidder, ledger.highestBid) :: after ∧
        (∀ opening ∈ before, opening.2 < ledger.highestBid) ∧
        ∀ opening ∈ after, opening.2 ≤ ledger.highestBid := by
  obtain ⟨best, hleader⟩ := Option.ne_none_iff_exists'.mp (mt record.leader_eq_none_iff.mp hvalid)
  have hsplit := argmax_eq_some_iff_split.mp hleader
  rwa [h.eq_of_leader_some hleader] at hsplit

/-- The outcome cells of a finalized ledger without a valid opening. -/
theorem outcome_of_valid_nil (h : Represents ledger record) (hvalid : record.valid = []) :
    ledger.winner = none ∧ ledger.winningAmount = 0 := by
  have hleader := record.leader_eq_none_iff.mpr hvalid
  have haward : record.award = none := by
    unfold award
    split_ifs
    · exact hleader
    · rfl
  exact ⟨by rw [h.winner_eq, haward]; rfl, by rw [h.winningAmount_eq, haward]; rfl⟩

/-- The outcome cells of a finalized ledger with a valid opening are the best bid. -/
theorem outcome_of_finalized (h : Represents ledger record) (hphase : ledger.phase = .finalized)
    (hvalid : record.valid ≠ []) :
    ledger.winner = some ledger.highestBidder ∧ ledger.winningAmount = ledger.highestBid ∧
      ledger.reservePrice ≤ ledger.highestBid := by
  obtain ⟨best, hleader⟩ := Option.ne_none_iff_exists'.mp (mt record.leader_eq_none_iff.mp hvalid)
  have haward : record.award = some best := by
    rw [award, if_pos (by rw [← h.phase_eq, hphase]), hleader]
  have hbest := h.eq_of_leader_some hleader
  refine ⟨?_, ?_, ?_⟩
  · rw [h.winner_eq, haward, Option.map_some, hbest]
  · rw [h.winningAmount_eq, haward, Option.map_some, Option.getD_some, hbest]
  · have hreserve := reserve_le_of_leader hleader
    rwa [hbest, ← h.reserve_eq] at hreserve

end Represents

/-- The outcome of every run. Assumes: an accepted constructor call. With `valid` the successful
openings of the run that meet the reserve, in order, the reveal counter is the length of `valid`;
the best bid is zero when `valid` is empty and otherwise the first of the entries of `valid` with
the largest amount; a finalized ledger declares no winner when `valid` is empty and otherwise the
best bid, which meets the reserve; every other ledger declares none. -/
theorem outcome_of_run
    (h : constructor persistentHash sk reserve bidEnd revealEnd = .ok initial)
    (calls : List Call) :
    let ledger := run (exec persistentHash) initial calls
    let revealed := openings persistentHash (successes (exec persistentHash) initial calls)
    let valid := revealed.filter fun opening ↦ reserve ≤ opening.2
    ledger.validRevealCount = valid.length ∧
      (valid = [] → ledger.highestBid = 0) ∧
      (valid ≠ [] → ∃ before after,
        valid = before ++ (ledger.highestBidder, ledger.highestBid) :: after ∧
          (∀ opening ∈ before, opening.2 < ledger.highestBid) ∧
          ∀ opening ∈ after, opening.2 ≤ ledger.highestBid) ∧
      (ledger.phase = .finalized →
        (valid = [] → ledger.winner = none ∧ ledger.winningAmount = 0) ∧
        (valid ≠ [] → ledger.winner = some ledger.highestBidder ∧
          ledger.winningAmount = ledger.highestBid ∧ reserve ≤ ledger.highestBid)) ∧
      (ledger.phase ≠ .finalized → ledger.winner = none ∧ ledger.winningAmount = 0) := by
  intro ledger revealed valid
  obtain ⟨record, hrecord, hreserve, _, hopenings⟩ := exists_represents_run h calls
  have hvalid : record.valid = valid := by
    rw [AuctionRecord.valid, hopenings, hreserve]
  rw [← hvalid]
  refine ⟨hrecord.validRevealCount_eq, ?_, hrecord.valid_split, ?_,
    hrecord.outcome_of_not_finalized⟩
  · intro hnone
    exact hrecord.highestBid_of_leader_none (record.leader_eq_none_iff.mpr hnone)
  · intro hphase
    refine ⟨hrecord.outcome_of_valid_nil, fun hsome ↦ ?_⟩
    have houtcome := hrecord.outcome_of_finalized hphase hsome
    rwa [hrecord.reserve_eq, hreserve] at houtcome

/-- Four participants open their bids: 150, 60 below the reserve, 250 which overtakes, and another
250. The first of the two at 250 wins. -/
theorem outcome_of_run_harness :
    let calls := [commitCall 1 150, commitCall 2 250, commitCall 3 250, commitCall 4 60, closeCall,
      revealCall 1 150, revealCall 4 60, revealCall 2 250, revealCall 3 250, finalizeCall 9]
    let ledger := run (exec sampleHash) harnessLedger calls
    ledger.validRevealCount = 3 ∧ ledger.winner = some (deriveBidderId sampleHash (key 2)) ∧
      ledger.winningAmount = 250 := by
  intro calls ledger
  obtain ⟨hcount, _, _, hfinal, _⟩ := outcome_of_run harnessLedger_eq calls
  have hvalid : (openings sampleHash (successes (exec sampleHash) harnessLedger calls)).filter
      (fun opening ↦ (100 : Uint64) ≤ opening.2) = [(deriveBidderId sampleHash (key 1), 150),
        (deriveBidderId sampleHash (key 2), 250), (deriveBidderId sampleHash (key 3), 250)] := by
    decide +kernel
  have hphase : ledger.phase = .finalized := by decide +kernel
  have hbidder : ledger.highestBidder = deriveBidderId sampleHash (key 2) := by decide +kernel
  have hbid : ledger.highestBid = 250 := by decide +kernel
  obtain ⟨hwinner, hamount, _⟩ := (hfinal hphase).2 (by rw [hvalid]; simp)
  rw [hvalid] at hcount
  exact ⟨hcount, by rw [hwinner, hbidder], by rw [hamount, hbid]⟩

end SealedBid
