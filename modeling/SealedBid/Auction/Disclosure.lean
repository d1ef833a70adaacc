import SealedBid.Auction.LedgerConsistency
import SealedBid.Auction.Lifecycle
import SealedBid.Auction.OutcomeOverRuns

/-!
# Which amounts reach the ledger

`revealBid` writes an amount when it becomes the best bid so far, and the best bid so far need not
win. `NoLosingAmount` says of a run that every amount it ever stores is the one that wins in the
end. A finalized run has this property exactly when no reveal overtakes a best bid that is already
standing, that is, when the first opening that meets the reserve has the largest amount
(`noLosingAmount_iff`). When a lower bid opens first, its amount is stored and stays readable in the
earlier ledgers, although the comments of the contract say that a losing bid is never disclosed.
-/

set_option autoImplicit false
set_option relaxedAutoImplicit false

namespace SealedBid

open FailSafeRun AuctionRecord

/-- No ledger that the run passes through stores an amount other than the winning one: the best bid
is zero or the final winning amount, opened by the final winner, and the winning amount is zero or
the final one. -/
def NoLosingAmount (persistentHash : PersistentHash) (initial : Ledger) (calls : List Call) :
    Prop :=
  let final := run (exec persistentHash) initial calls
  ∀ before after, calls = before ++ after →
    let ledger := run (exec persistentHash) initial before
    (ledger.highestBid = 0 ∨
      ledger.highestBid = final.winningAmount ∧ final.winner = some ledger.highestBidder) ∧
    (ledger.winningAmount = 0 ∨ ledger.winningAmount = final.winningAmount)

/-- A reveal overtakes: it succeeds while a best bid is standing, meets the reserve and exceeds the
best bid. -/
def Overtakes (persistentHash : PersistentHash) (ledger : Ledger) (call : Call) : Prop :=
  Succeeds (exec persistentHash) ledger call ∧
    ∃ amount nonce, call.circuit = .revealBid amount nonce ∧ ledger.highestBid ≠ 0 ∧
      ledger.reservePrice ≤ amount ∧ ledger.highestBid < amount

instance decidableOvertakes (persistentHash : PersistentHash) (ledger : Ledger) (call : Call) :
    Decidable (Overtakes persistentHash ledger call) :=
  match call with
  | ⟨caller, .revealBid amount nonce⟩ =>
    decidable_of_iff (Succeeds (exec persistentHash) ledger ⟨caller, .revealBid amount nonce⟩ ∧
        ledger.highestBid ≠ 0 ∧ ledger.reservePrice ≤ amount ∧ ledger.highestBid < amount)
      (and_congr_right' (by simp))
  | ⟨_, .placeBid _⟩ => isFalse (by simp [Overtakes])
  | ⟨_, .closeBidding⟩ => isFalse (by simp [Overtakes])
  | ⟨_, .finalize⟩ => isFalse (by simp [Overtakes])
  | ⟨_, .cancel⟩ => isFalse (by simp [Overtakes])

section Steps

variable {persistentHash : PersistentHash} {call : Call} {ledger next : Ledger}

/-- A reveal that overtakes replaces the best bid by a larger one. -/
theorem highestBid_lt_of_overtakes (hovertakes : Overtakes persistentHash ledger call) :
    ledger.highestBid < (step (exec persistentHash) ledger call).highestBid := by
  obtain ⟨hsucceeds, amount, nonce, hcall, _, hreserve, hbest⟩ := hovertakes
  obtain ⟨caller, circuit⟩ := call
  subst hcall
  obtain ⟨_, _, _, hnext⟩ := revealBid_eq_ok_iff.mp hsucceeds.exec_eq
  have hamount : (step (exec persistentHash) ledger ⟨caller, .revealBid amount nonce⟩).highestBid =
      amount := by
    rw [hnext, recordReveal_eq]
    exact if_pos ⟨hreserve, hbest⟩
  rwa [hamount]

/-- A call that does not overtake keeps a standing best bid and its bidder. -/
theorem best_of_exec (hstands : ledger.highestBid ≠ 0)
    (hovertakes : ¬ Overtakes persistentHash ledger call)
    (hok : exec persistentHash call ledger = .ok next) :
    next.highestBid = ledger.highestBid ∧ next.highestBidder = ledger.highestBidder := by
  obtain ⟨caller, circuit⟩ := call
  cases circuit with
  | placeBid sealedBid =>
    obtain ⟨_, _, _, rfl⟩ := placeBid_eq_ok_iff.mp hok
    exact ⟨rfl, rfl⟩
  | closeBidding =>
    obtain ⟨_, _, rfl⟩ := closeBidding_eq_ok_iff.mp hok
    exact ⟨rfl, rfl⟩
  | revealBid amount nonce =>
    have hlower : ¬ (ledger.reservePrice ≤ amount ∧ ledger.highestBid < amount) := fun hbeats ↦
      hovertakes ⟨⟨next, hok⟩, amount, nonce, rfl, hstands, hbeats⟩
    obtain ⟨_, _, _, rfl⟩ := revealBid_eq_ok_iff.mp hok
    rw [recordReveal_eq]
    exact ⟨if_neg hlower, if_neg hlower⟩
  | finalize =>
    obtain ⟨_, rfl⟩ := finalize_eq_ok_iff.mp hok
    exact ⟨rfl, rfl⟩
  | cancel =>
    obtain ⟨_, _, _, rfl⟩ := cancel_eq_ok_iff.mp hok
    exact ⟨rfl, rfl⟩

/-- A standing best bid and its bidder stay for the rest of a run in which nothing overtakes. -/
theorem best_of_run {calls : List Call} (hstands : ledger.highestBid ≠ 0)
    (hovertakes : ∀ before call after, calls = before ++ call :: after →
      ¬ Overtakes persistentHash (run (exec persistentHash) ledger before) call) :
    (run (exec persistentHash) ledger calls).highestBid = ledger.highestBid ∧
      (run (exec persistentHash) ledger calls).highestBidder = ledger.highestBidder := by
  refine run_invariant_along
    (fun middle : Ledger ↦ middle.highestBid = ledger.highestBid ∧
      middle.highestBidder = ledger.highestBidder)
    (fun middle call ↦ ¬ Overtakes persistentHash middle call) ?_ hovertakes ⟨rfl, rfl⟩
  rintro middle call next hquiet ⟨hbid, hbidder⟩ hok
  obtain ⟨hbid', hbidder'⟩ := best_of_exec (by rwa [hbid]) hquiet hok
  exact ⟨hbid'.trans hbid, hbidder'.trans hbidder⟩

end Steps

section Runs

variable {persistentHash : PersistentHash} {sk : Bytes32} {reserve bidEnd revealEnd : Uint64}
  {initial : Ledger}

/-- The best bid of a finalized ledger, when there is one, is declared. -/
theorem outcome_of_standing
    (h : constructor persistentHash sk reserve bidEnd revealEnd = .ok initial) {calls : List Call}
    (hfinal : (run (exec persistentHash) initial calls).phase = .finalized)
    (hstands : (run (exec persistentHash) initial calls).highestBid ≠ 0) :
    let final := run (exec persistentHash) initial calls
    final.winner = some final.highestBidder ∧ final.winningAmount = final.highestBid := by
  obtain ⟨record, hrecord, _⟩ := exists_represents_run h calls
  have hvalid : record.valid ≠ [] := by
    intro hempty
    exact hstands (hrecord.highestBid_of_leader_none (record.leader_eq_none_iff.mpr hempty))
  obtain ⟨hwinner, hamount, _⟩ := hrecord.outcome_of_finalized hfinal hvalid
  exact ⟨hwinner, hamount⟩

/-- The winning amount of a ledger passed through is zero or the one of the finalized ledger. -/
theorem winningAmount_of_prefix
    (h : constructor persistentHash sk reserve bidEnd revealEnd = .ok initial)
    (before after : List Call) :
    (run (exec persistentHash) initial before).winningAmount = 0 ∨
      (run (exec persistentHash) initial before).winningAmount =
        (run (exec persistentHash) initial (before ++ after)).winningAmount := by
  by_cases hphase : (run (exec persistentHash) initial before).phase = .finalized
  · have hfrozen : ∀ call, ¬ Succeeds (exec persistentHash)
        (run (exec persistentHash) initial before) call :=
      not_succeeds_of_concluded (Or.inl hphase)
    rw [run_append, run_of_frozen hfrozen]
    exact Or.inr rfl
  · obtain ⟨record, hrecord, _⟩ := exists_represents_run h before
    exact Or.inl (hrecord.outcome_of_not_finalized hphase).2

/-- The successful openings of a run that meet the reserve, in order. -/
def validOpenings (persistentHash : PersistentHash) (initial : Ledger) (calls : List Call) :
    List (Bytes32 × Uint64) :=
  (openings persistentHash (successes (exec persistentHash) initial calls)).filter fun opening ↦
    initial.reservePrice ≤ opening.2

/-- No opening exceeds the first one. -/
def FirstIsLargest (openings : List (Bytes32 × Uint64)) : Prop :=
  ∀ first ∈ openings.head?, ∀ opening ∈ openings, opening.2 ≤ first.2

theorem firstIsLargest_concat_iff (openings : List (Bytes32 × Uint64)) (last : Bytes32 × Uint64) :
    FirstIsLargest (openings ++ [last]) ↔
      FirstIsLargest openings ∧ ∀ first ∈ openings.head?, last.2 ≤ first.2 := by
  cases openings with
  | nil => simp [FirstIsLargest]
  | cons first rest => simp [FirstIsLargest, or_imp, forall_and]

/-- While the first valid opening is the largest, a best bid stands once there is a valid opening,
and it is the amount of the first one. -/
theorem exceeds_best_iff
    (h : constructor persistentHash sk reserve bidEnd revealEnd = .ok initial) {calls : List Call}
    (hfirst : FirstIsLargest (validOpenings persistentHash initial calls)) (amount : Uint64) :
    let ledger := run (exec persistentHash) initial calls
    ledger.highestBid ≠ 0 ∧ ledger.highestBid < amount ↔
      ∃ first ∈ (validOpenings persistentHash initial calls).head?, first.2 < amount := by
  intro ledger
  obtain ⟨record, hrecord, hreserve, _, hopenings⟩ := exists_represents_run h calls
  have hvalid : record.valid = validOpenings persistentHash initial calls := by
    obtain ⟨_, _, rfl⟩ := constructor_eq_ok_iff.mp h
    rw [AuctionRecord.valid, hopenings, hreserve]
    rfl
  rw [← hvalid] at hfirst ⊢
  by_cases hempty : record.valid = []
  · have hzero : ledger.highestBid = 0 :=
      hrecord.highestBid_of_leader_none (record.leader_eq_none_iff.mpr hempty)
    simp [hzero, hempty]
  · obtain ⟨before, after, hsplit, hbefore, _⟩ := hrecord.valid_split hempty
    have hpos : ledger.highestBid ≠ 0 := by
      obtain ⟨best, hleader⟩ :=
        Option.ne_none_iff_exists'.mp (mt record.leader_eq_none_iff.mp hempty)
      have hmeets := reserve_le_of_leader hleader
      rw [hrecord.eq_of_leader_some hleader, ← hrecord.reserve_eq] at hmeets
      exact ne_of_gt (lt_of_lt_of_le hrecord.reserve_pos hmeets)
    cases before with
    | nil => simp [hsplit, hpos, ledger]
    | cons first rest =>
      -- the best bid would exceed the first opening
      have hexceeds := hbefore first List.mem_cons_self
      have hmem : (ledger.highestBidder, ledger.highestBid) ∈ record.valid := by
        rw [hsplit]
        simp [ledger]
      exact absurd hexceeds (not_lt.mpr (hfirst first (by simp [hsplit]) _ hmem))

/-- A call extends the valid openings by its own opening, if it succeeds and meets the reserve. -/
theorem validOpenings_concat (calls : List Call) (call : Call) :
    validOpenings persistentHash initial (calls ++ [call]) =
      validOpenings persistentHash initial calls ++
        if Succeeds (exec persistentHash) (run (exec persistentHash) initial calls) call then
          (openings persistentHash [call]).filter fun opening ↦ initial.reservePrice ≤ opening.2
        else [] := by
  rw [validOpenings, validOpenings, successes_append]
  split_ifs with hsucceeds
  · obtain ⟨next, hnext⟩ := hsucceeds
    rw [successes_cons_of_ok hnext, successes, openings_append, List.filter_append]
  · rw [successes_cons_of_not_succeeds hsucceeds, successes, List.append_nil, List.append_nil]

/-- No call of a run overtakes exactly when the first valid opening is the largest. -/
theorem not_overtakes_iff
    (h : constructor persistentHash sk reserve bidEnd revealEnd = .ok initial)
    (calls : List Call) :
    (∀ before call after, calls = before ++ call :: after →
      ¬ Overtakes persistentHash (run (exec persistentHash) initial before) call) ↔
      FirstIsLargest (validOpenings persistentHash initial calls) := by
  induction calls using List.reverseRecOn with
  | nil => simp [FirstIsLargest, validOpenings, successes, openings]
  | append_singleton calls call ih =>
    rw [forall_split_concat_iff (fun before call ↦
      ¬ Overtakes persistentHash (run (exec persistentHash) initial before) call), ih,
      validOpenings_concat]
    have hreserve : (run (exec persistentHash) initial calls).reservePrice =
        initial.reservePrice := (run_extends initial calls).reservePrice_eq
    obtain ⟨caller, circuit⟩ := call
    split_ifs with hsucceeds
    · cases circuit with
      | revealBid amount nonce =>
        have hopening : openings persistentHash [⟨caller, .revealBid amount nonce⟩] =
            [(deriveBidderId persistentHash caller, amount)] := rfl
        rw [hopening]
        by_cases hmeets : initial.reservePrice ≤ amount
        · rw [List.filter_cons_of_pos (by simpa using hmeets), List.filter_nil,
            firstIsLargest_concat_iff]
          refine and_congr_right fun hfirst ↦ ?_
          have hovertakes : Overtakes persistentHash (run (exec persistentHash) initial calls)
              ⟨caller, .revealBid amount nonce⟩ ↔
              (run (exec persistentHash) initial calls).highestBid ≠ 0 ∧
                (run (exec persistentHash) initial calls).highestBid < amount := by
            simp [Overtakes, hsucceeds, hreserve, hmeets]
          refine (not_congr (hovertakes.trans (exceeds_best_iff h hfirst amount))).trans ?_
          simp only [not_exists, not_and, not_lt]
        · rw [List.filter_cons_of_neg (by simpa using hmeets), List.filter_nil, List.append_nil]
          refine and_iff_left ?_
          rintro ⟨_, opened, _, hcall, _, hopened, _⟩
          cases hcall
          rw [hreserve] at hopened
          exact hmeets hopened
      | _ => simp [openings, Call.event, AuctionRecord.Event.opening?, Overtakes]
    · rw [List.append_nil]
      exact and_iff_left fun hovertakes ↦ hsucceeds hovertakes.1

/-- When a finalized run stores no losing amount. Assumes: an accepted constructor call and a run
that ends finalized. Every amount that the run stores is the winning one exactly when no call of the
run overtakes a standing best bid, that is, when no successful opening that meets the reserve
exceeds the first one. -/
theorem noLosingAmount_iff
    (h : constructor persistentHash sk reserve bidEnd revealEnd = .ok initial) {calls : List Call}
    (hfinal : (run (exec persistentHash) initial calls).phase = .finalized) :
    (NoLosingAmount persistentHash initial calls ↔
      ∀ before call after, calls = before ++ call :: after →
        ¬ Overtakes persistentHash (run (exec persistentHash) initial before) call) ∧
    (NoLosingAmount persistentHash initial calls ↔
      FirstIsLargest (validOpenings persistentHash initial calls)) := by
  rw [← not_overtakes_iff h calls, and_self]
  constructor
  · intro hclean before call after hsplit hovertakes
    obtain ⟨_, _, _, _, hstands, _⟩ := id hovertakes
    have hgrows := highestBid_lt_of_overtakes hovertakes
    rw [← run_concat] at hgrows
    have hfirst := (hclean before (call :: after) hsplit).1.resolve_left hstands
    have hsecond := (hclean (before ++ [call]) after (by rw [hsplit]; simp)).1.resolve_left
      (ne_of_gt (lt_of_le_of_lt (Fin.zero_le _) hgrows))
    -- both amounts would be the one that wins
    rw [hfirst.1, hsecond.1] at hgrows
    exact lt_irrefl _ hgrows
  · rintro hquiet before after rfl
    refine ⟨?_, winningAmount_of_prefix h before after⟩
    by_cases hstands : (run (exec persistentHash) initial before).highestBid = 0
    · exact Or.inl hstands
    · have hrest : ∀ middle call rest, after = middle ++ call :: rest →
          ¬ Overtakes persistentHash (run (exec persistentHash)
            (run (exec persistentHash) initial before) middle) call := by
        intro middle call rest hsplit
        rw [← run_append]
        exact hquiet (before ++ middle) call rest (by rw [hsplit, List.append_assoc])
      obtain ⟨hbid, hbidder⟩ := best_of_run hstands hrest
      rw [← run_append] at hbid hbidder
      obtain ⟨hwinner, hamount⟩ := outcome_of_standing h hfinal (by rwa [hbid])
      exact Or.inr ⟨by rw [hamount, hbid], by rw [hwinner, hbidder]⟩

/-- Two bidders of the harness auction open their bids, the higher one first. -/
theorem noLosingAmount_iff_harness :
    NoLosingAmount sampleHash harnessLedger [commitCall 1 150, commitCall 2 250, closeCall,
      revealCall 2 250, revealCall 1 150, finalizeCall 9] := by
  have hopenings : validOpenings sampleHash harnessLedger [commitCall 1 150, commitCall 2 250,
      closeCall, revealCall 2 250, revealCall 1 150, finalizeCall 9] =
        [(deriveBidderId sampleHash (key 2), 250), (deriveBidderId sampleHash (key 1), 150)] := by
    decide +kernel
  refine (noLosingAmount_iff harnessLedger_eq (by decide +kernel)).2.mpr ?_
  rw [hopenings]
  simp [FirstIsLargest]

/-- Two bidders of the harness auction open their bids, the lower one first: the losing amount 150
is on the ledger before the winning amount 250. -/
theorem losing_amount_stored_harness :
    constructor sampleHash (key 0xa0) 100 1000 2000 = .ok harnessLedger ∧
      (run (exec sampleHash) harnessLedger [commitCall 1 150, commitCall 2 250, closeCall,
        revealCall 1 150, revealCall 2 250, finalizeCall 9]).phase = .finalized ∧
      Overtakes sampleHash (run (exec sampleHash) harnessLedger [commitCall 1 150,
        commitCall 2 250, closeCall, revealCall 1 150]) (revealCall 2 250) ∧
      ¬ NoLosingAmount sampleHash harnessLedger [commitCall 1 150, commitCall 2 250, closeCall,
        revealCall 1 150, revealCall 2 250, finalizeCall 9] := by
  refine ⟨harnessLedger_eq, by decide +kernel, by decide +kernel, fun hclean ↦ ?_⟩
  have hstored := (hclean [commitCall 1 150, commitCall 2 250, closeCall, revealCall 1 150]
    [revealCall 2 250, finalizeCall 9] rfl).1
  exact absurd hstored (by decide +kernel)

end Runs

end SealedBid
