import SealedBid.Auction.AuctionRecord
import SealedBid.Contract.Calls
import SealedBid.Foundation.MapEnumeration

/-!
# The ledger represents an auction record

The refinement between the contract and the abstract auction. `Represents` relates a ledger to a
record: the two maps list the sealed bids, the set of revealed commitments is the openings, the
counters are lengths, the running best is the leader and the outcome cells are the award. The
constructor's ledger represents the auction before any bid (`represents_constructor`), and every
successful call is one event of the auction (`exec_refines`), so every run of the contract is the
run of the events of the calls that succeeded (`run_refines`).

`placements` and `openings` are the sealed bids and the openings of a list of calls; applied to the
calls that succeeded they are the two lists of the record (`exists_represents_run`).
-/

set_option autoImplicit false
set_option relaxedAutoImplicit false

namespace SealedBid

open FailSafeRun MapEnumeration AuctionRecord

/-! ### Events of calls -/

/-- The event of a call that succeeds. -/
def Call.event (persistentHash : PersistentHash) (call : Call) : Event Bytes32 Bytes32 Uint64 :=
  match call.circuit with
  | .placeBid sealedBid => .placed (call.bidder persistentHash) sealedBid
  | .closeBidding => .closed
  | .revealBid amount _ => .opened (call.bidder persistentHash) amount
  | .finalize => .settled
  | .cancel => .abandoned

/-- The bidder identities and commitments of the `placeBid` calls of a list, in order. -/
def placements (persistentHash : PersistentHash) (calls : List Call) :
    List (Bytes32 × Bytes32) :=
  calls.filterMap fun call ↦ (call.event persistentHash).placement?

/-- The bidder identities and amounts of the `revealBid` calls of a list, in order. -/
def openings (persistentHash : PersistentHash) (calls : List Call) : List (Bytes32 × Uint64) :=
  calls.filterMap fun call ↦ (call.event persistentHash).opening?

theorem placements_append (persistentHash : PersistentHash) (first second : List Call) :
    placements persistentHash (first ++ second) =
      placements persistentHash first ++ placements persistentHash second :=
  List.filterMap_append

theorem openings_append (persistentHash : PersistentHash) (first second : List Call) :
    openings persistentHash (first ++ second) =
      openings persistentHash first ++ openings persistentHash second :=
  List.filterMap_append

theorem mem_placements_iff {persistentHash : PersistentHash} {calls : List Call}
    {bidder commitment : Bytes32} :
    (bidder, commitment) ∈ placements persistentHash calls ↔
      ∃ call ∈ calls,
        call.bidder persistentHash = bidder ∧ call.circuit = .placeBid commitment := by
  rw [placements, List.mem_filterMap]
  refine exists_congr fun call ↦ and_congr_right' ?_
  cases hcircuit : call.circuit <;> simp [Call.event, Event.placement?, hcircuit]

theorem mem_openings_iff {persistentHash : PersistentHash} {calls : List Call} {bidder : Bytes32}
    {amount : Uint64} :
    (bidder, amount) ∈ openings persistentHash calls ↔
      ∃ call ∈ calls, call.bidder persistentHash = bidder ∧
        ∃ nonce, call.circuit = .revealBid amount nonce := by
  rw [openings, List.mem_filterMap]
  refine exists_congr fun call ↦ and_congr_right' ?_
  cases hcircuit : call.circuit <;> simp [Call.event, Event.opening?, hcircuit]

/-- Calls of other circuits place nothing. -/
theorem placements_eq_nil (persistentHash : PersistentHash) {calls : List Call}
    (h : ∀ call ∈ calls, ∀ sealedBid, call.circuit ≠ .placeBid sealedBid) :
    placements persistentHash calls = [] := by
  refine List.eq_nil_iff_forall_not_mem.mpr fun ⟨bidder, commitment⟩ hplaced ↦ ?_
  obtain ⟨call, hmem, _, hcall⟩ := mem_placements_iff.mp hplaced
  exact h call hmem commitment hcall

/-- Calls of other circuits open nothing. -/
theorem openings_eq_nil (persistentHash : PersistentHash) {calls : List Call}
    (h : ∀ call ∈ calls, ∀ amount nonce, call.circuit ≠ .revealBid amount nonce) :
    openings persistentHash calls = [] := by
  refine List.eq_nil_iff_forall_not_mem.mpr fun ⟨bidder, amount⟩ hopened ↦ ?_
  obtain ⟨call, hmem, _, nonce, hcall⟩ := mem_openings_iff.mp hopened
  exact h call hmem amount nonce hcall

/-! ### The relation -/

/-- A ledger represents an auction record. -/
structure Represents (ledger : Ledger) (record : AuctionRecord Bytes32 Bytes32 Uint64) : Prop where
  phase_eq : ledger.phase = record.phase
  reserve_eq : ledger.reservePrice = record.reserve
  reserve_pos : 0 < ledger.reservePrice
  bidders : Enumerates ledger.bidderCommitment record.sealedBids
  registered : Enumerates ledger.commitments (record.sealedBids.map Prod.swap)
  bidCount_eq : ledger.bidCount = record.sealedBids.length
  mem_revealed_iff : ∀ bidder commitment, (bidder, commitment) ∈ record.sealedBids →
    (commitment ∈ ledger.revealedCommitments ↔ bidder ∈ record.openings.map Prod.fst)
  revealed_registered : ∀ commitment ∈ ledger.revealedCommitments, commitment ∈ ledger.commitments
  card_revealed : ledger.revealedCommitments.card = record.openings.length
  validRevealCount_eq : ledger.validRevealCount = record.valid.length
  highestBid_eq : ledger.highestBid = (record.leader.map Prod.snd).getD 0
  highestBidder_eq : ledger.highestBidder = (record.leader.map Prod.fst).getD zeroBytes
  winner_eq : ledger.winner = record.award.map Prod.fst
  winningAmount_eq : ledger.winningAmount = (record.award.map Prod.snd).getD 0

namespace Represents

variable {ledger : Ledger} {record : AuctionRecord Bytes32 Bytes32 Uint64}

/-- The keys of the two maps are the two columns of the sealed bids. -/
theorem mem_bidderCommitment_iff (h : Represents ledger record) (bidder : Bytes32) :
    bidder ∈ ledger.bidderCommitment ↔ bidder ∈ record.sealedBids.map Prod.fst :=
  h.bidders.mem_iff bidder

theorem mem_commitments_iff (h : Represents ledger record) (commitment : Bytes32) :
    commitment ∈ ledger.commitments ↔ commitment ∈ record.sealedBids.map Prod.snd := by
  rw [h.registered.mem_iff, List.map_map]
  rfl

/-- Without an opening that meets the reserve the best bid is zero. -/
theorem highestBid_of_leader_none (h : Represents ledger record) (hleader : record.leader = none) :
    ledger.highestBid = 0 := by
  rw [h.highestBid_eq, hleader]
  rfl

/-- The best bid and its bidder are the leading opening. -/
theorem eq_of_leader_some (h : Represents ledger record) {opening : Bytes32 × Uint64}
    (hleader : record.leader = some opening) :
    opening = (ledger.highestBidder, ledger.highestBid) := by
  have hbid := h.highestBid_eq
  have hbidder := h.highestBidder_eq
  rw [hleader, Option.map_some, Option.getD_some] at hbid hbidder
  exact Prod.ext hbidder.symm hbid.symm

/-- The outcome cells are empty until the auction is finalized. -/
theorem outcome_of_not_finalized (h : Represents ledger record)
    (hphase : ledger.phase ≠ .finalized) :
    ledger.winner = none ∧ ledger.winningAmount = 0 := by
  have haward : record.award = none := award_of_phase_ne (by rwa [← h.phase_eq])
  exact ⟨by rw [h.winner_eq, haward]; rfl, by rw [h.winningAmount_eq, haward]; rfl⟩

/-- The reveal counter is zero exactly when no opening meets the reserve. -/
theorem validRevealCount_eq_zero_iff (h : Represents ledger record) :
    ledger.validRevealCount = 0 ↔ record.leader = none := by
  rw [h.validRevealCount_eq, List.length_eq_zero_iff, record.leader_eq_none_iff]

/-- The leader is the running best once an opening has counted. -/
theorem leader_eq (h : Represents ledger record) :
    record.leader =
      if ledger.validRevealCount = 0 then none
      else some (ledger.highestBidder, ledger.highestBid) := by
  cases hleader : record.leader with
  | none => rw [if_pos (h.validRevealCount_eq_zero_iff.mpr hleader)]
  | some best =>
    have hcount := mt h.validRevealCount_eq_zero_iff.mp (by simp [hleader])
    rw [if_neg hcount, h.eq_of_leader_some hleader]

end Represents

/-! ### One call -/

/-- The ledger of an accepted constructor call represents the auction before any bid. -/
theorem represents_constructor {persistentHash : PersistentHash} {sk : Bytes32}
    {reserve bidEnd revealEnd : Uint64} {ledger : Ledger}
    (h : constructor persistentHash sk reserve bidEnd revealEnd = .ok ledger) :
    Represents ledger (start reserve) := by
  obtain ⟨hreserve, _, rfl⟩ := constructor_eq_ok_iff.mp h
  exact {
    phase_eq := rfl
    reserve_eq := rfl
    reserve_pos := hreserve
    bidders := enumerates_empty
    registered := enumerates_empty
    bidCount_eq := rfl
    mem_revealed_iff := by simp [start]
    revealed_registered := by simp
    card_revealed := rfl
    validRevealCount_eq := rfl
    highestBid_eq := rfl
    highestBidder_eq := rfl
    winner_eq := rfl
    winningAmount_eq := rfl }

section Calls

variable {persistentHash : PersistentHash} {sk : Bytes32} {ledger next : Ledger}
  {record : AuctionRecord Bytes32 Bytes32 Uint64}

theorem placeBid_refines {sealedBid : Bytes32} (h : Represents ledger record)
    (hok : placeBid persistentHash sk sealedBid ledger = .ok next) :
    ∃ after, Step record (.placed (deriveBidderId persistentHash sk) sealedBid) after ∧
      Represents next after := by
  obtain ⟨hphase, hcommitment, hbidder, rfl⟩ := placeBid_eq_ok_iff.mp hok
  have hphase' : record.phase = .bidding := by rw [← h.phase_eq, hphase]
  have hbidder' := mt (h.mem_bidderCommitment_iff _).mpr hbidder
  have hcommitment' := mt (h.mem_commitments_iff _).mpr hcommitment
  have hunopened : record.openings = [] := record.bidding_unopened hphase'
  refine ⟨_, .placed hphase' hbidder' hcommitment', { h with
    bidders := h.bidders.insert hbidder sealedBid
    registered := ?_
    bidCount_eq := ?_
    mem_revealed_iff := ?_
    revealed_registered := ?_ }⟩
  · show Enumerates _ ((record.sealedBids ++ [(_, sealedBid)]).map Prod.swap)
    rw [List.map_append]
    exact h.registered.insert hcommitment _
  · show ledger.bidCount + 1 = (record.sealedBids ++ [(_, sealedBid)]).length
    rw [h.bidCount_eq, List.length_append, List.length_singleton]
  · intro bidder commitment _
    -- nothing is revealed while bids are collected
    have hempty : ledger.revealedCommitments = ∅ := by
      rw [← Finset.card_eq_zero, h.card_revealed, hunopened, List.length_nil]
    show commitment ∈ ledger.revealedCommitments ↔ bidder ∈ record.openings.map Prod.fst
    simp [hempty, hunopened]
  · intro commitment hrevealed
    exact Finmap.mem_insert.mpr (Or.inr (h.revealed_registered commitment hrevealed))

theorem closeBidding_refines (h : Represents ledger record)
    (hok : closeBidding persistentHash sk ledger = .ok next) :
    ∃ after, Step record .closed after ∧ Represents next after := by
  obtain ⟨_, hphase, rfl⟩ := closeBidding_eq_ok_iff.mp hok
  have hphase' : record.phase = .bidding := by rw [← h.phase_eq, hphase]
  have hclosed : record.closeBidding.award = none :=
    award_of_phase_ne (by simp [AuctionRecord.closeBidding])
  obtain ⟨hwinner, hamount⟩ := h.outcome_of_not_finalized (by simp [hphase])
  exact ⟨_, .closed hphase', { h with
    phase_eq := rfl
    winner_eq := by rw [hclosed]; exact hwinner
    winningAmount_eq := by rw [hclosed]; exact hamount }⟩

/-- An opening beats the best bid on the ledger exactly when it beats the leader, if there is one:
without a leader the best bid is zero and the reserve is positive. -/
theorem Represents.highestBid_lt_iff (h : Represents ledger record) {amount : Uint64}
    (hreserve : ledger.reservePrice ≤ amount) :
    ledger.highestBid < amount ↔ ∀ best, record.leader = some best → best.2 < amount := by
  cases hleader : record.leader with
  | none =>
    rw [h.highestBid_of_leader_none hleader]
    simpa using lt_of_lt_of_le h.reserve_pos hreserve
  | some best =>
    have hbest := h.eq_of_leader_some hleader
    simp [hbest]

/-- Revealing the commitment of an identity marks that identity and no other: a commitment belongs
to one identity. -/
theorem Represents.mem_insert_revealed_iff (h : Represents ledger record) {amount : Uint64}
    {bidder commitment other registered : Bytes32}
    (hsealed : (bidder, commitment) ∈ record.sealedBids)
    (hmem : (other, registered) ∈ record.sealedBids) :
    registered ∈ insert commitment ledger.revealedCommitments ↔
      other ∈ (record.openings ++ [(bidder, amount)]).map Prod.fst := by
  have hsame : registered = commitment ↔ other = bidder := by
    constructor
    · rintro rfl
      exact record.bidder_unique hsealed hmem
    · rintro rfl
      exact record.commitment_unique hsealed hmem
  rw [Finset.mem_insert, h.mem_revealed_iff other registered hmem, List.map_append,
    List.mem_append, List.map_singleton, List.mem_singleton, hsame]
  exact or_comm

/-- A cell that holds a part of the leading opening holds that part of the new leading opening, when
it is overwritten for an amount that meets the reserve and beats the best bid. -/
theorem Represents.cell_of_revealBid {α : Type*} (h : Represents ledger record)
    {bidder : Bytes32} {amount : Uint64} (hphase : record.phase = .reveal)
    (hbidder : bidder ∈ record.sealedBids.map Prod.fst)
    (hunopened : bidder ∉ record.openings.map Prod.fst) (part : Bytes32 × Uint64 → α)
    {default cell : α} (hcell : cell = (record.leader.map part).getD default) :
    (if ledger.reservePrice ≤ amount ∧ ledger.highestBid < amount then part (bidder, amount)
        else cell) =
      ((record.revealBid bidder amount hphase hbidder hunopened).leader.map part).getD
        default := by
  have hbeats : (ledger.reservePrice ≤ amount ∧ ledger.highestBid < amount) ↔
      record.reserve ≤ amount ∧ ∀ best, record.leader = some best → best.2 < amount := by
    rw [← h.reserve_eq]
    exact and_congr_right fun hreserve ↦ h.highestBid_lt_iff hreserve
  rw [record.leader_revealBid bidder amount hphase hbidder hunopened]
  by_cases hwins : ledger.reservePrice ≤ amount ∧ ledger.highestBid < amount
  · rw [if_pos hwins, if_pos (hbeats.mp hwins)]
    rfl
  · rw [if_neg hwins, if_neg (mt hbeats.mpr hwins), hcell]

theorem revealBid_refines {amount : Uint64} {nonce : Bytes32} (h : Represents ledger record)
    (hok : revealBid persistentHash sk amount nonce ledger = .ok next) :
    ∃ after, Step record (.opened (deriveBidderId persistentHash sk) amount) after ∧
      Represents next after := by
  obtain ⟨hphase, hlookup, hfresh, rfl⟩ := revealBid_eq_ok_iff.mp hok
  set bidder := deriveBidderId persistentHash sk
  set commitment := computeCommitment persistentHash amount nonce bidder
  have hphase' : record.phase = .reveal := by rw [← h.phase_eq, hphase]
  have hsealed : (bidder, commitment) ∈ record.sealedBids :=
    (h.bidders.lookup_eq_some_iff bidder commitment).mp hlookup
  have hbidder : bidder ∈ record.sealedBids.map Prod.fst := List.mem_map_of_mem hsealed
  have hunopened : bidder ∉ record.openings.map Prod.fst :=
    mt (h.mem_revealed_iff bidder commitment hsealed).mpr hfresh
  obtain ⟨hwinner, hwinningAmount⟩ := h.outcome_of_not_finalized (by simp [hphase])
  have hstill : (record.revealBid bidder amount hphase' hbidder hunopened).award = none :=
    award_of_phase_ne (by simp [AuctionRecord.revealBid, hphase'])
  rw [recordReveal_eq]
  refine ⟨_, .opened hphase' hbidder hunopened, { h with
    mem_revealed_iff := fun other registered hmem ↦ h.mem_insert_revealed_iff hsealed hmem
    revealed_registered := ?_
    card_revealed := ?_
    validRevealCount_eq := ?_
    highestBid_eq := h.cell_of_revealBid hphase' hbidder hunopened Prod.snd h.highestBid_eq
    highestBidder_eq := h.cell_of_revealBid hphase' hbidder hunopened Prod.fst h.highestBidder_eq
    winner_eq := by rw [hstill]; exact hwinner
    winningAmount_eq := by rw [hstill]; exact hwinningAmount }⟩
  · intro registered hmem
    rcases Finset.mem_insert.mp hmem with rfl | hmem
    · rw [h.mem_commitments_iff]
      exact List.mem_map_of_mem hsealed
    · exact h.revealed_registered registered hmem
  · show (insert commitment ledger.revealedCommitments).card =
      (record.openings ++ [(bidder, amount)]).length
    rw [Finset.card_insert_of_notMem hfresh, h.card_revealed, List.length_append,
      List.length_singleton]
  · rw [record.valid_revealBid bidder amount hphase' hbidder hunopened]
    by_cases hreserve : record.reserve ≤ amount
    · simp [h.reserve_eq, hreserve, h.validRevealCount_eq]
    · simp [h.reserve_eq, hreserve, h.validRevealCount_eq]

theorem finalize_refines (h : Represents ledger record) (hok : finalize ledger = .ok next) :
    ∃ after, Step record .settled after ∧ Represents next after := by
  obtain ⟨hphase, rfl⟩ := finalize_eq_ok_iff.mp hok
  have hphase' : record.phase = .reveal := by rw [← h.phase_eq, hphase]
  have haward : record.finalize.award = record.leader := if_pos rfl
  refine ⟨_, .settled hphase', { h with
    phase_eq := rfl
    winner_eq := ?_
    winningAmount_eq := ?_ }⟩
  · rw [haward, h.leader_eq]
    split_ifs <;> rfl
  · rw [haward, h.leader_eq]
    split_ifs <;> rfl

theorem cancel_refines (h : Represents ledger record)
    (hok : cancel persistentHash sk ledger = .ok next) :
    ∃ after, Step record .abandoned after ∧ Represents next after := by
  obtain ⟨_, hphase, hcount, rfl⟩ := cancel_eq_ok_iff.mp hok
  have hempty : record.sealedBids = [] := by
    rw [← List.length_eq_zero_iff, ← h.bidCount_eq, hcount]
  have hopen : ledger.phase ≠ .finalized := by
    rcases hphase with hphase | hphase <;> simp [hphase]
  obtain ⟨hwinner, hamount⟩ := h.outcome_of_not_finalized hopen
  have hcancelled : (record.cancel hempty).award = none :=
    award_of_phase_ne (by simp [AuctionRecord.cancel])
  exact ⟨_, .abandoned (by rwa [← h.phase_eq]) hempty, { h with
    phase_eq := rfl
    winner_eq := by rw [hcancelled]; exact hwinner
    winningAmount_eq := by rw [hcancelled]; exact hamount }⟩

end Calls

/-- Every successful call of the contract is one event of the auction. -/
theorem exec_refines {persistentHash : PersistentHash} {call : Call} {ledger next : Ledger}
    {record : AuctionRecord Bytes32 Bytes32 Uint64} (h : Represents ledger record)
    (hok : exec persistentHash call ledger = .ok next) :
    ∃ after, Step record (call.event persistentHash) after ∧ Represents next after := by
  obtain ⟨sk, circuit⟩ := call
  cases circuit with
  | placeBid sealedBid => exact placeBid_refines h hok
  | closeBidding => exact closeBidding_refines h hok
  | revealBid amount nonce => exact revealBid_refines h hok
  | finalize => exact finalize_refines h hok
  | cancel => exact cancel_refines h hok

/-- A call, whether it succeeds or fails, leaves a ledger that represents an auction. -/
theorem Represents.exists_of_step {persistentHash : PersistentHash} {ledger : Ledger}
    {record : AuctionRecord Bytes32 Bytes32 Uint64} (h : Represents ledger record) (call : Call) :
    ∃ after, Represents (step (exec persistentHash) ledger call) after := by
  by_cases hcall : Succeeds (exec persistentHash) ledger call
  · obtain ⟨after, _, hafter⟩ := exec_refines h hcall.exec_eq
    exact ⟨after, hafter⟩
  · exact ⟨record, by rwa [step_of_not_succeeds hcall]⟩

/-! ### Runs -/

section Runs

variable {persistentHash : PersistentHash} {sk : Bytes32} {reserve bidEnd revealEnd : Uint64}
  {initial : Ledger}

/-- Every run of the contract is the run of the events of the calls that succeeded. -/
theorem run_refines (h : constructor persistentHash sk reserve bidEnd revealEnd = .ok initial)
    (calls : List Call) :
    ∃ record, Steps (start reserve)
        ((successes (exec persistentHash) initial calls).map (Call.event persistentHash)) record ∧
      Represents (run (exec persistentHash) initial calls) record := by
  refine run_history
    (fun ledger history ↦ ∃ record,
      Steps (start reserve) (history.map (Call.event persistentHash)) record ∧
        Represents ledger record) ?_ ⟨_, .refl, represents_constructor h⟩ calls
  rintro ledger history call next ⟨record, hsteps, hrecord⟩ hok
  obtain ⟨after, hstep, hafter⟩ := exec_refines hrecord hok
  refine ⟨after, ?_, hafter⟩
  rw [List.map_append]
  exact hsteps.concat hstep

/-- The ledger after a run represents the auction whose sealed bids are the successful placements
and whose openings are the successful reveals. -/
theorem exists_represents_run
    (h : constructor persistentHash sk reserve bidEnd revealEnd = .ok initial)
    (calls : List Call) :
    ∃ record, Represents (run (exec persistentHash) initial calls) record ∧
      record.reserve = reserve ∧
      record.sealedBids =
        placements persistentHash (successes (exec persistentHash) initial calls) ∧
      record.openings =
        openings persistentHash (successes (exec persistentHash) initial calls) := by
  obtain ⟨record, hsteps, hrecord⟩ := run_refines h calls
  refine ⟨record, hrecord, hsteps.reserve_eq, ?_, ?_⟩
  · rw [hsteps.sealedBids_eq, List.filterMap_map]
    rfl
  · rw [hsteps.openings_eq, List.filterMap_map]
    rfl

end Runs

end SealedBid
