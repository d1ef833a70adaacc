import SealedBid.Auction.LedgerRefinement

/-!
# The cells of a reachable ledger agree

Seven cells of the ledger are written by different circuits and must stay consistent with each
other. `LedgerConsistent` states how: the two maps are inverse to each other and have `bidCount`
entries, only registered commitments are revealed, the counters are ordered, the running best is
present exactly when the reveal counter is not zero and belongs to a revealed commitment, nothing is
revealed while bids are collected, and a cancelled auction is empty. Each of these facts holds of
every ledger that represents an auction record (`Represents.consistent`), so of every reachable one
(`consistent_of_run`).
-/

set_option autoImplicit false
set_option relaxedAutoImplicit false

namespace SealedBid

open FailSafeRun AuctionRecord MapEnumeration

/-- The cells of a ledger agree. -/
structure LedgerConsistent (ledger : Ledger) : Prop where
  inverse : ∀ commitment bidder, ledger.commitments.lookup commitment = some bidder ↔
    ledger.bidderCommitment.lookup bidder = some commitment
  card_commitments : ledger.commitments.keys.card = ledger.bidCount
  card_bidderCommitment : ledger.bidderCommitment.keys.card = ledger.bidCount
  revealed_registered : ∀ commitment ∈ ledger.revealedCommitments, commitment ∈ ledger.commitments
  validRevealCount_le : ledger.validRevealCount ≤ ledger.revealedCommitments.card
  card_revealed_le : ledger.revealedCommitments.card ≤ ledger.bidCount
  validRevealCount_eq_zero_iff : ledger.validRevealCount = 0 ↔ ledger.highestBid = 0
  best_meets_reserve : ledger.validRevealCount ≠ 0 → ledger.reservePrice ≤ ledger.highestBid
  best_revealed : ledger.validRevealCount ≠ 0 →
    ∃ commitment, ledger.bidderCommitment.lookup ledger.highestBidder = some commitment ∧
      commitment ∈ ledger.revealedCommitments
  bidding_unrevealed : ledger.phase = .bidding → ledger.revealedCommitments = ∅
  cancelled_empty : ledger.phase = .cancelled →
    ledger.commitments = ∅ ∧ ledger.bidderCommitment = ∅ ∧ ledger.bidCount = 0

/-- Two identities never have one commitment. -/
theorem LedgerConsistent.bidder_unique {ledger : Ledger} (hconsistent : LedgerConsistent ledger)
    {bidder other commitment : Bytes32}
    (hbidder : ledger.bidderCommitment.lookup bidder = some commitment)
    (hother : ledger.bidderCommitment.lookup other = some commitment) : other = bidder := by
  rw [← hconsistent.inverse] at hbidder hother
  rw [hbidder] at hother
  exact (Option.some.inj hother).symm

namespace Represents

variable {ledger : Ledger} {record : AuctionRecord Bytes32 Bytes32 Uint64}

theorem card_commitments (h : Represents ledger record) :
    ledger.commitments.keys.card = ledger.bidCount := by
  rw [h.registered.card_keys, List.length_map, h.bidCount_eq]

theorem card_revealed_le (h : Represents ledger record) :
    ledger.revealedCommitments.card ≤ ledger.bidCount := by
  have hsubset : ledger.revealedCommitments ⊆ ledger.commitments.keys := fun commitment hmem ↦
    Finmap.mem_keys.mpr (h.revealed_registered commitment hmem)
  have hcard := Finset.card_le_card hsubset
  rwa [h.card_commitments] at hcard

theorem validRevealCount_le (h : Represents ledger record) :
    ledger.validRevealCount ≤ ledger.revealedCommitments.card := by
  rw [h.validRevealCount_eq, h.card_revealed]
  exact List.length_filter_le _ _

/-- An opening that leads meets the positive reserve, so its amount is not zero. -/
theorem validRevealCount_eq_zero_iff_highestBid (h : Represents ledger record) :
    ledger.validRevealCount = 0 ↔ ledger.highestBid = 0 := by
  rw [h.validRevealCount_eq_zero_iff]
  constructor
  · exact h.highestBid_of_leader_none
  · intro hzero
    by_contra hsome
    obtain ⟨best, hleader⟩ := Option.ne_none_iff_exists'.mp hsome
    have hreserve := reserve_le_of_leader hleader
    rw [h.eq_of_leader_some hleader, ← h.reserve_eq, hzero] at hreserve
    exact absurd h.reserve_pos (not_lt.mpr hreserve)

theorem best_meets_reserve (h : Represents ledger record) (hcount : ledger.validRevealCount ≠ 0) :
    ledger.reservePrice ≤ ledger.highestBid := by
  obtain ⟨best, hleader⟩ :=
    Option.ne_none_iff_exists'.mp (mt h.validRevealCount_eq_zero_iff.mpr hcount)
  have hreserve := reserve_le_of_leader hleader
  rwa [h.eq_of_leader_some hleader, ← h.reserve_eq] at hreserve

/-- The leading opening is one of the openings, so its identity registered a commitment and
revealed it. -/
theorem best_revealed (h : Represents ledger record) (hcount : ledger.validRevealCount ≠ 0) :
    ∃ commitment, ledger.bidderCommitment.lookup ledger.highestBidder = some commitment ∧
      commitment ∈ ledger.revealedCommitments := by
  obtain ⟨best, hleader⟩ :=
    Option.ne_none_iff_exists'.mp (mt h.validRevealCount_eq_zero_iff.mpr hcount)
  have hmem : best ∈ record.openings := (List.mem_filter.mp (List.argmax_mem hleader)).1
  rw [h.eq_of_leader_some hleader] at hmem
  have hopened : ledger.highestBidder ∈ record.openings.map Prod.fst := List.mem_map_of_mem hmem
  obtain ⟨⟨bidder, commitment⟩, hsealed, hbidder⟩ :=
    List.mem_map.mp (record.openings_sealed _ hopened)
  obtain rfl : bidder = ledger.highestBidder := hbidder
  exact ⟨commitment, (h.bidders.lookup_eq_some_iff _ _).mpr hsealed,
    (h.mem_revealed_iff _ _ hsealed).mpr hopened⟩

/-- A map listed by nothing is empty. -/
theorem cancelled_empty (h : Represents ledger record) (hphase : ledger.phase = .cancelled) :
    ledger.commitments = ∅ ∧ ledger.bidderCommitment = ∅ ∧ ledger.bidCount = 0 := by
  have hempty := record.cancelled_unsealed (by rw [← h.phase_eq, hphase])
  have hregistered := h.registered
  have hbidders := h.bidders
  rw [hempty] at hregistered hbidders
  exact ⟨hregistered.eq_of_perm enumerates_empty (List.Perm.refl []),
    hbidders.eq_of_perm enumerates_empty (List.Perm.refl []), by rw [h.bidCount_eq, hempty]; rfl⟩

/-- The cells of a ledger that represents an auction record agree. -/
theorem consistent (h : Represents ledger record) : LedgerConsistent ledger where
  inverse := fun commitment bidder ↦
    (h.bidders.lookup_eq_some_iff_swap h.registered bidder commitment).symm
  card_commitments := h.card_commitments
  card_bidderCommitment := by rw [h.bidders.card_keys, h.bidCount_eq]
  revealed_registered := h.revealed_registered
  validRevealCount_le := h.validRevealCount_le
  card_revealed_le := h.card_revealed_le
  validRevealCount_eq_zero_iff := h.validRevealCount_eq_zero_iff_highestBid
  best_meets_reserve := h.best_meets_reserve
  best_revealed := h.best_revealed
  bidding_unrevealed := by
    intro hphase
    have hunopened := record.bidding_unopened (by rw [← h.phase_eq, hphase])
    rw [← Finset.card_eq_zero, h.card_revealed, hunopened, List.length_nil]
  cancelled_empty := h.cancelled_empty

end Represents

/-- The cells of every reachable ledger agree. Assumes: an accepted constructor call. -/
theorem consistent_of_run {persistentHash : PersistentHash} {sk : Bytes32}
    {reserve bidEnd revealEnd : Uint64} {initial : Ledger}
    (h : constructor persistentHash sk reserve bidEnd revealEnd = .ok initial)
    (calls : List Call) : LedgerConsistent (run (exec persistentHash) initial calls) := by
  obtain ⟨record, hrecord, _⟩ := exists_represents_run h calls
  exact hrecord.consistent

/-- After two bids are placed and one of them is opened, the cells of the harness ledger agree. -/
theorem consistent_of_run_harness :
    LedgerConsistent (run (exec sampleHash) harnessLedger
      [commitCall 1 150, commitCall 2 250, closeCall, revealCall 1 150]) :=
  consistent_of_run harnessLedger_eq _

end SealedBid
