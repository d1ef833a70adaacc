import SealedBid.Auction.LedgerConsistency
import SealedBid.Auction.RevealLaw

/-!
# When a bid can be registered

`placeBid` compares the commitment with all registered commitments and never with the identity of
the caller, so the first call that submits a commitment registers it, whoever makes it. A bidder who
has not placed a bid can register a commitment exactly while nobody has placed the same 32 bytes
(`registration_law_of_run`): a copy that arrives first blocks the commitment it was copied from,
and nothing else does. The entry of a registered commitment names the identity that placed it,
which need not be the identity hashed into it.
-/

set_option autoImplicit false
set_option relaxedAutoImplicit false

namespace SealedBid

open FailSafeRun AuctionRecord

variable {persistentHash : PersistentHash}

theorem succeeds_placeBid_iff {sk sealedBid : Bytes32} {ledger : Ledger} :
    Succeeds (exec persistentHash) ledger ⟨sk, .placeBid sealedBid⟩ ↔
      ledger.phase = .bidding ∧ sealedBid ∉ ledger.commitments ∧
        deriveBidderId persistentHash sk ∉ ledger.bidderCommitment := by
  constructor
  · rintro ⟨next, hok⟩
    obtain ⟨hphase, hcommitment, hbidder, _⟩ := placeBid_eq_ok_iff.mp hok
    exact ⟨hphase, hcommitment, hbidder⟩
  · rintro ⟨hphase, hcommitment, hbidder⟩
    exact ⟨_, placeBid_eq_ok_iff.mpr ⟨hphase, hcommitment, hbidder, rfl⟩⟩

section Runs

variable {sk : Bytes32} {reserve bidEnd revealEnd : Uint64} {initial : Ledger}

/-- The entry of a commitment is the identity that placed it. -/
theorem commitments_lookup_iff_placedBy
    (h : constructor persistentHash sk reserve bidEnd revealEnd = .ok initial)
    (calls : List Call) (commitment bidder : Bytes32) :
    (run (exec persistentHash) initial calls).commitments.lookup commitment = some bidder ↔
      PlacedBy persistentHash (successes (exec persistentHash) initial calls) bidder
        commitment := by
  obtain ⟨record, hrecord, _, hsealed, _⟩ := exists_represents_run h calls
  rw [hrecord.consistent.inverse, hrecord.bidders.lookup_eq_some_iff, hsealed, mem_placements_iff,
    PlacedBy]

/-- An identity has an entry exactly when it placed a bid. -/
theorem mem_bidderCommitment_iff_placedBy
    (h : constructor persistentHash sk reserve bidEnd revealEnd = .ok initial)
    (calls : List Call) (bidder : Bytes32) :
    bidder ∈ (run (exec persistentHash) initial calls).bidderCommitment ↔
      ∃ commitment, PlacedBy persistentHash (successes (exec persistentHash) initial calls) bidder
        commitment := by
  rw [Finmap.mem_iff]
  refine exists_congr fun commitment ↦ ?_
  rw [← (consistent_of_run h calls).inverse, commitments_lookup_iff_placedBy h calls]

/-- The law of registrations over every run. Assumes: an accepted constructor call. While bids are
collected, a secret that has not placed a bid registers the commitment of an amount and a nonce
exactly when no identity has placed the same commitment; and in every ledger the entry of a
commitment is the identity whose `placeBid` of it succeeded, the only one there is. -/
theorem registration_law_of_run
    (h : constructor persistentHash sk reserve bidEnd revealEnd = .ok initial)
    (calls : List Call) :
    let ledger := run (exec persistentHash) initial calls
    let successful := successes (exec persistentHash) initial calls
    (ledger.phase = .bidding → ∀ caller amount nonce,
      (¬ ∃ commitment, PlacedBy persistentHash successful (deriveBidderId persistentHash caller)
        commitment) →
      (Succeeds (exec persistentHash) ledger
          ⟨caller, .placeBid (computeCommitmentFor persistentHash amount nonce caller)⟩ ↔
        ¬ ∃ copier, PlacedBy persistentHash successful copier
          (computeCommitmentFor persistentHash amount nonce caller))) ∧
    (∀ commitment bidder, ledger.commitments.lookup commitment = some bidder ↔
      PlacedBy persistentHash successful bidder commitment) ∧
    (∀ commitment bidder other, PlacedBy persistentHash successful bidder commitment →
      PlacedBy persistentHash successful other commitment → other = bidder) := by
  intro ledger successful
  refine ⟨?_, commitments_lookup_iff_placedBy h calls, ?_⟩
  · intro hphase caller amount nonce hunplaced
    have hbidder : deriveBidderId persistentHash caller ∉ ledger.bidderCommitment :=
      mt (mem_bidderCommitment_iff_placedBy h calls _).mp hunplaced
    have hcommitment : computeCommitmentFor persistentHash amount nonce caller ∈
        ledger.commitments ↔ ∃ copier, PlacedBy persistentHash successful copier
          (computeCommitmentFor persistentHash amount nonce caller) := by
      rw [Finmap.mem_iff]
      exact exists_congr fun copier ↦ commitments_lookup_iff_placedBy h calls _ copier
    rw [succeeds_placeBid_iff, ← hcommitment]
    constructor
    · exact fun hsucceeds ↦ hsucceeds.2.1
    · exact fun hfresh ↦ ⟨hphase, hfresh, hbidder⟩
  · intro commitment bidder other hbidder hother
    rw [← commitments_lookup_iff_placedBy h calls] at hbidder hother
    exact Option.some.inj (hother.symm.trans hbidder)

/-- Another bidder has placed a bid in the harness auction, and the first bidder still registers
its own. -/
theorem registration_law_of_run_harness :
    Succeeds (exec sampleHash) (run (exec sampleHash) harnessLedger [commitCall 2 250])
      (commitCall 1 150) := by
  have hsuccesses : successes (exec sampleHash) harnessLedger [commitCall 2 250] =
      [commitCall 2 250] := by
    decide +kernel
  have hlaw := (registration_law_of_run harnessLedger_eq [commitCall 2 250]).1
    (by decide +kernel) (key 1) 150 (key 0x5a)
  rw [hsuccesses] at hlaw
  have hother : deriveBidderId sampleHash (key 2) ≠ deriveBidderId sampleHash (key 1) := by
    decide +kernel
  have hfresh : (commitCall 2 250).circuit ≠
      .placeBid (computeCommitmentFor sampleHash 150 (key 0x5a) (key 1)) := by
    decide +kernel
  refine (hlaw ?_).mpr ?_
  · rintro ⟨commitment, call, hmem, hbidder, _⟩
    rw [List.mem_singleton.mp hmem] at hbidder
    exact hother hbidder
  · rintro ⟨copier, call, hmem, _, hcall⟩
    rw [List.mem_singleton.mp hmem] at hcall
    exact hfresh hcall

/-- An outsider of the harness auction submits a copy of the commitment of the first bidder before
the bidder does: the bidder's own call then fails, and the entry of its commitment names the
outsider. -/
theorem registration_blocked_by_copy_harness :
    let commitment := computeCommitmentFor sampleHash 150 (key 0x5a) (key 1)
    let ledger := run (exec sampleHash) harnessLedger [⟨key 9, .placeBid commitment⟩]
    constructor sampleHash (key 0xa0) 100 1000 2000 = .ok harnessLedger ∧
      Set.InjOn sampleHash (insert
        (commitmentInput 150 (key 0x5a) (deriveBidderId sampleHash (key 1)))
        (identityInputs {sk | sk ∈ harnessKeys})) ∧
      ledger.phase = .bidding ∧
      deriveBidderId sampleHash (key 1) ∉ ledger.bidderCommitment ∧
      ¬ Succeeds (exec sampleHash) ledger ⟨key 1, .placeBid commitment⟩ ∧
      ledger.commitments.lookup commitment = some (deriveBidderId sampleHash (key 9)) := by
  intro commitment ledger
  refine ⟨harnessLedger_eq, ?_, by decide +kernel, by decide +kernel, ?_, by decide +kernel⟩
  · have hfresh : ∀ sk ∈ harnessKeys, computeCommitmentFor sampleHash 150 (key 0x5a) (key 1) ≠
        deriveBidderId sampleHash sk ∧ computeCommitmentFor sampleHash 150 (key 0x5a) (key 1) ≠
          deriveAuctioneerId sampleHash sk := by
      decide +kernel
    refine (Set.injOn_insert ?_).mpr ⟨sampleHash_separates, ?_⟩
    · rintro ⟨sk, _, hinput | hinput⟩ <;> simp [commitmentInput] at hinput
    · rintro ⟨input, ⟨sk, hsk, rfl | rfl⟩, hsame⟩
      · exact (hfresh sk hsk).1 hsame.symm
      · exact (hfresh sk hsk).2 hsame.symm
  · intro hsucceeds
    exact (succeeds_placeBid_iff.mp hsucceeds).2.1 (by decide +kernel)

end Runs

end SealedBid
