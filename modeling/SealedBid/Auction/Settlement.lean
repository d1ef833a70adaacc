import SealedBid.Auction.Authority
import SealedBid.Auction.LedgerConsistency

/-!
# What can be settled without the auctioneer

Once bids are registered, `finalize` is the only way to the end of the auction, because `cancel`
fails on the bid counter. In the reveal phase anybody calls it, so the auctioneer cannot hold up the
settlement there. In the bidding phase it fails, and of all callers only the auctioneer closes the
bidding: without the auctioneer the bids stay registered and the auction stays open for ever
(`finalized_without_auctioneer_iff`).
-/

set_option autoImplicit false
set_option relaxedAutoImplicit false

namespace SealedBid

open FailSafeRun

variable {persistentHash : PersistentHash} {sk : Bytes32} {reserve bidEnd revealEnd : Uint64}
  {initial : Ledger}

/-- Where an auction with bids can be settled without the auctioneer. Assumes: an accepted
constructor call with the secret `sk`, a secret `outsider` that does not derive the auctioneer
identity of `sk`, and a reachable ledger that has a registered bid and is not finalized. Some calls
of secrets that do not derive the stored auctioneer identity lead to a finalized ledger exactly when
the phase is reveal. -/
theorem finalized_without_auctioneer_iff
    (h : constructor persistentHash sk reserve bidEnd revealEnd = .ok initial)
    {outsider : Bytes32}
    (houtsider : deriveAuctioneerId persistentHash outsider ≠ deriveAuctioneerId persistentHash sk)
    (calls : List Call)
    (hbid : (run (exec persistentHash) initial calls).commitments ≠ ∅)
    (hopen : (run (exec persistentHash) initial calls).phase ≠ .finalized) :
    (∃ more : List Call,
      (∀ call ∈ more, deriveAuctioneerId persistentHash call.secretKey ≠
        (run (exec persistentHash) initial calls).auctioneer) ∧
      (run (exec persistentHash) (run (exec persistentHash) initial calls) more).phase =
        .finalized) ↔
    (run (exec persistentHash) initial calls).phase = .reveal := by
  set ledger := run (exec persistentHash) initial calls with hledger
  constructor
  · rintro ⟨more, houtsiders, hfinal⟩
    cases hphase : ledger.phase with
    | bidding =>
      have hstays := phase_of_outsiders hphase fun call hmem ↦ (houtsiders call hmem).symm
      rw [hstays] at hfinal
      cases hfinal
    | reveal => rfl
    | finalized => exact absurd hphase hopen
    | cancelled => exact absurd ((consistent_of_run h calls).cancelled_empty hphase).1 hbid
  · intro hphase
    refine ⟨[⟨outsider, .finalize⟩], ?_, ?_⟩
    · intro call hmem
      rw [List.mem_singleton.mp hmem, hledger, auctioneer_of_run h calls]
      exact houtsider
    · have hok : exec persistentHash ⟨outsider, .finalize⟩ ledger = .ok _ :=
        finalize_eq_ok_iff.mpr ⟨hphase, rfl⟩
      rw [run_cons, run_nil, step_of_ok hok]

/-- In the harness auction a bid is registered and the bidding is closed; the settlement does not
need the auctioneer. -/
theorem finalized_without_auctioneer_iff_harness :
    ∃ more : List Call,
      (∀ call ∈ more, deriveAuctioneerId sampleHash call.secretKey ≠
        (run (exec sampleHash) harnessLedger [commitCall 1 150, closeCall]).auctioneer) ∧
      (run (exec sampleHash) (run (exec sampleHash) harnessLedger [commitCall 1 150, closeCall])
        more).phase = .finalized := by
  have houtsider : deriveAuctioneerId sampleHash (key 9) ≠
      deriveAuctioneerId sampleHash (key 0xa0) := by
    decide +kernel
  exact (finalized_without_auctioneer_iff harnessLedger_eq houtsider [commitCall 1 150, closeCall]
    (by decide +kernel) (by decide +kernel)).mpr (by decide +kernel)

/-- In the harness auction a bid is registered and the bidding is open; without the auctioneer it is
never settled. -/
theorem unsettled_while_bidding_harness :
    constructor sampleHash (key 0xa0) 100 1000 2000 = .ok harnessLedger ∧
      (run (exec sampleHash) harnessLedger [commitCall 1 150]).commitments ≠ ∅ ∧
      (run (exec sampleHash) harnessLedger [commitCall 1 150]).phase ≠ .finalized ∧
      ¬ ∃ more : List Call,
        (∀ call ∈ more, deriveAuctioneerId sampleHash call.secretKey ≠
          (run (exec sampleHash) harnessLedger [commitCall 1 150]).auctioneer) ∧
        (run (exec sampleHash) (run (exec sampleHash) harnessLedger [commitCall 1 150])
          more).phase = .finalized := by
  have hphase : (run (exec sampleHash) harnessLedger [commitCall 1 150]).phase = .bidding := by
    decide +kernel
  refine ⟨harnessLedger_eq, by decide +kernel, by simp [hphase], ?_⟩
  rintro ⟨more, houtsiders, hfinal⟩
  have hstays := phase_of_outsiders hphase fun call hmem ↦ (houtsiders call hmem).symm
  rw [hstays] at hfinal
  cases hfinal

end SealedBid
