import SealedBid.Auction.Lifecycle
import SealedBid.Contract.Identities

/-!
# The authority of the auctioneer

Only `closeBidding` and `cancel` leave the bidding phase, and both compare the stored auctioneer
identity with the one derived from the caller's secret. While no call is made with the secret of
the constructor the phase is therefore bidding for ever and only bids are placed
(`authority_of_run`). The phase gates of `revealBid` and `finalize` do the rest: neither circuit
looks at the auctioneer.
-/

set_option autoImplicit false
set_option relaxedAutoImplicit false

namespace SealedBid

open FailSafeRun

variable {persistentHash : PersistentHash}

/-- While bids are collected, a caller who does not derive the auctioneer identity can only place
bids. -/
theorem placeBid_of_outsider {call : Call} {ledger next : Ledger} (hphase : ledger.phase = .bidding)
    (houtsider : ledger.auctioneer ≠ deriveAuctioneerId persistentHash call.secretKey)
    (hok : exec persistentHash call ledger = .ok next) :
    (∃ sealedBid, call.circuit = .placeBid sealedBid) ∧ next.phase = .bidding := by
  obtain ⟨sk, circuit⟩ := call
  cases circuit with
  | placeBid sealedBid =>
    obtain ⟨_, _, _, rfl⟩ := placeBid_eq_ok_iff.mp hok
    exact ⟨⟨sealedBid, rfl⟩, hphase⟩
  | closeBidding => exact absurd (closeBidding_eq_ok_iff.mp hok).1 houtsider
  | revealBid amount nonce =>
    have hreveal := (revealBid_eq_ok_iff.mp hok).1
    rw [hphase] at hreveal
    cases hreveal
  | finalize =>
    have hreveal := (finalize_eq_ok_iff.mp hok).1
    rw [hphase] at hreveal
    cases hreveal
  | cancel => exact absurd (cancel_eq_ok_iff.mp hok).1 houtsider

section Runs

variable {sk : Bytes32} {reserve bidEnd revealEnd : Uint64} {initial : Ledger}

/-- The auctioneer of a reachable ledger is the one of the constructor call. -/
theorem auctioneer_of_run
    (h : constructor persistentHash sk reserve bidEnd revealEnd = .ok initial)
    (calls : List Call) :
    (run (exec persistentHash) initial calls).auctioneer =
      deriveAuctioneerId persistentHash sk := by
  have hextends : Extends initial (run (exec persistentHash) initial calls) :=
    run_extends initial calls
  rw [hextends.auctioneer_eq]
  obtain ⟨_, _, rfl⟩ := constructor_eq_ok_iff.mp h
  rfl

/-- While bids are collected, calls of callers none of whom derives the auctioneer identity leave
the phase bidding. -/
theorem phase_of_outsiders {ledger : Ledger} (hphase : ledger.phase = .bidding)
    {calls : List Call}
    (houtsiders : ∀ call ∈ calls,
      ledger.auctioneer ≠ deriveAuctioneerId persistentHash call.secretKey) :
    (run (exec persistentHash) ledger calls).phase = .bidding := by
  refine (run_invariant
    (fun later : Ledger ↦ later.phase = .bidding ∧ later.auctioneer = ledger.auctioneer)
    (fun call : Call ↦ ledger.auctioneer ≠ deriveAuctioneerId persistentHash call.secretKey)
    ?_ houtsiders ⟨hphase, rfl⟩).1
  rintro later call next houtsider ⟨hlater, hauctioneer⟩ hok
  rw [← hauctioneer] at houtsider
  exact ⟨(placeBid_of_outsider hlater houtsider hok).2,
    (exec_extends hok).auctioneer_eq.trans hauctioneer⟩

/-- The authority of the auctioneer over every run. Assumes: an accepted constructor call with the
secret `sk`, a hash that separates the identities of the secrets in play, and calls by any of these
secrets other than `sk`. The phase is bidding, only `placeBid` calls succeeded, and no bidder
identity, not even that of `sk`, is the stored auctioneer identity. -/
theorem authority_of_run
    (h : constructor persistentHash sk reserve bidEnd revealEnd = .ok initial)
    {secrets : Set Bytes32} (hseparates : Set.InjOn persistentHash (identityInputs secrets))
    (hsk : sk ∈ secrets) {calls : List Call}
    (hcalls : ∀ call ∈ calls, call.secretKey ∈ secrets ∧ call.secretKey ≠ sk) :
    let ledger := run (exec persistentHash) initial calls
    ledger.phase = .bidding ∧
      (∀ call ∈ successes (exec persistentHash) initial calls,
        ∃ sealedBid, call.circuit = .placeBid sealedBid) ∧
      ∀ other ∈ secrets, deriveBidderId persistentHash other ≠ ledger.auctioneer := by
  intro ledger
  have houtsider : ∀ call ∈ calls,
      deriveAuctioneerId persistentHash sk ≠ deriveAuctioneerId persistentHash call.secretKey := by
    intro call hmem hsame
    obtain ⟨hsecret, hother⟩ := hcalls call hmem
    exact hother ((deriveAuctioneerId_inj hseparates hsk hsecret).mp hsame).symm
  have hstart : initial.phase = .bidding ∧
      initial.auctioneer = deriveAuctioneerId persistentHash sk := by
    obtain ⟨_, _, rfl⟩ := constructor_eq_ok_iff.mp h
    exact ⟨rfl, rfl⟩
  have hstays : ∀ some : List Call, (∀ call ∈ some, call ∈ calls) →
      (run (exec persistentHash) initial some).phase = .bidding := by
    intro some hsome
    refine phase_of_outsiders hstart.1 fun call hmem ↦ ?_
    rw [hstart.2]
    exact houtsider call (hsome call hmem)
  refine ⟨hstays calls fun _ hmem ↦ hmem, ?_, ?_⟩
  · intro call hmem
    obtain ⟨before, after, rfl, next, hok⟩ := mem_successes_iff.mp hmem
    have hbefore := hstays before fun other hother ↦ List.mem_append_left _ hother
    refine (placeBid_of_outsider hbefore ?_ hok).1
    rw [auctioneer_of_run h before]
    exact houtsider call (List.mem_append_right _ List.mem_cons_self)
  · intro other hother
    rw [auctioneer_of_run h calls]
    exact deriveBidderId_ne_deriveAuctioneerId hseparates hother hsk

/-- An outsider of the harness auction tries to close it, to finalize it and to place a bid. -/
theorem authority_of_run_harness :
    (run (exec sampleHash) harnessLedger
      [⟨key 9, .closeBidding⟩, finalizeCall 9, commitCall 9 150]).phase = .bidding := by
  have hsecret : ∀ sk ∈ [key 0xa0, key 9], sk ∈ {sk | sk ∈ harnessKeys} := by decide
  refine (authority_of_run harnessLedger_eq sampleHash_separates
    (hsecret (key 0xa0) (by decide)) ?_).1
  intro call hmem
  have hkey : call.secretKey = key 9 := by
    simp only [List.mem_cons, List.not_mem_nil, or_false] at hmem
    rcases hmem with rfl | rfl | rfl <;> rfl
  rw [hkey]
  exact ⟨hsecret (key 9) (by decide), by decide⟩

end Runs

end SealedBid
