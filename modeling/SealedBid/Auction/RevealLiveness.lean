import SealedBid.Auction.LedgerConsistency
import SealedBid.Auction.RevealLaw

/-!
# What other callers can do to a pending reveal

A bid that can be opened (`Openable`) stays so under every call of another identity except
`finalize` (`Openable.of_exec`): bids and the closing belong to an earlier phase, another identity
opens another commitment because the two maps are inverse to each other, and `cancel` fails on the
bid counter. `finalize` looks at no commitment. It is permissionless and succeeds in the reveal
phase at once, and a finalized auction refuses every reveal, so a pending reveal survives the calls
of others exactly when none of them is a `finalize` (`reveal_after_others_iff`), although the
comments of the contract say that a bidder who has committed cannot be rugged.
-/

set_option autoImplicit false
set_option relaxedAutoImplicit false

namespace SealedBid

open FailSafeRun AuctionRecord

variable {persistentHash : PersistentHash}

/-! ### One call of another identity -/

section Step

variable {sk nonce : Bytes32} {amount : Uint64} {ledger next : Ledger} {call : Call}

/-- A ledger on which a bid is registered has bids. -/
theorem bidCount_pos_of_registered (hconsistent : LedgerConsistent ledger)
    (hopenable : Openable persistentHash sk amount nonce ledger) : 0 < ledger.bidCount := by
  have hmem : deriveBidderId persistentHash sk ∈ ledger.bidderCommitment.keys :=
    Finmap.mem_keys.mpr (Finmap.mem_of_lookup_eq_some hopenable.registered)
  rw [← hconsistent.card_bidderCommitment]
  exact Finset.card_pos.mpr ⟨_, hmem⟩

/-- A pending reveal survives every call of another identity that is not `finalize`. -/
theorem Openable.of_exec (hopenable : Openable persistentHash sk amount nonce ledger)
    (hconsistent : LedgerConsistent ledger)
    (hother : call.bidder persistentHash ≠ deriveBidderId persistentHash sk)
    (hfinalize : call.circuit ≠ .finalize) (hok : exec persistentHash call ledger = .ok next) :
    Openable persistentHash sk amount nonce next := by
  obtain ⟨caller, circuit⟩ := call
  cases circuit with
  | placeBid sealedBid =>
    have hphase := (placeBid_eq_ok_iff.mp hok).1
    rw [hopenable.phase_eq] at hphase
    cases hphase
  | closeBidding =>
    have hphase := (closeBidding_eq_ok_iff.mp hok).2.1
    rw [hopenable.phase_eq] at hphase
    cases hphase
  | revealBid amount' nonce' =>
    obtain ⟨_, hregistered, _, rfl⟩ := revealBid_eq_ok_iff.mp hok
    rw [recordReveal_eq]
    refine ⟨hopenable.phase_eq, hopenable.registered, ?_⟩
    show computeCommitmentFor persistentHash amount nonce sk ∉ insert _ ledger.revealedCommitments
    rw [Finset.mem_insert]
    rintro (hsame | hrevealed)
    · -- both identities would have registered the one commitment
      have hown := hopenable.registered
      rw [hsame] at hown
      exact hother (hconsistent.bidder_unique hown hregistered)
    · exact hopenable.unopened hrevealed
  | finalize => exact absurd rfl hfinalize
  | cancel =>
    have hcount := (cancel_eq_ok_iff.mp hok).2.2.1
    have hpos := bidCount_pos_of_registered hconsistent hopenable
    omega

/-- After the bidding, `finalize` leaves the auction concluded: it succeeds in the reveal phase, and
fails only when the auction is concluded already. -/
theorem concluded_of_finalize (hphase : ledger.phase ≠ .bidding)
    (hcall : call.circuit = .finalize) :
    (step (exec persistentHash) ledger call).phase = .finalized ∨
      (step (exec persistentHash) ledger call).phase = .cancelled := by
  obtain ⟨caller, circuit⟩ := call
  subst hcall
  cases hledger : ledger.phase with
  | bidding => exact absurd hledger hphase
  | reveal =>
    have hok : exec persistentHash ⟨caller, .finalize⟩ ledger = .ok _ :=
      finalize_eq_ok_iff.mpr ⟨hledger, rfl⟩
    rw [step_of_ok hok]
    exact Or.inl rfl
  | finalized =>
    rw [step_of_not_succeeds (not_succeeds_of_concluded (Or.inl hledger) _), hledger]
    exact Or.inl rfl
  | cancelled =>
    rw [step_of_not_succeeds (not_succeeds_of_concluded (Or.inr hledger) _), hledger]
    exact Or.inr rfl

end Step

/-! ### Runs -/

/-- Once somebody finalized after the bidding, every call fails for ever. -/
theorem not_succeeds_after_finalize {ledger : Ledger} (hphase : ledger.phase ≠ .bidding)
    {more : List Call} {call : Call} (hmem : call ∈ more) (hcall : call.circuit = .finalize)
    (later : Call) :
    ¬ Succeeds (exec persistentHash) (run (exec persistentHash) ledger more) later := by
  obtain ⟨before, after, rfl⟩ := List.append_of_mem hmem
  have hbefore : (run (exec persistentHash) ledger before).phase ≠ .bidding :=
    phase_ne_bidding_of_run hphase before
  have hfrozen : ∀ later, ¬ Succeeds (exec persistentHash)
      (step (exec persistentHash) (run (exec persistentHash) ledger before) call) later :=
    not_succeeds_of_concluded (concluded_of_finalize hbefore hcall)
  rw [run_append, run_cons, run_of_frozen hfrozen]
  exact hfrozen later

section Runs

variable {sk : Bytes32} {reserve bidEnd revealEnd : Uint64} {initial : Ledger}

/-- A pending reveal survives every continuation by other identities without `finalize`. -/
theorem Openable.of_run
    (h : constructor persistentHash sk reserve bidEnd revealEnd = .ok initial)
    {calls more : List Call} {bidder nonce : Bytes32} {amount : Uint64}
    (hopenable : Openable persistentHash bidder amount nonce
      (run (exec persistentHash) initial calls))
    (hmore : ∀ call ∈ more, call.bidder persistentHash ≠ deriveBidderId persistentHash bidder ∧
      call.circuit ≠ .finalize) :
    Openable persistentHash bidder amount nonce
      (run (exec persistentHash) (run (exec persistentHash) initial calls) more) := by
  obtain ⟨record, hrecord, _⟩ := exists_represents_run h calls
  refine (run_invariant
    (fun ledger ↦ (∃ record, Represents ledger record) ∧
      Openable persistentHash bidder amount nonce ledger)
    (fun call ↦ call.bidder persistentHash ≠ deriveBidderId persistentHash bidder ∧
      call.circuit ≠ .finalize) ?_ hmore ⟨⟨record, hrecord⟩, hopenable⟩).2
  rintro ledger call next ⟨hother, hfinalize⟩ ⟨⟨record, hrecord⟩, hpending⟩ hok
  obtain ⟨after, _, hafter⟩ := exec_refines hrecord hok
  exact ⟨⟨after, hafter⟩, hpending.of_exec hrecord.consistent hother hfinalize hok⟩

/-- A pending reveal after any calls of others. Assumes: an accepted constructor call, a hash that
separates the identities of the secrets in play, a reachable ledger in the reveal phase on which
the bid of `bidder` is registered and not revealed, and further calls by any of the secrets other
than `bidder`. The reveal still succeeds exactly when none of these calls is a `finalize`. -/
theorem reveal_after_others_iff
    (h : constructor persistentHash sk reserve bidEnd revealEnd = .ok initial)
    {secrets : Set Bytes32} (hseparates : Set.InjOn persistentHash (identityInputs secrets))
    (calls : List Call) {bidder nonce : Bytes32} {amount : Uint64} (hbidder : bidder ∈ secrets)
    (hphase : (run (exec persistentHash) initial calls).phase = .reveal)
    (hregistered : (run (exec persistentHash) initial calls).bidderCommitment.lookup
      (deriveBidderId persistentHash bidder) =
        some (computeCommitment persistentHash amount nonce (deriveBidderId persistentHash bidder)))
    (hunrevealed : computeCommitment persistentHash amount nonce
      (deriveBidderId persistentHash bidder) ∉
        (run (exec persistentHash) initial calls).revealedCommitments)
    {more : List Call}
    (hmore : ∀ call ∈ more, call.secretKey ∈ secrets ∧ call.secretKey ≠ bidder) :
    Succeeds (exec persistentHash)
        (run (exec persistentHash) (run (exec persistentHash) initial calls) more)
        ⟨bidder, .revealBid amount nonce⟩ ↔
      ∀ call ∈ more, call.circuit ≠ .finalize := by
  constructor
  · intro hsucceeds call hmem hcall
    exact not_succeeds_after_finalize (by simp [hphase]) hmem hcall _ hsucceeds
  · intro hnone
    have hopenable : Openable persistentHash bidder amount nonce
        (run (exec persistentHash) initial calls) := ⟨hphase, hregistered, hunrevealed⟩
    refine succeeds_revealBid_iff.mpr (hopenable.of_run h fun call hmem ↦ ⟨?_, hnone call hmem⟩)
    obtain ⟨hsecret, hother⟩ := hmore call hmem
    exact fun hsame ↦ hother ((deriveBidderId_inj hseparates hsecret hbidder).mp hsame)

/-- A reveal of another bidder does not disturb a pending reveal of the harness auction. -/
theorem reveal_after_others_iff_harness :
    Succeeds (exec sampleHash)
      (run (exec sampleHash)
        (run (exec sampleHash) harnessLedger [commitCall 1 150, commitCall 2 250, closeCall])
        [revealCall 2 250])
      (revealCall 1 150) := by
  have hsecret : ∀ sk ∈ [key 1, key 2], sk ∈ {sk | sk ∈ harnessKeys} := by decide
  refine (reveal_after_others_iff harnessLedger_eq sampleHash_separates
    [commitCall 1 150, commitCall 2 250, closeCall] (hsecret (key 1) (by decide))
    (by decide +kernel) (by decide +kernel) (by decide +kernel) ?_).mpr ?_
  · intro call hmem
    rw [List.mem_singleton.mp hmem]
    exact ⟨hsecret (key 2) (by decide), by decide⟩
  · intro call hmem
    rw [List.mem_singleton.mp hmem]
    simp [revealCall]

/-- An outsider finalizes the harness auction as soon as the bidding is closed, and the committed
bid can no longer be opened. -/
theorem reveal_blocked_by_finalize_harness :
    constructor sampleHash (key 0xa0) 100 1000 2000 = .ok harnessLedger ∧
      (run (exec sampleHash) harnessLedger [commitCall 1 150, closeCall]).phase = .reveal ∧
      Succeeds (exec sampleHash)
        (run (exec sampleHash) harnessLedger [commitCall 1 150, closeCall]) (revealCall 1 150) ∧
      (finalizeCall 9).secretKey ≠ (revealCall 1 150).secretKey ∧
      ¬ Succeeds (exec sampleHash)
        (run (exec sampleHash)
          (run (exec sampleHash) harnessLedger [commitCall 1 150, closeCall]) [finalizeCall 9])
        (revealCall 1 150) := by
  have hphase : (run (exec sampleHash) harnessLedger [commitCall 1 150, closeCall]).phase =
      .reveal := by
    decide +kernel
  refine ⟨harnessLedger_eq, hphase, ?_, by decide, ?_⟩
  · exact succeeds_revealBid_iff.mpr ⟨hphase, by decide +kernel, by decide +kernel⟩
  · exact not_succeeds_after_finalize (by simp [hphase]) List.mem_cons_self rfl _

end Runs

end SealedBid
