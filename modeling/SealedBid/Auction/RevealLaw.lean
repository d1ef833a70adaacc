import SealedBid.Auction.Lifecycle
import SealedBid.Client.Commitments
import SealedBid.Contract.Identities

/-!
# When a reveal succeeds

The exact condition of a successful `revealBid`, in terms of the calls that succeeded before it
(`reveal_law_of_run`): the phase is reveal, the caller's identity placed the commitment of the
arguments, and it has not revealed yet. On the ledger the condition is `Openable`, and the circuit
tests the opened commitment against a set that all bidders share; that one bidder cannot use up the
commitment of another is the bijection between the two maps.

The hash has to separate commitments only for the binding, that an identity has one pair of amount
and nonce it can open with. The rest holds for every hash.
-/

set_option autoImplicit false
set_option relaxedAutoImplicit false

namespace SealedBid

open FailSafeRun AuctionRecord

variable {persistentHash : PersistentHash}

/-! ### The condition on the ledger -/

/-- The secret `sk` can open its bid with an amount and a nonce. -/
structure Openable (persistentHash : PersistentHash) (sk : Bytes32) (amount : Uint64)
    (nonce : Bytes32) (ledger : Ledger) : Prop where
  phase_eq : ledger.phase = .reveal
  registered : ledger.bidderCommitment.lookup (deriveBidderId persistentHash sk) =
    some (computeCommitmentFor persistentHash amount nonce sk)
  unopened : computeCommitmentFor persistentHash amount nonce sk ∉ ledger.revealedCommitments

theorem succeeds_revealBid_iff {sk nonce : Bytes32} {amount : Uint64} {ledger : Ledger} :
    Succeeds (exec persistentHash) ledger ⟨sk, .revealBid amount nonce⟩ ↔
      Openable persistentHash sk amount nonce ledger := by
  constructor
  · rintro ⟨next, hok⟩
    obtain ⟨hphase, hregistered, hunopened, _⟩ := revealBid_eq_ok_iff.mp hok
    exact ⟨hphase, hregistered, hunopened⟩
  · intro h
    exact ⟨_, revealBid_eq_ok_iff.mpr ⟨h.phase_eq, h.registered, h.unopened, rfl⟩⟩

/-- On the record of the auction: the identity sealed the commitment and has not opened it. -/
theorem Represents.openable_iff {ledger : Ledger} {record : AuctionRecord Bytes32 Bytes32 Uint64}
    (h : Represents ledger record) {sk nonce : Bytes32} {amount : Uint64} :
    Openable persistentHash sk amount nonce ledger ↔
      ledger.phase = .reveal ∧
        (deriveBidderId persistentHash sk, computeCommitmentFor persistentHash amount nonce sk) ∈
          record.sealedBids ∧
        deriveBidderId persistentHash sk ∉ record.openings.map Prod.fst := by
  constructor
  · intro hopenable
    have hsealed := (h.bidders.lookup_eq_some_iff _ _).mp hopenable.registered
    exact ⟨hopenable.phase_eq, hsealed,
      mt (h.mem_revealed_iff _ _ hsealed).mpr hopenable.unopened⟩
  · rintro ⟨hphase, hsealed, hunopened⟩
    exact ⟨hphase, (h.bidders.lookup_eq_some_iff _ _).mpr hsealed,
      mt (h.mem_revealed_iff _ _ hsealed).mp hunopened⟩

/-! ### The condition on the run -/

/-- One of the calls is a `placeBid` of the commitment by the identity. -/
def PlacedBy (persistentHash : PersistentHash) (calls : List Call) (bidder commitment : Bytes32) :
    Prop :=
  ∃ call ∈ calls, call.bidder persistentHash = bidder ∧ call.circuit = .placeBid commitment

/-- One of the calls is a `revealBid` by the identity. -/
def RevealedBy (persistentHash : PersistentHash) (calls : List Call) (bidder : Bytes32) : Prop :=
  ∃ call ∈ calls, call.bidder persistentHash = bidder ∧
    ∃ amount nonce, call.circuit = .revealBid amount nonce

theorem revealedBy_iff {calls : List Call} {bidder : Bytes32} :
    RevealedBy persistentHash calls bidder ↔
      bidder ∈ (openings persistentHash calls).map Prod.fst := by
  simp only [RevealedBy, List.mem_map, Prod.exists, mem_openings_iff]
  constructor
  · rintro ⟨call, hmem, hbidder, amount, nonce, hcircuit⟩
    exact ⟨bidder, amount, ⟨call, hmem, hbidder, nonce, hcircuit⟩, rfl⟩
  · rintro ⟨_, amount, ⟨call, hmem, hbidder, nonce, hcircuit⟩, rfl⟩
    exact ⟨call, hmem, hbidder, amount, nonce, hcircuit⟩

section Runs

variable {sk : Bytes32} {reserve bidEnd revealEnd : Uint64} {initial : Ledger}

/-- The exact condition of a reveal after a run. -/
theorem openable_of_run_iff
    (h : constructor persistentHash sk reserve bidEnd revealEnd = .ok initial)
    (calls : List Call) {caller nonce : Bytes32} {amount : Uint64} :
    Openable persistentHash caller amount nonce (run (exec persistentHash) initial calls) ↔
      (run (exec persistentHash) initial calls).phase = .reveal ∧
        PlacedBy persistentHash (successes (exec persistentHash) initial calls)
          (deriveBidderId persistentHash caller)
          (computeCommitmentFor persistentHash amount nonce caller) ∧
        ¬ RevealedBy persistentHash (successes (exec persistentHash) initial calls)
          (deriveBidderId persistentHash caller) := by
  obtain ⟨record, hrecord, _, hsealed, hopenings⟩ := exists_represents_run h calls
  rw [hrecord.openable_iff, hsealed, hopenings, mem_placements_iff, revealedBy_iff, PlacedBy]

/-- No identity reveals twice. -/
theorem reveals_pairwise
    (h : constructor persistentHash sk reserve bidEnd revealEnd = .ok initial)
    (calls : List Call) :
    (successes (exec persistentHash) initial calls).Pairwise fun call later ↦
      ∀ amount nonce amount' nonce', call.circuit = .revealBid amount nonce →
        later.circuit = .revealBid amount' nonce' →
          call.bidder persistentHash ≠ later.bidder persistentHash := by
  obtain ⟨record, _, _, _, hopenings⟩ := exists_represents_run h calls
  have hnodup := record.nodup_openings
  rw [hopenings, openings, List.Nodup, List.pairwise_map, List.pairwise_filterMap] at hnodup
  refine hnodup.imp ?_
  intro call later hdistinct amount nonce amount' nonce' hcall hlater
  exact hdistinct (call.bidder persistentHash, amount) (by simp only [Call.event, hcall]; rfl)
    (later.bidder persistentHash, amount') (by simp only [Call.event, hlater]; rfl)

/-- An identity can open its bid in one way only, however long the run goes on. Assumes: a hash
that separates the two commitment inputs. -/
theorem opening_unique {inputs : Set (List Bytes32)}
    (hseparates : Set.InjOn persistentHash inputs) {ledger : Ledger} (more : List Call)
    {caller other nonce nonce' : Bytes32} {amount amount' : Uint64}
    (hsame : deriveBidderId persistentHash caller = deriveBidderId persistentHash other)
    (hinput : commitmentInput amount nonce (deriveBidderId persistentHash caller) ∈ inputs)
    (hinput' : commitmentInput amount' nonce' (deriveBidderId persistentHash other) ∈ inputs)
    (hopenable : Openable persistentHash caller amount nonce ledger)
    (hlater : Openable persistentHash other amount' nonce'
      (run (exec persistentHash) ledger more)) :
    amount = amount' ∧ nonce = nonce' := by
  have hextends : Extends ledger (run (exec persistentHash) ledger more) := run_extends ledger more
  have hkept := hextends.bidderCommitment _ _ hopenable.registered
  rw [hsame, hlater.registered] at hkept
  have hcommitment := (Option.some.inj hkept).symm
  have hpair := computeCommitment_inj hseparates hinput hinput' hcommitment
  exact ⟨hpair.1, hpair.2.1⟩

/-- A reveal opens the commitment that its identity placed, and no other identity placed it. -/
theorem placedBy_of_revealed
    (h : constructor persistentHash sk reserve bidEnd revealEnd = .ok initial) {calls : List Call}
    {call : Call} {amount : Uint64} {nonce : Bytes32}
    (hmem : call ∈ successes (exec persistentHash) initial calls)
    (hcall : call.circuit = .revealBid amount nonce) :
    PlacedBy persistentHash (successes (exec persistentHash) initial calls)
        (call.bidder persistentHash)
        (computeCommitmentFor persistentHash amount nonce call.secretKey) ∧
      ∀ bidder, PlacedBy persistentHash (successes (exec persistentHash) initial calls) bidder
          (computeCommitmentFor persistentHash amount nonce call.secretKey) →
        bidder = call.bidder persistentHash := by
  obtain ⟨before, after, rfl, hsucceeds⟩ := mem_successes_iff.mp hmem
  obtain ⟨caller, circuit⟩ := call
  subst hcall
  have hopenable := succeeds_revealBid_iff.mp hsucceeds
  set calls := before ++ ⟨caller, .revealBid amount nonce⟩ :: after with hcalls
  obtain ⟨record, hrecord, _, hsealed, _⟩ := exists_represents_run h calls
  have hextends : Extends (run (exec persistentHash) initial before)
      (run (exec persistentHash) initial calls) := by
    rw [hcalls, run_append]
    exact run_extends _ _
  have hplaced : (deriveBidderId persistentHash caller,
      computeCommitmentFor persistentHash amount nonce caller) ∈ record.sealedBids :=
    (hrecord.bidders.lookup_eq_some_iff _ _).mp
      (hextends.bidderCommitment _ _ hopenable.registered)
  refine ⟨mem_placements_iff.mp (hsealed ▸ hplaced), fun bidder hbidder ↦ ?_⟩
  exact record.bidder_unique hplaced (hsealed ▸ mem_placements_iff.mpr hbidder)

/-- The law of reveals over every run. Assumes: an accepted constructor call, and a hash that
separates a set of inputs. A reveal succeeds exactly in the reveal phase, by an identity that
placed the commitment of its arguments and has not revealed; no identity reveals twice; an identity
can open with one pair only, then or later, among the pairs whose inputs the hash separates; a
reveal opens the commitment that its own identity placed and no other did; and a bid made by
`sealBid`, with any amount of the contract, opens in the reveal phase once its secret has placed it
and has not revealed. -/
theorem reveal_law_of_run
    (h : constructor persistentHash sk reserve bidEnd revealEnd = .ok initial)
    {inputs : Set (List Bytes32)} (hseparates : Set.InjOn persistentHash inputs)
    (calls : List Call) :
    let ledger := run (exec persistentHash) initial calls
    let successful := successes (exec persistentHash) initial calls
    (∀ caller amount nonce,
      Succeeds (exec persistentHash) ledger ⟨caller, .revealBid amount nonce⟩ ↔
        ledger.phase = .reveal ∧
          PlacedBy persistentHash successful (deriveBidderId persistentHash caller)
            (computeCommitmentFor persistentHash amount nonce caller) ∧
          ¬ RevealedBy persistentHash successful (deriveBidderId persistentHash caller)) ∧
    (successful.Pairwise fun call later ↦
      ∀ amount nonce amount' nonce', call.circuit = .revealBid amount nonce →
        later.circuit = .revealBid amount' nonce' →
          call.bidder persistentHash ≠ later.bidder persistentHash) ∧
    (∀ more caller other amount nonce amount' nonce',
      deriveBidderId persistentHash caller = deriveBidderId persistentHash other →
        commitmentInput amount nonce (deriveBidderId persistentHash caller) ∈ inputs →
        commitmentInput amount' nonce' (deriveBidderId persistentHash other) ∈ inputs →
        Succeeds (exec persistentHash) ledger ⟨caller, .revealBid amount nonce⟩ →
        Succeeds (exec persistentHash) (run (exec persistentHash) ledger more)
          ⟨other, .revealBid amount' nonce'⟩ →
        amount = amount' ∧ nonce = nonce') ∧
    (∀ call ∈ successful, ∀ amount nonce, call.circuit = .revealBid amount nonce →
      PlacedBy persistentHash successful (call.bidder persistentHash)
          (computeCommitmentFor persistentHash amount nonce call.secretKey) ∧
        ∀ bidder, PlacedBy persistentHash successful bidder
            (computeCommitmentFor persistentHash amount nonce call.secretKey) →
          bidder = call.bidder persistentHash) ∧
    (∀ (amount : Uint64) randomNonce caller, ∃ opening,
      sealBid persistentHash randomNonce amount.val caller = .ok opening ∧
        opening.amount = amount.val ∧
        ((∃ call ∈ successful, call.secretKey = caller ∧
            call.circuit = .placeBid opening.commitment) →
          ¬ RevealedBy persistentHash successful opening.bidderId →
          ledger.phase = .reveal →
          Succeeds (exec persistentHash) ledger
            ⟨caller, .revealBid amount opening.nonce⟩)) := by
  intro ledger successful
  refine ⟨?_, reveals_pairwise h calls, ?_, ?_, ?_⟩
  · intro caller amount nonce
    rw [succeeds_revealBid_iff]
    exact openable_of_run_iff h calls
  · intro more caller other amount nonce amount' nonce' hsame hinput hinput' hnow hlater
    exact opening_unique hseparates more hsame hinput hinput' (succeeds_revealBid_iff.mp hnow)
      (succeeds_revealBid_iff.mp hlater)
  · intro call hmem amount nonce hcall
    exact placedBy_of_revealed h hmem hcall
  · intro amount randomNonce caller
    refine ⟨_, sealBid_val persistentHash randomNonce amount caller, rfl, ?_⟩
    rintro ⟨call, hmem, hsecret, hcall⟩ hunrevealed hphase
    rw [succeeds_revealBid_iff]
    refine (openable_of_run_iff h calls).mpr ⟨hphase, ⟨call, hmem, ?_, hcall⟩, hunrevealed⟩
    rw [Call.bidder, hsecret]

/-- A bid that was sealed with `sealBid` and placed in the harness auction opens once the bidding
is closed. -/
theorem reveal_law_of_run_harness :
    Succeeds (exec sampleHash) (run (exec sampleHash) harnessLedger [commitCall 1 150, closeCall])
      (revealCall 1 150) := by
  have hsuccesses : successes (exec sampleHash) harnessLedger [commitCall 1 150, closeCall] =
      [commitCall 1 150, closeCall] := by
    decide +kernel
  have hseparates : Set.InjOn sampleHash
      {commitmentInput 150 (key 0x5a) (deriveBidderId sampleHash (key 1)),
        commitmentInput 250 (key 0x5a) (deriveBidderId sampleHash (key 1))} :=
    Set.injOn_pair.mpr fun hsame ↦ absurd hsame (by decide +kernel)
  have hlaw := (reveal_law_of_run harnessLedger_eq hseparates
    [commitCall 1 150, closeCall]).1 (key 1) 150 (key 0x5a)
  rw [hsuccesses] at hlaw
  refine hlaw.mpr ⟨by decide +kernel, ⟨commitCall 1 150, List.mem_cons_self, rfl, rfl⟩, ?_⟩
  simp [RevealedBy, commitCall, closeCall]

end Runs

end SealedBid
