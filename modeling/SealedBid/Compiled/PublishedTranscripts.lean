import SealedBid.Auction.Noninterference
import SealedBid.Compiled.Node

/-!
# What the transactions of a bid that never leads tell

The ledger is not all that an observer sees: a transaction shows its entry point and its transcript,
`noop` instructions included, which are the public inputs of its proof. `Published` names what they
consist of. Of the arguments of a call only the commitment of a bid is there, and the amount of a
reveal that becomes the best bid (`transaction_published`); of every other reveal there is whether
it meets the reserve.

So bids that never lead do not interfere with the transactions either (`transactions_agree`): in two
runs as in `noninterference`, the transactions are the same up to one renaming of commitments.

Scope. What a proof tells beyond its public inputs is not modelled, and neither is the commitment to
the arguments that the platform adds to them.
-/

set_option autoImplicit false
set_option relaxedAutoImplicit false

namespace SealedBid.Compiled

open FailSafeRun

variable {persistentHash : PersistentHash}

/-! ### What a transaction shows -/

/-- What a reveal tells of its amount. -/
inductive RevealedAmount
  | belowReserve
  | counted
  | best (amount : Uint64)
  deriving DecidableEq

/-- What a reveal of an amount tells on a ledger. -/
def revealedAmount (amount : Uint64) (ledger : Ledger) : RevealedAmount :=
  if ledger.reservePrice ≤ amount then
    if ledger.highestBid < amount then .best amount else .counted
  else .belowReserve

/-- The part of the declared transcript of a reveal that depends on its amount. -/
def RevealedAmount.declared (bidder : Bytes32) : RevealedAmount → List Op
  | .belowReserve => [.noop 30]
  | .counted => increment 13 1 ++ [.noop 23]
  | .best amount =>
    increment 13 1 ++ (writeCell 8 (newCell (descriptor0.toValue amount)) ++
      writeCell 9 (newCell (descriptor2.toValue bidder)))

/-- What a transaction shows. -/
inductive Published
  | placeBid (sealedBid bidder : Bytes32)
  | closeBidding (auctioneer : Bytes32)
  | revealBid (bidder commitment : Bytes32) (reservePrice highestBid : Uint64)
      (amount : RevealedAmount)
  | finalize (validRevealCount : Uint64) (highestBidder : Bytes32) (highestBid : Uint64)
  | cancel (auctioneer : Bytes32) (phase : Phase)
  deriving DecidableEq

/-- The entry point and the declared transcript that show it. -/
def Published.transaction : Published → EntryPoint × List Op
  | .placeBid sealedBid bidder => (.placeBid, placeBidDeclared sealedBid bidder 0 0)
  | .closeBidding auctioneer => (.closeBidding, closeBiddingTranscript auctioneer)
  | .revealBid bidder commitment reservePrice highestBid amount =>
    (.revealBid, openingDeclared bidder commitment 1 0 reservePrice.val highestBid.val ++
      amount.declared bidder)
  | .finalize validRevealCount highestBidder highestBid =>
    (.finalize, finalizeDeclared validRevealCount.val (leNat highestBidder.toList) highestBid.val)
  | .cancel auctioneer phase => (.cancel, cancelDeclared auctioneer (phaseNumber phase))

/-- What a transaction shows, with another name for every commitment. -/
def Published.rename (rename : Bytes32 → Bytes32) : Published → Published
  | .placeBid sealedBid bidder => .placeBid (rename sealedBid) bidder
  | .closeBidding auctioneer => .closeBidding auctioneer
  | .revealBid bidder commitment reservePrice highestBid amount =>
    .revealBid bidder (rename commitment) reservePrice highestBid amount
  | .finalize validRevealCount highestBidder highestBid =>
    .finalize validRevealCount highestBidder highestBid
  | .cancel auctioneer phase => .cancel auctioneer phase

variable (persistentHash) in
/-- What the transaction of a call shows on a ledger on which the call succeeds. -/
def published (call : Call) (ledger : Ledger) : Published :=
  match call.circuit with
  | .placeBid sealedBid => .placeBid sealedBid (deriveBidderId persistentHash call.secretKey)
  | .closeBidding => .closeBidding (deriveAuctioneerId persistentHash call.secretKey)
  | .revealBid amount nonce =>
    .revealBid (deriveBidderId persistentHash call.secretKey)
      (computeCommitment persistentHash amount nonce
        (deriveBidderId persistentHash call.secretKey)) ledger.reservePrice ledger.highestBid
      (revealedAmount amount ledger)
  | .finalize =>
    .finalize (Fin.ofNat 18446744073709551616 ledger.validRevealCount) ledger.highestBidder
      ledger.highestBid
  | .cancel => .cancel (deriveAuctioneerId persistentHash call.secretKey) ledger.phase

variable (persistentHash) in
/-- The entry point of a call and what its program declares on a ledger. -/
def publicPart (call : Call) (ledger : Ledger) : EntryPoint × List Op :=
  (entryPoint call.circuit, declaredTranscript persistentHash call ledger)

theorem declared_revealedAmount (bidder : Bytes32) (amount : Uint64) (ledger : Ledger) :
    (revealedAmount amount ledger).declared bidder =
      countRevealDeclared bidder amount (decide (ledger.reservePrice ≤ amount))
        (decide (ledger.highestBid < amount)) := by
  by_cases hreserve : ledger.reservePrice ≤ amount
  · by_cases hbest : ledger.highestBid < amount
    · simp only [revealedAmount, countRevealDeclared, hreserve, hbest, if_true, decide_true]
      rfl
    · simp only [revealedAmount, countRevealDeclared, hreserve, hbest, if_true, if_false,
        decide_true, decide_false]
      rfl
  · simp only [revealedAmount, countRevealDeclared, hreserve, if_false, decide_false]
    rfl

/-- The public part of a transaction is made of what `published` names. -/
theorem transaction_published (call : Call) (ledger : Ledger) :
    (published persistentHash call ledger).transaction = publicPart persistentHash call ledger := by
  obtain ⟨secretKey, circuit⟩ := call
  cases circuit with
  | placeBid sealedBid =>
    simp only [publicPart, declaredTranscript, deriveBidderId_eq]
    rfl
  | closeBidding =>
    simp only [publicPart, declaredTranscript, deriveAuctioneerId_eq]
    rfl
  | revealBid amount nonce =>
    simp only [publicPart, declaredTranscript, deriveBidderId_eq, computeCommitment_eq,
      ← declared_revealedAmount]
    rfl
  | finalize => rfl
  | cancel =>
    simp only [publicPart, declaredTranscript, deriveAuctioneerId_eq]
    rfl

/-! ### Two runs -/

section Runs

variable {sk : Bytes32} {reserve bidEnd revealEnd : Uint64} {initial first second : Ledger}
  {quiet : Set Bytes32} {call other : Call}

/-- Reveals that agree on meeting the reserve and become the best bid in neither run tell the
same. -/
theorem revealedAmount_eq (hcells : SameCells first second) {amount amount' : Uint64}
    (hamount : amount' = amount ∨ (first.reservePrice ≤ amount ↔ second.reservePrice ≤ amount') ∧
      ¬ BecomesBest first amount ∧ ¬ BecomesBest second amount') :
    revealedAmount amount' second = revealedAmount amount first := by
  obtain ⟨_, _, _, rfl⟩ := hcells
  rcases hamount with rfl | ⟨hbit, hbest, hbest'⟩
  · rfl
  · unfold revealedAmount
    by_cases hreserve : first.reservePrice ≤ amount
    · have hcounted : ¬ first.highestBid < amount := fun h ↦ hbest ⟨hreserve, h⟩
      have hcounted' : ¬ first.highestBid < amount' := fun h ↦ hbest' ⟨hbit.mp hreserve, h⟩
      rw [if_pos hreserve, if_neg hcounted, if_pos (hbit.mp hreserve), if_neg hcounted']
    · rw [if_neg hreserve, if_neg (mt hbit.mpr hreserve)]

/-- Matched calls show the same, up to the names of commitments. Assumes: both calls succeed, and
the renaming takes the commitment of every identity after the first call to its commitment after the
second. -/
theorem published_rename {next next' : Ledger} (h : Simulates quiet first second)
    (hmatched : Matched persistentHash quiet first second call other)
    (hok : exec persistentHash call first = .ok next)
    (hok' : exec persistentHash other second = .ok next') {rename : Bytes32 → Bytes32}
    (hrename : ∀ bidder commitment commitment',
      next.bidderCommitment.lookup bidder = some commitment →
        next'.bidderCommitment.lookup bidder = some commitment' →
          rename commitment = commitment') :
    published persistentHash other second =
      (published persistentHash call first).rename rename := by
  have hsucceeds : Succeeds (exec persistentHash) first call := ⟨next, hok⟩
  have hextends : Extends first next := exec_extends hok
  have hextends' : Extends second next' := exec_extends hok'
  obtain ⟨sk, circuit⟩ := call
  obtain ⟨sk', circuit'⟩ := other
  obtain rfl : sk' = sk := hmatched.secretKey_eq
  have hkind : circuit.SameCircuit circuit' := hmatched.same_circuit
  cases hkind with
  | placeBid sealedBid sealedBid' =>
    obtain ⟨_, _, _, rfl⟩ := placeBid_eq_ok_iff.mp hok
    obtain ⟨_, _, _, rfl⟩ := placeBid_eq_ok_iff.mp hok'
    have hname : rename sealedBid = sealedBid' :=
      hrename _ _ _ (Finmap.lookup_insert _) (Finmap.lookup_insert _)
    simp only [published, Published.rename, hname]
  | closeBidding => rfl
  | revealBid amount amount' nonce nonce' =>
    obtain ⟨_, hregistered, _, _⟩ := revealBid_eq_ok_iff.mp hok
    obtain ⟨_, hregistered', _, _⟩ := revealBid_eq_ok_iff.mp hok'
    have hname := hrename _ _ _ (hextends.bidderCommitment _ _ hregistered)
      (hextends'.bidderCommitment _ _ hregistered')
    have hamount : revealedAmount amount' second = revealedAmount amount first := by
      refine revealedAmount_eq h.cells ?_
      by_cases hquiet : deriveBidderId persistentHash sk' ∈ quiet
      · exact Or.inr (hmatched.quiet_reveal hquiet hsucceeds _ _ _ _ rfl rfl)
      · exact Or.inl (Circuit.revealBid.inj (hmatched.circuit_eq hquiet)).1
    obtain ⟨_, _, _, hcells⟩ := h.cells
    simp only [published, Published.rename, hname, hamount]
    rw [hcells]
  | finalize =>
    obtain ⟨_, _, _, rfl⟩ := h.cells
    rfl
  | cancel =>
    obtain ⟨_, _, _, rfl⟩ := h.cells
    rfl

/-- Every call of a run is extended to the end of the run. -/
theorem extends_of_split (ledger : Ledger) (before : List Call) (call : Call) (after : List Call) :
    Extends (step (exec persistentHash) (run (exec persistentHash) ledger before) call)
      (run (exec persistentHash) ledger (before ++ call :: after)) := by
  rw [run_append, run_cons]
  exact run_extends _ after

/-- **The transactions of bids that never lead.** In two runs from the ledger of an accepted
constructor call, whose calls are matched position by position for a set of quiet bidders, the
transactions show the same up to one renaming of the commitments in them. The renaming is injective
on the commitments that are registered and fixes those of the other bidders. -/
theorem transactions_agree
    (h : constructor persistentHash sk reserve bidEnd revealEnd = .ok initial)
    {pairs : List (Call × Call)}
    (hcoupled : Coupled (exec persistentHash) (Matched persistentHash quiet) initial initial
      pairs) :
    ∃ rename : Bytes32 → Bytes32,
      Set.InjOn rename {commitment | commitment ∈
        (run (exec persistentHash) initial (pairs.map Prod.fst)).commitments} ∧
      (∀ bidder ∉ quiet, ∀ commitment,
        (run (exec persistentHash) initial (pairs.map Prod.fst)).bidderCommitment.lookup bidder =
          some commitment → rename commitment = commitment) ∧
      observed (exec persistentHash) (publicPart persistentHash) initial (pairs.map Prod.fst) =
        (observed (exec persistentHash) (published persistentHash) initial
          (pairs.map Prod.fst)).map Published.transaction ∧
      observed (exec persistentHash) (publicPart persistentHash) initial (pairs.map Prod.snd) =
        ((observed (exec persistentHash) (published persistentHash) initial
          (pairs.map Prod.fst)).map (Published.rename rename)).map Published.transaction := by
  obtain ⟨hfinal, hfinal', hsimulates⟩ := simulates_of_coupled h hcoupled
  have hpublic : publicPart persistentHash = fun call ledger ↦
      (published persistentHash call ledger).transaction := by
    funext call ledger
    exact (transaction_published call ledger).symm
  refine ⟨renameCommitment (run (exec persistentHash) initial (pairs.map Prod.fst))
      (run (exec persistentHash) initial (pairs.map Prod.snd)),
    hsimulates.renameCommitment_injOn hfinal hfinal', ?_, ?_, ?_⟩
  · intro bidder hloud commitment hfound
    exact renameCommitment_eq hfinal hfound ((hsimulates.lookup_eq bidder hloud).trans hfound)
  · rw [hpublic, observed_map]
  · rw [hpublic, observed_map]
    refine congrArg _ (observed_eq_map ?_)
    rintro before call other after rfl
    obtain ⟨_, _, hbefore⟩ := simulates_of_coupled h hcoupled.of_append
    have hmatched := hcoupled.matched_of_append
    refine ⟨hmatched.succeeds_iff, fun hsucceeds ↦ ?_⟩
    have hok := hsucceeds.exec_eq
    have hok' := (hmatched.succeeds_iff.mp hsucceeds).exec_eq
    refine published_rename hbefore hmatched hok hok' fun bidder _ _ hfound hfound' ↦ ?_
    -- the entries are still there at the end of the two runs
    simp only [List.map_append, List.map_cons] at hfinal ⊢
    exact renameCommitment_eq hfinal
      ((extends_of_split _ _ _ _).bidderCommitment _ _ hfound)
      ((extends_of_split _ _ _ _).bidderCommitment _ _ hfound')

/-- A bidder of the test harness bids 50 in one run and 60 in the other, below the reserve price:
the transactions show the same. -/
theorem transactions_agree_harness :
    ∃ rename : Bytes32 → Bytes32,
      observed (exec sampleHash) (publicPart sampleHash) harnessLedger
          [commitCall 2 60, closeCall, revealCall 2 60] =
        ((observed (exec sampleHash) (published sampleHash) harnessLedger
          [commitCall 2 50, closeCall, revealCall 2 50]).map (Published.rename rename)).map
            Published.transaction := by
  have hcoupled : Coupled (exec sampleHash)
      (Matched sampleHash {deriveBidderId sampleHash (key 2)}) harnessLedger harnessLedger
      [(commitCall 2 50, commitCall 2 60), (closeCall, closeCall),
        (revealCall 2 50, revealCall 2 60)] := by
    have hauctioneer :
        deriveBidderId sampleHash (key 0xa0) ≠ deriveBidderId sampleHash (key 2) := by
      decide +kernel
    refine ⟨⟨rfl, .placeBid _ _, fun hloud ↦ absurd rfl hloud, by decide +kernel, ?_⟩,
      .of_loud hauctioneer (by decide +kernel),
      ⟨rfl, .revealBid _ _ _ _, fun hloud ↦ absurd rfl hloud, by decide +kernel, ?_⟩, trivial⟩
    · intro _ _ amount nonce amount' nonce' hcall
      cases hcall
    · intro _ _ amount nonce amount' nonce' hcall hother
      obtain ⟨rfl, rfl⟩ := Circuit.revealBid.inj hcall
      obtain ⟨rfl, rfl⟩ := Circuit.revealBid.inj hother
      decide +kernel
  obtain ⟨rename, _, _, _, hshown⟩ := transactions_agree harnessLedger_eq hcoupled
  exact ⟨rename, hshown⟩

end Runs

end SealedBid.Compiled
