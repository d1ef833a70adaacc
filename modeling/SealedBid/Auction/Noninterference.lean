import SealedBid.Auction.LedgerConsistency
import SealedBid.Auction.Lifecycle

/-!
# What a bid that never leads tells

Two runs proceed side by side from one ledger. The callers, the circuits and the outcomes are the
same, and only a set `quiet` of bidder identities seals and opens different bids in the two runs.
When the reveals of these bidders agree on meeting the reserve and never become the best bid, the
two ledgers agree after every prefix up to a renaming of commitments (`noninterference`): the
renaming is one function for the whole run, it is injective on the registered commitments, it takes
the commitment of an identity in the first run to its commitment in the second, and it fixes the
commitments of the other identities.

The proof is a simulation. `Simulates` relates the two ledgers without the renaming, identity by
identity, and every matched pair of calls keeps it (`simulates_step`); the renaming is read off the
two final ledgers (`renameCommitment`), and holds of the earlier ones because entries of the maps
persist.
-/

set_option autoImplicit false
set_option relaxedAutoImplicit false

namespace SealedBid

open FailSafeRun AuctionRecord MapEnumeration

/-! ### Matched calls -/

/-- Two calls of one circuit, with any arguments. -/
inductive Circuit.SameCircuit : Circuit → Circuit → Prop
  | placeBid (sealedBid sealedBid' : Bytes32) :
      SameCircuit (.placeBid sealedBid) (.placeBid sealedBid')
  | closeBidding : SameCircuit .closeBidding .closeBidding
  | revealBid (amount amount' : Uint64) (nonce nonce' : Bytes32) :
      SameCircuit (.revealBid amount nonce) (.revealBid amount' nonce')
  | finalize : SameCircuit .finalize .finalize
  | cancel : SameCircuit .cancel .cancel

/-- The condition under which `revealBid` writes the amount. -/
def BecomesBest (ledger : Ledger) (amount : Uint64) : Prop :=
  ledger.reservePrice ≤ amount ∧ ledger.highestBid < amount

instance decidableBecomesBest (ledger : Ledger) (amount : Uint64) :
    Decidable (BecomesBest ledger amount) :=
  inferInstanceAs (Decidable (_ ∧ _))

/-- The two calls at one position of the runs: the caller, the circuit and the outcome are the same,
the arguments are the same unless the caller is one of the quiet bidders, and a reveal of a quiet
bidder agrees on meeting the reserve and becomes the best bid in neither run. -/
structure Matched (persistentHash : PersistentHash) (quiet : Set Bytes32) (first second : Ledger)
    (call other : Call) : Prop where
  secretKey_eq : other.secretKey = call.secretKey
  same_circuit : call.circuit.SameCircuit other.circuit
  circuit_eq : call.bidder persistentHash ∉ quiet → other.circuit = call.circuit
  succeeds_iff : Succeeds (exec persistentHash) first call ↔
    Succeeds (exec persistentHash) second other
  quiet_reveal : call.bidder persistentHash ∈ quiet → Succeeds (exec persistentHash) first call →
    ∀ amount nonce amount' nonce', call.circuit = .revealBid amount nonce →
      other.circuit = .revealBid amount' nonce' →
        (first.reservePrice ≤ amount ↔ second.reservePrice ≤ amount') ∧
          ¬ BecomesBest first amount ∧ ¬ BecomesBest second amount'

/-- The same call of a bidder that is not quiet is matched with itself when its outcome is the
same. -/
theorem Matched.of_loud {persistentHash : PersistentHash} {quiet : Set Bytes32}
    {first second : Ledger} {call : Call} (hloud : call.bidder persistentHash ∉ quiet)
    (hsucceeds : Succeeds (exec persistentHash) first call ↔
      Succeeds (exec persistentHash) second call) :
    Matched persistentHash quiet first second call call where
  secretKey_eq := rfl
  same_circuit := by
    cases call.circuit with
    | placeBid sealedBid => exact .placeBid _ _
    | closeBidding => exact .closeBidding
    | revealBid amount nonce => exact .revealBid _ _ _ _
    | finalize => exact .finalize
    | cancel => exact .cancel
  circuit_eq := fun _ ↦ rfl
  succeeds_iff := hsucceeds
  quiet_reveal := fun hquiet ↦ absurd hquiet hloud

/-! ### The simulation -/

/-- The second ledger differs from the first at most in the two maps and the set of revealed
commitments. -/
def SameCells (first second : Ledger) : Prop :=
  ∃ commitments bidderCommitment revealedCommitments, second = { first with
    commitments := commitments
    bidderCommitment := bidderCommitment
    revealedCommitments := revealedCommitments }

/-- The two ledgers agree, identity by identity: the same cells, the same identities registered,
the same commitments of the identities that are not quiet, and the same identities revealed. -/
structure Simulates (quiet : Set Bytes32) (first second : Ledger) : Prop where
  cells : SameCells first second
  mem_iff : ∀ bidder, bidder ∈ first.bidderCommitment ↔ bidder ∈ second.bidderCommitment
  lookup_eq : ∀ bidder ∉ quiet,
    second.bidderCommitment.lookup bidder = first.bidderCommitment.lookup bidder
  revealed_iff : ∀ bidder commitment commitment',
    first.bidderCommitment.lookup bidder = some commitment →
      second.bidderCommitment.lookup bidder = some commitment' →
        (commitment ∈ first.revealedCommitments ↔ commitment' ∈ second.revealedCommitments)

theorem Simulates.refl (quiet : Set Bytes32) (ledger : Ledger) : Simulates quiet ledger ledger where
  cells := ⟨_, _, _, rfl⟩
  mem_iff := fun _ ↦ Iff.rfl
  lookup_eq := fun _ _ ↦ rfl
  revealed_iff := by
    intro bidder commitment commitment' h h'
    rw [h] at h'
    rw [Option.some.inj h']

section Steps

variable {persistentHash : PersistentHash} {quiet : Set Bytes32} {sk : Bytes32}
  {first second next next' : Ledger}

/-- Bids of one identity in the two runs. -/
theorem Simulates.placeBid (h : Simulates quiet first second) (hfirst : LedgerConsistent first)
    (hsecond : LedgerConsistent second) {sealedBid sealedBid' : Bytes32}
    (hsame : deriveBidderId persistentHash sk ∉ quiet → sealedBid' = sealedBid)
    (hok : SealedBid.placeBid persistentHash sk sealedBid first = .ok next)
    (hok' : SealedBid.placeBid persistentHash sk sealedBid' second = .ok next') :
    Simulates quiet next next' := by
  obtain ⟨_, hfresh, _, rfl⟩ := placeBid_eq_ok_iff.mp hok
  obtain ⟨_, hfresh', _, rfl⟩ := placeBid_eq_ok_iff.mp hok'
  set bidder := deriveBidderId persistentHash sk
  refine ⟨?_, fun other ↦ ?_, fun other hother ↦ ?_, ?_⟩
  · obtain ⟨_, _, _, rfl⟩ := h.cells
    exact ⟨_, _, _, rfl⟩
  · show other ∈ first.bidderCommitment.insert bidder sealedBid ↔
      other ∈ second.bidderCommitment.insert bidder sealedBid'
    rw [Finmap.mem_insert, Finmap.mem_insert, h.mem_iff]
  · show (second.bidderCommitment.insert bidder sealedBid').lookup other =
      (first.bidderCommitment.insert bidder sealedBid).lookup other
    by_cases hbidder : other = bidder
    · subst hbidder
      rw [hsame hother, Finmap.lookup_insert, Finmap.lookup_insert]
    · rw [Finmap.lookup_insert_of_ne _ hbidder, Finmap.lookup_insert_of_ne _ hbidder,
        h.lookup_eq other hother]
  · intro other commitment commitment' hfound hfound'
    rcases (lookup_insert_eq_some_iff _ _ _ _ _).mp hfound with ⟨rfl, rfl⟩ | ⟨hne, hfound⟩
    · -- a commitment that was not registered was not revealed
      rcases (lookup_insert_eq_some_iff _ _ _ _ _).mp hfound' with ⟨_, rfl⟩ | ⟨hne, _⟩
      · exact iff_of_false (mt (hfirst.revealed_registered sealedBid) hfresh)
          (mt (hsecond.revealed_registered sealedBid') hfresh')
      · exact absurd rfl hne
    · rcases (lookup_insert_eq_some_iff _ _ _ _ _).mp hfound' with ⟨hbidder, _⟩ | ⟨_, hfound'⟩
      · exact absurd hbidder hne
      · exact h.revealed_iff other commitment commitment' hfound hfound'

/-- Reveals of one identity in the two runs. -/
theorem Simulates.revealBid (h : Simulates quiet first second) (hfirst : LedgerConsistent first)
    (hsecond : LedgerConsistent second) {amount amount' : Uint64} {nonce nonce' : Bytes32}
    (hamount : amount' = amount ∨ (first.reservePrice ≤ amount ↔ second.reservePrice ≤ amount') ∧
      ¬ BecomesBest first amount ∧ ¬ BecomesBest second amount')
    (hok : SealedBid.revealBid persistentHash sk amount nonce first = .ok next)
    (hok' : SealedBid.revealBid persistentHash sk amount' nonce' second = .ok next') :
    Simulates quiet next next' := by
  obtain ⟨_, hregistered, _, rfl⟩ := revealBid_eq_ok_iff.mp hok
  obtain ⟨_, hregistered', _, rfl⟩ := revealBid_eq_ok_iff.mp hok'
  rw [recordReveal_eq, recordReveal_eq]
  refine ⟨?_, h.mem_iff, h.lookup_eq, ?_⟩
  · obtain ⟨_, _, _, rfl⟩ := h.cells
    rcases hamount with rfl | ⟨hbit, hbest, hbest'⟩
    · exact ⟨_, _, _, rfl⟩
    · unfold BecomesBest at hbest hbest'
      simp only [if_neg hbest, if_neg hbest', if_congr hbit rfl rfl]
      exact ⟨_, _, _, rfl⟩
  · intro other commitment commitment' hfound hfound'
    simp only [Finset.mem_insert]
    by_cases hbidder : other = deriveBidderId persistentHash sk
    · subst hbidder
      rw [hregistered] at hfound
      rw [hregistered'] at hfound'
      exact iff_of_true (Or.inl (Option.some.inj hfound).symm)
        (Or.inl (Option.some.inj hfound').symm)
    · -- the commitments of another identity are not the ones opened now
      have hne : commitment ≠ computeCommitment persistentHash amount nonce
          (deriveBidderId persistentHash sk) := by
        rintro rfl
        exact hbidder (hfirst.bidder_unique hregistered hfound)
      have hne' : commitment' ≠ computeCommitment persistentHash amount' nonce'
          (deriveBidderId persistentHash sk) := by
        rintro rfl
        exact hbidder (hsecond.bidder_unique hregistered' hfound')
      rw [or_iff_right hne, or_iff_right hne']
      exact h.revealed_iff other commitment commitment' hfound hfound'

/-- Matched calls keep the simulation. -/
theorem simulates_step {call other : Call} (h : Simulates quiet first second)
    (hfirst : LedgerConsistent first) (hsecond : LedgerConsistent second)
    (hmatched : Matched persistentHash quiet first second call other) :
    Simulates quiet (step (exec persistentHash) first call)
      (step (exec persistentHash) second other) := by
  by_cases hsucceeds : Succeeds (exec persistentHash) first call
  · have hok := hsucceeds.exec_eq
    have hok' := (hmatched.succeeds_iff.mp hsucceeds).exec_eq
    obtain ⟨sk, circuit⟩ := call
    obtain ⟨sk', circuit'⟩ := other
    obtain rfl : sk' = sk := hmatched.secretKey_eq
    have hkind : circuit.SameCircuit circuit' := hmatched.same_circuit
    cases hkind with
    | placeBid sealedBid sealedBid' =>
      refine h.placeBid hfirst hsecond (fun hloud ↦ ?_) hok hok'
      exact Circuit.placeBid.inj (hmatched.circuit_eq hloud)
    | closeBidding =>
      obtain ⟨_, _, hnext⟩ := closeBidding_eq_ok_iff.mp hok
      obtain ⟨_, _, hnext'⟩ := closeBidding_eq_ok_iff.mp hok'
      rw [hnext, hnext']
      refine ⟨?_, h.mem_iff, h.lookup_eq, h.revealed_iff⟩
      obtain ⟨_, _, _, rfl⟩ := h.cells
      exact ⟨_, _, _, rfl⟩
    | revealBid amount amount' nonce nonce' =>
      refine h.revealBid hfirst hsecond ?_ hok hok'
      by_cases hquiet : deriveBidderId persistentHash sk' ∈ quiet
      · exact Or.inr (hmatched.quiet_reveal hquiet hsucceeds _ _ _ _ rfl rfl)
      · exact Or.inl (Circuit.revealBid.inj (hmatched.circuit_eq hquiet)).1
    | finalize =>
      obtain ⟨_, hnext⟩ := finalize_eq_ok_iff.mp hok
      obtain ⟨_, hnext'⟩ := finalize_eq_ok_iff.mp hok'
      rw [hnext, hnext']
      refine ⟨?_, h.mem_iff, h.lookup_eq, h.revealed_iff⟩
      obtain ⟨_, _, _, rfl⟩ := h.cells
      exact ⟨_, _, _, rfl⟩
    | cancel =>
      obtain ⟨_, _, _, hnext⟩ := cancel_eq_ok_iff.mp hok
      obtain ⟨_, _, _, hnext'⟩ := cancel_eq_ok_iff.mp hok'
      rw [hnext, hnext']
      refine ⟨?_, h.mem_iff, h.lookup_eq, h.revealed_iff⟩
      obtain ⟨_, _, _, rfl⟩ := h.cells
      exact ⟨_, _, _, rfl⟩
  · rw [step_of_not_succeeds hsucceeds,
      step_of_not_succeeds (mt hmatched.succeeds_iff.mpr hsucceeds)]
    exact h

end Steps

/-! ### The renaming -/

/-- The renaming from the commitments of one ledger to those of another: a registered commitment is
taken to the commitment of its identity, and every other value is kept. -/
def renameCommitment (first second : Ledger) (commitment : Bytes32) : Bytes32 :=
  match first.commitments.lookup commitment with
  | none => commitment
  | some bidder => (second.bidderCommitment.lookup bidder).getD commitment

/-- The second ledger is the first with its commitments renamed. -/
structure RenamedTo (rename : Bytes32 → Bytes32) (first second : Ledger) : Prop where
  cells : SameCells first second
  commitments : ∀ commitment' bidder, second.commitments.lookup commitment' = some bidder ↔
    ∃ commitment, rename commitment = commitment' ∧
      first.commitments.lookup commitment = some bidder
  bidderCommitment : ∀ bidder,
    second.bidderCommitment.lookup bidder = (first.bidderCommitment.lookup bidder).map rename
  revealed : second.revealedCommitments = first.revealedCommitments.image rename

/-- The renaming takes the commitment of an identity to its commitment. -/
theorem renameCommitment_eq {first second : Ledger} (hfirst : LedgerConsistent first)
    {bidder commitment commitment' : Bytes32}
    (hfound : first.bidderCommitment.lookup bidder = some commitment)
    (hfound' : second.bidderCommitment.lookup bidder = some commitment') :
    renameCommitment first second commitment = commitment' := by
  rw [← hfirst.inverse] at hfound
  rw [renameCommitment, hfound]
  show (second.bidderCommitment.lookup bidder).getD commitment = commitment'
  rw [hfound', Option.getD_some]

section Renaming

variable {quiet : Set Bytes32} {first second final final' : Ledger}

/-- An identity registered in one ledger is registered in the other. -/
theorem Simulates.exists_lookup_iff (h : Simulates quiet first second) (bidder : Bytes32) :
    (∃ commitment, first.bidderCommitment.lookup bidder = some commitment) ↔
      ∃ commitment', second.bidderCommitment.lookup bidder = some commitment' :=
  Finmap.mem_iff.symm.trans ((h.mem_iff bidder).trans Finmap.mem_iff)

/-- Ledgers that agree identity by identity are renamed into each other, by any function that takes
the commitment of every identity to its commitment. -/
theorem Simulates.renamedTo (h : Simulates quiet first second) (hfirst : LedgerConsistent first)
    (hsecond : LedgerConsistent second) {rename : Bytes32 → Bytes32}
    (hrename : ∀ bidder commitment commitment',
      first.bidderCommitment.lookup bidder = some commitment →
        second.bidderCommitment.lookup bidder = some commitment' →
          rename commitment = commitment') :
    RenamedTo rename first second := by
  have hmap : ∀ bidder, second.bidderCommitment.lookup bidder =
      (first.bidderCommitment.lookup bidder).map rename := by
    intro bidder
    cases hfound : first.bidderCommitment.lookup bidder with
    | none =>
      have hnone := mt (h.exists_lookup_iff bidder).mpr (by simp [hfound])
      rw [Option.map_none]
      exact Option.eq_none_iff_forall_ne_some.mpr (not_exists.mp hnone)
    | some commitment =>
      obtain ⟨commitment', hfound'⟩ := (h.exists_lookup_iff bidder).mp ⟨commitment, hfound⟩
      rw [Option.map_some, hfound', hrename bidder commitment commitment' hfound hfound']
  refine ⟨h.cells, fun commitment' bidder ↦ ?_, hmap, ?_⟩
  · rw [hsecond.inverse, hmap, Option.map_eq_some_iff]
    refine exists_congr fun commitment ↦ ?_
    rw [hfirst.inverse, and_comm]
  · ext commitment'
    rw [Finset.mem_image]
    constructor
    · intro hrevealed'
      obtain ⟨bidder, hregistered'⟩ :=
        Finmap.mem_iff.mp (hsecond.revealed_registered commitment' hrevealed')
      have hfound' := (hsecond.inverse _ _).mp hregistered'
      obtain ⟨commitment, hfound⟩ := (h.exists_lookup_iff bidder).mpr ⟨commitment', hfound'⟩
      have hrevealed :=
        (h.revealed_iff bidder commitment commitment' hfound hfound').mpr hrevealed'
      exact ⟨commitment, hrevealed, hrename bidder commitment commitment' hfound hfound'⟩
    · rintro ⟨commitment, hrevealed, rfl⟩
      obtain ⟨bidder, hregistered⟩ :=
        Finmap.mem_iff.mp (hfirst.revealed_registered commitment hrevealed)
      have hfound := (hfirst.inverse _ _).mp hregistered
      obtain ⟨commitment', hfound'⟩ := (h.exists_lookup_iff bidder).mp ⟨commitment, hfound⟩
      rw [hrename bidder commitment commitment' hfound hfound']
      exact (h.revealed_iff bidder commitment commitment' hfound hfound').mp hrevealed

/-- The renaming is injective on the registered commitments: different commitments are of different
identities. -/
theorem Simulates.renameCommitment_injOn (h : Simulates quiet final final')
    (hfinal : LedgerConsistent final) (hfinal' : LedgerConsistent final') :
    Set.InjOn (renameCommitment final final') {commitment | commitment ∈ final.commitments} := by
  intro commitment hmem other hother hsame
  obtain ⟨bidder, hregistered⟩ := Finmap.mem_iff.mp hmem
  obtain ⟨bidder', hregistered'⟩ := Finmap.mem_iff.mp hother
  have hfound := (hfinal.inverse _ _).mp hregistered
  have hfound' := (hfinal.inverse _ _).mp hregistered'
  obtain ⟨image, himage⟩ := (h.exists_lookup_iff bidder).mp ⟨commitment, hfound⟩
  obtain ⟨image', himage'⟩ := (h.exists_lookup_iff bidder').mp ⟨other, hfound'⟩
  rw [renameCommitment_eq hfinal hfound himage, renameCommitment_eq hfinal hfound' himage'] at hsame
  subst hsame
  rw [hfinal'.bidder_unique himage himage', hfound] at hfound'
  exact Option.some.inj hfound'

end Renaming

/-! ### Two runs -/

section Runs

variable {persistentHash : PersistentHash} {sk : Bytes32} {reserve bidEnd revealEnd : Uint64}
  {initial : Ledger} {quiet : Set Bytes32}

/-- The cells of both ledgers agree and the ledgers simulate each other, after every coupled run. -/
theorem simulates_of_coupled
    (h : constructor persistentHash sk reserve bidEnd revealEnd = .ok initial)
    {pairs : List (Call × Call)}
    (hcoupled : Coupled (exec persistentHash) (Matched persistentHash quiet) initial initial
      pairs) :
    LedgerConsistent (run (exec persistentHash) initial (pairs.map Prod.fst)) ∧
      LedgerConsistent (run (exec persistentHash) initial (pairs.map Prod.snd)) ∧
      Simulates quiet (run (exec persistentHash) initial (pairs.map Prod.fst))
        (run (exec persistentHash) initial (pairs.map Prod.snd)) := by
  have hstart := represents_constructor h
  have hend := coupled_run
    (fun first second ↦ (∃ record, Represents first record) ∧ (∃ record, Represents second record) ∧
      Simulates quiet first second)
    (by
      rintro first second call other ⟨⟨_, hrecord⟩, ⟨_, hrecord'⟩, hsimulates⟩ hmatched
      exact ⟨hrecord.exists_of_step call, hrecord'.exists_of_step other,
        simulates_step hsimulates hrecord.consistent hrecord'.consistent hmatched⟩)
    ⟨⟨_, hstart⟩, ⟨_, hstart⟩, .refl quiet initial⟩ hcoupled
  obtain ⟨⟨_, hrecord⟩, ⟨_, hrecord'⟩, hsimulates⟩ := hend
  exact ⟨hrecord.consistent, hrecord'.consistent, hsimulates⟩

/-- Bids that never lead do not interfere. Assumes: an accepted constructor call, and two runs from
its ledger whose calls are matched position by position for a set of quiet bidders. One renaming of
commitments takes the first ledger to the second after every prefix; it is injective on the
registered commitments, and fixes those of the other bidders. -/
theorem noninterference
    (h : constructor persistentHash sk reserve bidEnd revealEnd = .ok initial)
    {pairs : List (Call × Call)}
    (hcoupled : Coupled (exec persistentHash) (Matched persistentHash quiet) initial initial
      pairs) :
    ∃ rename : Bytes32 → Bytes32,
      Set.InjOn rename {commitment | commitment ∈
        (run (exec persistentHash) initial (pairs.map Prod.fst)).commitments} ∧
      (∀ bidder ∉ quiet, ∀ commitment,
        (run (exec persistentHash) initial (pairs.map Prod.fst)).bidderCommitment.lookup bidder =
          some commitment → rename commitment = commitment) ∧
      ∀ before after, pairs = before ++ after →
        RenamedTo rename (run (exec persistentHash) initial (before.map Prod.fst))
          (run (exec persistentHash) initial (before.map Prod.snd)) := by
  obtain ⟨hfinal, hfinal', hsimulates⟩ := simulates_of_coupled h hcoupled
  refine ⟨renameCommitment (run (exec persistentHash) initial (pairs.map Prod.fst))
    (run (exec persistentHash) initial (pairs.map Prod.snd)),
    hsimulates.renameCommitment_injOn hfinal hfinal', ?_, ?_⟩
  · intro bidder hloud commitment hfound
    exact renameCommitment_eq hfinal hfound ((hsimulates.lookup_eq bidder hloud).trans hfound)
  · rintro before after rfl
    obtain ⟨hfirst, hsecond, hinitial⟩ := simulates_of_coupled h hcoupled.of_append
    refine hinitial.renamedTo hfirst hsecond fun bidder commitment commitment' hfound hfound' ↦ ?_
    -- the entries are still there at the end of the two runs
    have hextends : Extends (run (exec persistentHash) initial (before.map Prod.fst))
        (run (exec persistentHash) initial ((before ++ after).map Prod.fst)) := by
      rw [List.map_append, run_append]
      exact run_extends _ _
    have hextends' : Extends (run (exec persistentHash) initial (before.map Prod.snd))
        (run (exec persistentHash) initial ((before ++ after).map Prod.snd)) := by
      rw [List.map_append, run_append]
      exact run_extends _ _
    exact renameCommitment_eq hfinal (hextends.bidderCommitment _ _ hfound)
      (hextends'.bidderCommitment _ _ hfound')

/-- The second bidder of the harness auction bids 150 in one run and 180 in the other, below the
250 that the first bidder has opened. -/
theorem noninterference_harness :
    SameCells
      (run (exec sampleHash) harnessLedger [commitCall 1 250, commitCall 2 150, closeCall,
        revealCall 1 250, revealCall 2 150])
      (run (exec sampleHash) harnessLedger [commitCall 1 250, commitCall 2 180, closeCall,
        revealCall 1 250, revealCall 2 180]) := by
  have hcoupled : Coupled (exec sampleHash)
      (Matched sampleHash {deriveBidderId sampleHash (key 2)}) harnessLedger harnessLedger
      [(commitCall 1 250, commitCall 1 250), (commitCall 2 150, commitCall 2 180),
        (closeCall, closeCall), (revealCall 1 250, revealCall 1 250),
        (revealCall 2 150, revealCall 2 180)] := by
    have hbidder : deriveBidderId sampleHash (key 1) ≠ deriveBidderId sampleHash (key 2) := by
      decide +kernel
    have hauctioneer :
        deriveBidderId sampleHash (key 0xa0) ≠ deriveBidderId sampleHash (key 2) := by
      decide +kernel
    refine ⟨.of_loud hbidder (by decide +kernel), ⟨rfl, .placeBid _ _, fun hloud ↦ absurd rfl hloud,
      by decide +kernel, ?_⟩, .of_loud hauctioneer (by decide +kernel),
      .of_loud hbidder (by decide +kernel), ⟨rfl, .revealBid _ _ _ _, fun hloud ↦ absurd rfl hloud,
      by decide +kernel, ?_⟩, trivial⟩
    · intro _ _ amount nonce amount' nonce' hcall
      cases hcall
    · intro _ _ amount nonce amount' nonce' hcall hother
      obtain ⟨rfl, rfl⟩ := Circuit.revealBid.inj hcall
      obtain ⟨rfl, rfl⟩ := Circuit.revealBid.inj hother
      decide +kernel
  obtain ⟨_, _, _, hrenamed⟩ := noninterference harnessLedger_eq hcoupled
  exact (hrenamed _ [] (List.append_nil _).symm).cells

end Runs

end SealedBid
