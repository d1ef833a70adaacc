import SealedBid.Compiled.Refinement

/-!
# Transcripts applied to a later ledger

A participant runs a circuit on the ledger as it is, and the node replays the transcript of the call
on the ledger as it has become. The transcript carries every value that the circuit read, so the
node accepts it only where the circuit would read the same.

Every compiled circuit is faithful to its transcript (`faithful_body`). So a transcript is worth a
fresh call: where it is accepted it leads to the state that the call would lead to there, and it is
accepted exactly where the call would succeed and record the same transcript (`replay_eq_ok_iff`).
No interleaving of other calls turns a transcript into something that the source does not do.

`SameReads` says what the calls in between must leave as it was: nothing for a bid and for closing
the bidding, the highest bid for a reveal, the number of counted reveals for a finalization, the
phase for a cancellation. The last section is about reveals prepared at the same time.

Scope. Gas and fees are not modelled; a transcript is accepted when the machine runs it to its end.
-/

set_option autoImplicit false
set_option relaxedAutoImplicit false

namespace SealedBid.Compiled

open RecordedPrograms FailSafeRun

variable {vm : LedgerVm} {persistentHash : PersistentHash}

/-! ### The circuits are faithful -/

/-- A circuit that starts with a program of height one. -/
theorem faithful_query_bind {α : Type} {program : List Op}
    {rest : List AlignedValue → CircuitM α}
    (hheight : vm.machine.heightAfter 1 program = some 1)
    (hrest : ∀ reads, Faithful vm.machine vm.beneath (rest reads)) :
    Faithful vm.machine vm.beneath (queryLedgerState vm program >>= rest) :=
  (faithful_query hheight).bind hrest

/-- A circuit that starts with a read of height one. -/
theorem faithful_read_bind {α β : Type} {descriptor : Descriptor α} {program : List Op}
    {rest : α → CircuitM β} (hheight : vm.machine.heightAfter 1 program = some 1)
    (hrest : ∀ value, Faithful vm.machine vm.beneath (rest value)) :
    Faithful vm.machine vm.beneath (queryValue vm descriptor program >>= rest) :=
  ((faithful_query hheight).bind fun _ ↦ faithful_lift _).bind hrest

/-- A circuit that starts with a call of the witness. -/
theorem faithful_witness_bind {α : Type} {rest : Bytes32 → CircuitM α}
    (hrest : ∀ sk, Faithful vm.machine vm.beneath (rest sk)) :
    Faithful vm.machine vm.beneath (localSecretKey0 >>= rest) := by
  refine Faithful.bind (faithful_of_local fun {before after value} hcall ↦ ?_) hrest
  cases hcall
  exact ⟨rfl, rfl, fun _ ↦ rfl⟩

/-- A circuit that starts with an assertion. -/
theorem faithful_assert_bind {α : Type} {condition : Prop} [Decidable condition]
    {message : String} {rest : Unit → CircuitM α}
    (hrest : ∀ done, Faithful vm.machine vm.beneath (rest done)) :
    Faithful vm.machine vm.beneath
      ((liftM (assert condition message) : CircuitM Unit) >>= rest) :=
  (faithful_lift _).bind hrest

theorem faithful_placeBid0 (sealedBid : Bytes32) :
    Faithful vm.machine vm.beneath (placeBid0 vm persistentHash sealedBid) := by
  unfold placeBid0
  refine faithful_read_bind rfl fun phase ↦ faithful_assert_bind fun _ ↦ ?_
  refine faithful_witness_bind fun sk ↦ ?_
  refine faithful_read_bind rfl fun registered ↦ faithful_assert_bind fun _ ↦ ?_
  refine faithful_read_bind rfl fun placed ↦ faithful_assert_bind fun _ ↦ ?_
  refine faithful_query_bind rfl fun _ ↦ ?_
  refine faithful_query_bind rfl fun _ ↦ ?_
  exact faithful_query_bind rfl fun _ ↦ faithful_pure _

theorem faithful_closeBidding0 :
    Faithful vm.machine vm.beneath (closeBidding0 vm persistentHash) := by
  unfold closeBidding0
  refine faithful_read_bind rfl fun auctioneer ↦ ?_
  refine faithful_witness_bind fun sk ↦ faithful_assert_bind fun _ ↦ ?_
  refine faithful_read_bind rfl fun phase ↦ faithful_assert_bind fun _ ↦ ?_
  exact faithful_query_bind rfl fun _ ↦ faithful_pure _

theorem faithful_countReveal0 (bidder : Bytes32) (amount : Uint64) (beatsCurrentBest : Bool) :
    Faithful vm.machine vm.beneath (countReveal0 vm bidder amount beatsCurrentBest) := by
  unfold countReveal0
  refine faithful_query_bind rfl fun _ ↦ ?_
  split_ifs
  · refine faithful_query_bind rfl fun _ ↦ ?_
    exact faithful_query_bind rfl fun _ ↦ faithful_pure _
  · exact faithful_pure _

theorem faithful_revealBid0 (amount : Uint64) (nonce : Bytes32) :
    Faithful vm.machine vm.beneath (revealBid0 vm persistentHash amount nonce) := by
  unfold revealBid0
  refine faithful_read_bind rfl fun phase ↦ faithful_assert_bind fun _ ↦ ?_
  refine faithful_witness_bind fun sk ↦ ?_
  refine faithful_read_bind rfl fun placed ↦ faithful_assert_bind fun _ ↦ ?_
  refine faithful_read_bind rfl fun commitment ↦ ?_
  refine faithful_read_bind rfl fun opened ↦ faithful_assert_bind fun _ ↦ ?_
  refine faithful_assert_bind fun _ ↦ ?_
  refine faithful_query_bind rfl fun _ ↦ ?_
  refine faithful_read_bind rfl fun reservePrice ↦ ?_
  refine faithful_read_bind rfl fun highestBid ↦ ?_
  split_ifs
  · exact faithful_countReveal0 _ _ _
  · exact faithful_pure _

theorem faithful_recordOutcome0 (noReveal : Bool) :
    Faithful vm.machine vm.beneath (recordOutcome0 vm noReveal) := by
  unfold recordOutcome0
  split_ifs
  · refine faithful_query_bind rfl fun _ ↦ ?_
    exact faithful_query_bind rfl fun _ ↦ faithful_pure _
  · refine faithful_read_bind rfl fun highestBidder ↦ ?_
    refine faithful_query_bind rfl fun _ ↦ ?_
    refine faithful_read_bind rfl fun highestBid ↦ ?_
    exact faithful_query_bind rfl fun _ ↦ faithful_pure _

theorem faithful_finalize0 : Faithful vm.machine vm.beneath (finalize0 vm) := by
  unfold finalize0
  refine faithful_read_bind rfl fun phase ↦ faithful_assert_bind fun _ ↦ ?_
  refine faithful_read_bind rfl fun validRevealCount ↦ ?_
  refine Faithful.bind (faithful_recordOutcome0 _) fun _ ↦ ?_
  exact faithful_query_bind rfl fun _ ↦ faithful_pure _

theorem faithful_notConcluded0 : Faithful vm.machine vm.beneath (notConcluded0 vm) := by
  unfold notConcluded0
  refine faithful_read_bind rfl fun phase ↦ ?_
  split_ifs
  · exact faithful_pure _
  · exact faithful_read_bind rfl fun phase ↦ faithful_pure _

theorem faithful_cancel0 : Faithful vm.machine vm.beneath (cancel0 vm persistentHash) := by
  unfold cancel0
  refine faithful_read_bind rfl fun auctioneer ↦ ?_
  refine faithful_witness_bind fun sk ↦ faithful_assert_bind fun _ ↦ ?_
  refine Faithful.bind faithful_notConcluded0 fun notConcluded ↦ faithful_assert_bind fun _ ↦ ?_
  refine faithful_read_bind rfl fun bidCount ↦ faithful_assert_bind fun _ ↦ ?_
  exact faithful_query_bind rfl fun _ ↦ faithful_pure _

/-- Every circuit is faithful to its transcript. -/
theorem faithful_body (circuit : SealedBid.Circuit) :
    Faithful vm.machine vm.beneath (body vm persistentHash circuit) := by
  cases circuit with
  | placeBid sealedBid => exact faithful_placeBid0 sealedBid
  | closeBidding => exact faithful_closeBidding0
  | revealBid amount nonce => exact faithful_revealBid0 amount nonce
  | finalize => exact faithful_finalize0
  | cancel => exact faithful_cancel0

/-! ### A transcript applied elsewhere -/

/-- What a node does with a transcript: replay it on the state of the contract. -/
def applyTranscript (vm : LedgerVm) (transcript : List Op) (state : StateValue) :
    Except String StateValue :=
  vm.machine.replay vm.beneath transcript state

/-- The transcript of a call leads where the call leads, and the call has the same result wherever
its transcript is accepted. -/
theorem applyTranscript_of_call {circuit : SealedBid.Circuit} {state : StateValue}
    {privateState : SealedBidPrivateState} {result : CallResult}
    (hcall : Compiled.call vm persistentHash circuit state privateState = .ok result) :
    applyTranscript vm result.proofData.publicTranscript state = .ok result.state ∧
      ∀ {other next}, applyTranscript vm result.proofData.publicTranscript other = .ok next →
        Compiled.call vm persistentHash circuit other privateState =
          .ok { result with state := next } := by
  obtain ⟨⟨_, context⟩, hbody, hresult⟩ := bind_eq_ok_iff.mp hcall
  obtain ⟨added, recording⟩ := faithful_body circuit hbody
  have htranscript : context.transcript = added := recording.transcript_eq
  cases hresult
  refine ⟨by rw [applyTranscript, htranscript]; exact recording.replay_self, ?_⟩
  intro other next happly
  rw [applyTranscript, htranscript] at happly
  have hrerun := recording.rerun happly
  show (body vm persistentHash circuit (startContext other privateState) >>= _) = _
  rw [show startContext other privateState =
    { startContext state privateState with state := other } from rfl, hrerun]
  rfl

/-- A transcript prepared on one ledger and applied to another: it is accepted exactly where the
call succeeds and records the same transcript, and leads to the state array that the call leads
to. Assumes: the call succeeds on the ledger on which it was prepared. -/
theorem applyTranscript_eq_ok_iff {call : Call} {ledger later prepared : Ledger}
    {state : StateValue} (hroom : Room 1 ledger) (hlater : Room 1 later)
    (hcall : exec persistentHash call ledger = .ok prepared) :
    applyTranscript vm (transcript persistentHash call ledger) (encode later) = .ok state ↔
      ∃ next, exec persistentHash call later = .ok next ∧
        transcript persistentHash call later = transcript persistentHash call ledger ∧
          state = encode next := by
  constructor
  · intro happly
    have hprepared : Compiled.call vm persistentHash call.circuit (encode ledger)
        ⟨call.secretKey⟩ = .ok (callResult call (transcript persistentHash call ledger)
          prepared) := by
      rw [call_encode call hroom, hcall]
      rfl
    have hrerun := (applyTranscript_of_call hprepared).2 happly
    rw [call_encode call hlater, map_eq_ok_iff] at hrerun
    obtain ⟨next, hnext, hresult⟩ := hrerun
    refine ⟨next, hnext, ?_, ?_⟩
    · exact congrArg (fun result ↦ result.proofData.publicTranscript) hresult
    · exact (congrArg CallResult.state hresult).symm
  · rintro ⟨next, hnext, htranscript, rfl⟩
    have hfresh : Compiled.call vm persistentHash call.circuit (encode later)
        ⟨call.secretKey⟩ = .ok (callResult call (transcript persistentHash call later) next) := by
      rw [call_encode call hlater, hnext]
      rfl
    rw [← htranscript]
    exact (applyTranscript_of_call hfresh).1

/-! ### What the calls in between must not change -/

/-- What a later ledger keeps of an earlier one: the reserve price, and the best bid as long as no
reveal has counted in between. -/
structure Follows (ledger later : Ledger) : Prop where
  reservePrice_eq : later.reservePrice = ledger.reservePrice
  count_le : ledger.validRevealCount ≤ later.validRevealCount
  best_eq : later.validRevealCount = ledger.validRevealCount →
    later.highestBid = ledger.highestBid ∧ later.highestBidder = ledger.highestBidder

theorem Follows.refl (ledger : Ledger) : Follows ledger ledger :=
  ⟨rfl, le_refl _, fun _ ↦ ⟨rfl, rfl⟩⟩

theorem Follows.trans (first middle last : Ledger) (h : Follows first middle)
    (h' : Follows middle last) : Follows first last where
  reservePrice_eq := h'.reservePrice_eq.trans h.reservePrice_eq
  count_le := h.count_le.trans h'.count_le
  best_eq hcount := by
    have hmiddle : middle.validRevealCount = first.validRevealCount :=
      le_antisymm (hcount ▸ h'.count_le) h.count_le
    obtain ⟨hbid, hbidder⟩ := h.best_eq hmiddle
    obtain ⟨hbid', hbidder'⟩ := h'.best_eq (hcount.trans hmiddle.symm)
    exact ⟨hbid'.trans hbid, hbidder'.trans hbidder⟩

theorem follows_of_exec (ledger : Ledger) (call : Call) (next : Ledger)
    (h : exec persistentHash call ledger = .ok next) : Follows ledger next := by
  obtain ⟨secretKey, circuit⟩ := call
  cases circuit with
  | placeBid sealedBid =>
    obtain ⟨-, -, -, rfl⟩ := placeBid_eq_ok_iff.mp h
    exact ⟨rfl, le_refl _, fun _ ↦ ⟨rfl, rfl⟩⟩
  | closeBidding =>
    obtain ⟨-, -, rfl⟩ := closeBidding_eq_ok_iff.mp h
    exact ⟨rfl, le_refl _, fun _ ↦ ⟨rfl, rfl⟩⟩
  | revealBid amount nonce =>
    obtain ⟨-, -, -, rfl⟩ := revealBid_eq_ok_iff.mp h
    rw [recordReveal_eq]
    by_cases hreserve : ledger.reservePrice ≤ amount
    · exact ⟨rfl, by simp [hreserve], fun hcount ↦ by simp [hreserve] at hcount⟩
    · exact ⟨rfl, by simp [hreserve], fun _ ↦ by simp [hreserve]⟩
  | finalize =>
    obtain ⟨-, rfl⟩ := finalize_eq_ok_iff.mp h
    exact ⟨rfl, le_refl _, fun _ ↦ ⟨rfl, rfl⟩⟩
  | cancel =>
    obtain ⟨-, -, -, rfl⟩ := cancel_eq_ok_iff.mp h
    exact ⟨rfl, le_refl _, fun _ ↦ ⟨rfl, rfl⟩⟩

theorem follows_run (ledger : Ledger) (calls : List Call) :
    Follows ledger (run (exec persistentHash) ledger calls) :=
  run_relation Follows Follows.refl Follows.trans follows_of_exec ledger calls

/-- The calls between the preparation of a call and its application left alone what it read. -/
def SameReads (call : Call) (ledger later : Ledger) : Prop :=
  match call.circuit with
  | .placeBid _ => True
  | .closeBidding => True
  | .revealBid _ _ => later.highestBid = ledger.highestBid
  | .finalize => later.validRevealCount = ledger.validRevealCount
  | .cancel => later.phase = ledger.phase

/-- The transcripts of one opening, with two best bids. -/
theorem revealBidTranscript_inj {bidder commitment : Bytes32}
    {amount reservePrice highestBid other : Uint64} :
    revealBidTranscript bidder commitment amount reservePrice other =
        revealBidTranscript bidder commitment amount reservePrice highestBid ↔
      other = highestBid := by
  constructor
  · intro htranscript
    -- the best bid is read by the last instruction before the part that depends on it
    have hread := congrArg (fun ops ↦ ops[27]?) htranscript
    have hvalue : some (Op.popeq false (some (descriptor0.toValue other))) =
        some (Op.popeq false (some (descriptor0.toValue highestBid))) := hread
    simpa [descriptor0.toValue_inj] using hvalue
  · rintro rfl
    rfl

/-- Two transcripts of a call agree when the call read the same. Assumes: the call succeeds on both
ledgers, and the second is a later one. -/
theorem transcript_eq_iff {call : Call} {ledger later prepared next : Ledger}
    (hroom : Room 1 ledger) (hlater : Room 1 later) (hfollows : Follows ledger later)
    (hcall : exec persistentHash call ledger = .ok prepared)
    (hnext : exec persistentHash call later = .ok next) :
    transcript persistentHash call later = transcript persistentHash call ledger ↔
      SameReads call ledger later := by
  obtain ⟨secretKey, circuit⟩ := call
  cases circuit with
  | placeBid sealedBid => simp [transcript, SameReads]
  | closeBidding =>
    obtain ⟨hcaller, -, -⟩ := closeBidding_eq_ok_iff.mp hcall
    obtain ⟨hcaller', -, -⟩ := closeBidding_eq_ok_iff.mp hnext
    simp [transcript, SameReads, hcaller, hcaller']
  | revealBid amount nonce =>
    rw [transcript, transcript, hfollows.reservePrice_eq]
    exact revealBidTranscript_inj
  | finalize =>
    simp only [transcript, SameReads]
    constructor
    · intro htranscript
      have hread := congrArg (fun ops ↦ ops[5]?) htranscript
      have hvalue : some (Op.popeq true (some (descriptor0.toValue
            (Fin.ofNat 18446744073709551616 later.validRevealCount)))) =
          some (Op.popeq true (some (descriptor0.toValue
            (Fin.ofNat 18446744073709551616 ledger.validRevealCount)))) := hread
      simp only [Option.some.injEq, Op.popeq.injEq, descriptor0.toValue_inj, true_and] at hvalue
      rw [count_eq_ofNat hlater.2, count_eq_ofNat hroom.2, hvalue]
    · intro hcount
      obtain ⟨hbid, hbidder⟩ := hfollows.best_eq hcount
      rw [hcount, hbid, hbidder]
  | cancel =>
    obtain ⟨hcaller, -, -, -⟩ := cancel_eq_ok_iff.mp hcall
    obtain ⟨hcaller', -, -, -⟩ := cancel_eq_ok_iff.mp hnext
    simp only [transcript, SameReads, hcaller, hcaller']
    constructor
    · intro htranscript
      have hread := congrArg (fun ops ↦ ops[5]?) htranscript
      have hvalue : some (Op.popeq false (some (descriptor1.toValue later.phase))) =
          some (Op.popeq false (some (descriptor1.toValue ledger.phase))) := hread
      simpa [descriptor1.toValue_inj] using hvalue
    · intro hphase
      rw [hphase]

/-- **No transcript does what the source does not do.** A call is prepared on a ledger, other calls
are executed, by any callers and in any order, and then the node applies the transcript of the
prepared call. It is accepted exactly when the call still succeeds and the calls in between left
alone what it read, and then it leads to the state array of the ledger to which the call leads
afresh. Assumes: the call succeeds on the ledger on which it was prepared, and the counters have
room. -/
theorem prepared_call_applies_iff (vm : LedgerVm) {call : Call} {ledger prepared : Ledger}
    (hcall : exec persistentHash call ledger = .ok prepared) (calls : List Call)
    (hroom : Room (1 + calls.length) ledger) (state : StateValue) :
    applyTranscript vm (transcript persistentHash call ledger)
        (run (execCompiled vm persistentHash) (encode ledger) calls) = .ok state ↔
      ∃ next, exec persistentHash call (run (exec persistentHash) ledger calls) = .ok next ∧
        SameReads call ledger (run (exec persistentHash) ledger calls) ∧
          state = encode next := by
  have hfirst : Room 1 ledger := hroom.mono (Nat.le_add_right 1 _)
  obtain ⟨hrun, hlater⟩ := run_encode vm hroom
  rw [hrun, applyTranscript_eq_ok_iff hfirst hlater hcall]
  have hfollows : Follows ledger (run (exec persistentHash) ledger calls) :=
    follows_run ledger calls
  refine exists_congr fun next ↦ and_congr_right fun hnext ↦ and_congr_left fun _ ↦ ?_
  exact transcript_eq_iff hfirst hlater hfollows hcall hnext

theorem prepared_call_applies_iff_harness :
    applyTranscript referenceVm (transcript sampleHash (commitCall 0xb0 150) harnessLedger)
        (run (execCompiled referenceVm sampleHash) (encode harnessLedger) [commitCall 0xb1 200]) =
      .ok (encode (run (exec sampleHash) harnessLedger
        [commitCall 0xb1 200, commitCall 0xb0 150])) :=
  (prepared_call_applies_iff referenceVm
    (Succeeds.exec_eq (by decide +kernel : Succeeds (exec sampleHash) harnessLedger
      (commitCall 0xb0 150))) [commitCall 0xb1 200] (by decide +kernel) _).mpr
    ⟨_, Succeeds.exec_eq (by decide +kernel : Succeeds (exec sampleHash)
      (run (exec sampleHash) harnessLedger [commitCall 0xb1 200]) (commitCall 0xb0 150)),
      trivial, rfl⟩

/-! ### Reveals prepared at the same time -/

/-- An opening: the caller, the amount and the nonce of a reveal. -/
structure Opening where
  secretKey : Bytes32
  amount : Uint64
  nonce : Bytes32
  deriving DecidableEq

/-- The call of an opening. -/
def Opening.call (opening : Opening) : Call where
  secretKey := opening.secretKey
  circuit := .revealBid opening.amount opening.nonce

variable (persistentHash) in
/-- The commitment that an opening opens. -/
def Opening.commitment (opening : Opening) : Bytes32 :=
  computeCommitment persistentHash opening.amount opening.nonce
    (deriveBidderId persistentHash opening.secretKey)

/-- An opening raises the best bid of a ledger. -/
def Opening.raises (ledger : Ledger) (opening : Opening) : Bool :=
  decide (ledger.reservePrice ≤ opening.amount ∧ ledger.highestBid < opening.amount)

variable (vm persistentHash) in
/-- The transcript of an opening prepared on a ledger, applied to a state. -/
def applyOpening (ledger : Ledger) (opening : Opening) (state : StateValue) :
    Except String StateValue :=
  applyTranscript vm (transcript persistentHash opening.call ledger) state

/-- A ledger in the middle of the reveals: the registered commitments, the reserve price and the
phase are those of the ledger on which the openings were prepared. -/
structure DuringReveals (ledger now : Ledger) : Prop where
  phase_eq : now.phase = ledger.phase
  bidderCommitment_eq : now.bidderCommitment = ledger.bidderCommitment
  reservePrice_eq : now.reservePrice = ledger.reservePrice

/-- An opening that succeeds on the ledger on which it was prepared succeeds during the reveals
unless its commitment has been opened since. -/
theorem exec_opening_iff {opening : Opening} {ledger now prepared next : Ledger}
    (hnow : DuringReveals ledger now)
    (hcall : exec persistentHash opening.call ledger = .ok prepared) :
    exec persistentHash opening.call now = .ok next ↔
      opening.commitment persistentHash ∉ now.revealedCommitments ∧
        next = recordReveal (deriveBidderId persistentHash opening.secretKey)
          (opening.commitment persistentHash) opening.amount now := by
  obtain ⟨hphase, hregistered, -, -⟩ := revealBid_eq_ok_iff.mp hcall
  refine revealBid_eq_ok_iff.trans ⟨fun h ↦ h.2.2, fun h ↦ ⟨?_, ?_, h⟩⟩
  · rw [hnow.phase_eq, hphase]
  · rw [hnow.bidderCommitment_eq, hregistered]

/-- During the reveals, a prepared opening is accepted unless its commitment has been opened since
or the best bid has changed. -/
theorem applyOpening_eq_ok_iff {opening : Opening} {ledger now prepared : Ledger}
    {state : StateValue} (hroom : Room 1 ledger) (hroom' : Room 1 now)
    (hnow : DuringReveals ledger now)
    (hcall : exec persistentHash opening.call ledger = .ok prepared) :
    applyOpening vm persistentHash ledger opening (encode now) = .ok state ↔
      opening.commitment persistentHash ∉ now.revealedCommitments ∧
        now.highestBid = ledger.highestBid ∧
          state = encode (recordReveal (deriveBidderId persistentHash opening.secretKey)
            (opening.commitment persistentHash) opening.amount now) := by
  rw [applyOpening, applyTranscript_eq_ok_iff hroom hroom' hcall]
  have hreads : transcript persistentHash opening.call now =
      transcript persistentHash opening.call ledger ↔ now.highestBid = ledger.highestBid := by
    rw [transcript, transcript, hnow.reservePrice_eq]
    exact revealBidTranscript_inj
  simp only [hreads, exec_opening_iff hnow hcall]
  constructor
  · rintro ⟨_, ⟨hfresh, rfl⟩, hbest, hstate⟩
    exact ⟨hfresh, hbest, hstate⟩
  · rintro ⟨hfresh, hbest, hstate⟩
    exact ⟨_, ⟨hfresh, rfl⟩, hbest, hstate⟩

/-- A reveal leaves the phase, the registered commitments and the reserve price as they are. -/
theorem DuringReveals.recordReveal {ledger now : Ledger} (h : DuringReveals ledger now)
    (bidder commitment : Bytes32) (amount : Uint64) :
    DuringReveals ledger (recordReveal bidder commitment amount now) := by
  rw [recordReveal_eq]
  exact ⟨h.phase_eq, h.bidderCommitment_eq, h.reservePrice_eq⟩

/-- Prepared openings from the middle of the reveals on, with the best bid unchanged so far. -/
theorem successes_applyOpening {ledger now : Ledger} (hroom : Room 1 ledger)
    {openings : List Opening}
    (hprepared : ∀ opening ∈ openings, Succeeds (exec persistentHash) ledger opening.call)
    (hdistinct : (openings.map (Opening.commitment persistentHash)).Nodup)
    (hroom' : Room (1 + openings.length) now) (hnow : DuringReveals ledger now)
    (hbest : now.highestBid = ledger.highestBid)
    (hfresh : ∀ opening ∈ openings,
      opening.commitment persistentHash ∉ now.revealedCommitments) :
    successes (applyOpening vm persistentHash ledger) (encode now) openings =
      openings.takeWhile (fun opening ↦ !opening.raises ledger) ++
        (openings.dropWhile fun opening ↦ !opening.raises ledger).take 1 := by
  induction openings generalizing now with
  | nil => rfl
  | cons opening rest ih =>
    obtain ⟨prepared, hcall⟩ := hprepared opening List.mem_cons_self
    rw [List.map_cons, List.nodup_cons] at hdistinct
    have hfirst : Room 1 now := hroom'.mono (Nat.le_add_right 1 _)
    have hopening := hfresh opening List.mem_cons_self
    have happly : applyOpening vm persistentHash ledger opening (encode now) = .ok (encode
        (recordReveal (deriveBidderId persistentHash opening.secretKey)
          (opening.commitment persistentHash) opening.amount now)) :=
      (applyOpening_eq_ok_iff hroom hfirst hnow hcall).mpr ⟨hopening, hbest, rfl⟩
    have hcounts := exec_counts_le ((exec_opening_iff hnow hcall).mpr ⟨hopening, rfl⟩)
    have hnext : Room (1 + rest.length) (recordReveal
        (deriveBidderId persistentHash opening.secretKey) (opening.commitment persistentHash)
        opening.amount now) := by
      obtain ⟨hbids, hreveals⟩ := hroom'
      rw [List.length_cons] at hbids hreveals
      exact ⟨by omega, by omega⟩
    rw [successes_cons_of_ok happly]
    by_cases hraises : opening.raises ledger
    · -- the best bid has changed, so every later transcript is refused
      have hrest : ∀ other ∈ rest, ¬ Succeeds (applyOpening vm persistentHash ledger)
          (encode (recordReveal (deriveBidderId persistentHash opening.secretKey)
            (opening.commitment persistentHash) opening.amount now)) other := by
        rintro other hother ⟨state, hstate⟩
        obtain ⟨prepared', hcall'⟩ := hprepared other (List.mem_cons_of_mem _ hother)
        obtain ⟨-, hbest', -⟩ := (applyOpening_eq_ok_iff hroom
          (hnext.mono (Nat.le_add_right 1 _)) (hnow.recordReveal _ _ _) hcall').mp hstate
        have hamount := of_decide_eq_true hraises
        rw [recordReveal_eq] at hbest'
        simp only [hnow.reservePrice_eq, hbest, hamount, and_self, if_true] at hbest'
        exact absurd hbest' (ne_of_gt hamount.2)
      rw [successes_of_frozen hrest]
      simp [hraises]
    · have hamount : ¬ (ledger.reservePrice ≤ opening.amount ∧
          ledger.highestBid < opening.amount) := by simpa [Opening.raises] using hraises
      have hbest' : (recordReveal (deriveBidderId persistentHash opening.secretKey)
          (opening.commitment persistentHash) opening.amount now).highestBid =
            ledger.highestBid := by
        rw [recordReveal_eq]
        simp only [hnow.reservePrice_eq, hbest, hamount, if_false]
      have hfresh' : ∀ other ∈ rest, other.commitment persistentHash ∉
          (recordReveal (deriveBidderId persistentHash opening.secretKey)
            (opening.commitment persistentHash) opening.amount now).revealedCommitments := by
        intro other hother
        rw [recordReveal_eq]
        simp only [Finset.mem_insert, not_or]
        refine ⟨fun heq ↦ hdistinct.1 ?_, hfresh other (List.mem_cons_of_mem _ hother)⟩
        rw [← heq]
        exact List.mem_map_of_mem hother
      rw [ih (fun other hother ↦ hprepared other (List.mem_cons_of_mem _ hother)) hdistinct.2
        hnext (hnow.recordReveal _ _ _) hbest' hfresh']
      simp [hraises]

/-- **Reveals prepared at the same time.** Several participants prepare their reveals on the same
ledger, and the node applies the transcripts one after the other. Accepted are the reveals up to and
including the first that raises the best bid, and none after it: the later ones read a best bid that
is no longer the current one, whether or not they would raise it. Assumes: every reveal succeeds on
the ledger, their commitments differ, and the counters have room. -/
theorem concurrent_openings (vm : LedgerVm) {ledger : Ledger} {openings : List Opening}
    (hprepared : ∀ opening ∈ openings, Succeeds (exec persistentHash) ledger opening.call)
    (hdistinct : (openings.map (Opening.commitment persistentHash)).Nodup)
    (hroom : Room (1 + openings.length) ledger) :
    successes (applyOpening vm persistentHash ledger) (encode ledger) openings =
      openings.takeWhile (fun opening ↦ !opening.raises ledger) ++
        (openings.dropWhile fun opening ↦ !opening.raises ledger).take 1 := by
  refine successes_applyOpening (hroom.mono (Nat.le_add_right 1 _)) hprepared hdistinct hroom
    ⟨rfl, rfl, rfl⟩ rfl fun opening hopening ↦ ?_
  obtain ⟨prepared, hcall⟩ := hprepared opening hopening
  exact (revealBid_eq_ok_iff.mp hcall).2.2.1

/-- The openings of two bidders of the test harness. -/
def harnessOpenings : List Opening :=
  [⟨key 0xb0, 150, key 0x5a⟩, ⟨key 0xb1, 200, key 0x5a⟩]

/-- The ledger on which they are prepared. -/
def harnessReveals : Ledger :=
  run (exec sampleHash) harnessLedger [commitCall 0xb0 150, commitCall 0xb1 200, closeCall]

theorem concurrent_openings_harness :
    successes (applyOpening referenceVm sampleHash harnessReveals) (encode harnessReveals)
      harnessOpenings = [⟨key 0xb0, 150, key 0x5a⟩] :=
  (concurrent_openings referenceVm (by decide +kernel) (by decide +kernel)
    (by decide +kernel)).trans (by decide +kernel)

end SealedBid.Compiled
