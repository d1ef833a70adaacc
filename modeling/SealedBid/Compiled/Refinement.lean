import SealedBid.Compiled.StateEncoding

/-!
# The compiled circuits refine the circuits of the source

Each compiled circuit, run by the ledger machine on the state array of a ledger, does what the
circuit of the source does on the ledger: it succeeds on the same ledgers, fails with the same
message otherwise, and leaves the state array of the next ledger (`placeBid0_onLedger` to
`cancel0_onLedger`, `body_onLedger`). The constructor builds the state array of the ledger of the
source from 14 times null (`initialState0_newArray`). Each lemma also names the transcript that the
circuit records; `transcript` is the transcript of a call.

Scope. Counters are 64-bit integers in the machine: the results are about ledgers that have room for
one more bid and one more counted reveal (`Room`).
-/

set_option autoImplicit false
set_option relaxedAutoImplicit false

namespace SealedBid.Compiled

open RecordedPrograms FailSafeRun

/-! ### Transcripts -/

/-- The transcript of a bid. -/
def placeBidTranscript (sealedBid bidder : Bytes32) : List Op :=
  readCell false 0 (some (descriptor1.toValue .bidding)) ++
  testMember 5 (descriptor2.toValue sealedBid) (some (descriptor3.toValue false)) ++
  testMember 6 (descriptor2.toValue bidder) (some (descriptor3.toValue false)) ++
  insertEntry 5 (descriptor2.toValue sealedBid) (newCell (descriptor2.toValue bidder)) ++
  insertEntry 6 (descriptor2.toValue bidder) (newCell (descriptor2.toValue sealedBid)) ++
  increment 12 1

/-- The transcript of closing the bidding. -/
def closeBiddingTranscript (auctioneer : Bytes32) : List Op :=
  readCell false 1 (some (descriptor2.toValue auctioneer)) ++
  readCell false 0 (some (descriptor1.toValue .bidding)) ++
  writeCell 0 (newCell (descriptor1.toValue .reveal))

/-- The part of the transcript of a reveal that depends on whether the amount counts and is the best
so far. -/
def countRevealTranscript (bidder : Bytes32) (amount : Uint64)
    (meetsReserve beatsCurrentBest : Bool) : List Op :=
  if meetsReserve then
    increment 13 1 ++
    if beatsCurrentBest then
      writeCell 8 (newCell (descriptor0.toValue amount)) ++
      writeCell 9 (newCell (descriptor2.toValue bidder))
    else []
  else []

/-- The transcript of a reveal. -/
def revealBidTranscript (bidder commitment : Bytes32) (amount reservePrice highestBid : Uint64) :
    List Op :=
  readCell false 0 (some (descriptor1.toValue .reveal)) ++
  testMember 6 (descriptor2.toValue bidder) (some (descriptor3.toValue true)) ++
  lookupEntry 6 (descriptor2.toValue bidder) (some (descriptor2.toValue commitment)) ++
  testMember 7 (descriptor2.toValue commitment) (some (descriptor3.toValue false)) ++
  insertEntry 7 (descriptor2.toValue commitment) newNull ++
  readCell false 2 (some (descriptor0.toValue reservePrice)) ++
  readCell false 8 (some (descriptor0.toValue highestBid)) ++
  countRevealTranscript bidder amount (decide (amount ≥ reservePrice))
    (decide (amount > highestBid))

/-- The part of the transcript of a finalization that records the outcome. -/
def recordOutcomeTranscript (noReveal : Bool) (highestBidder : Bytes32) (highestBid : Uint64) :
    List Op :=
  if noReveal then
    writeCell 10 (newCell (descriptor5.toValue none0)) ++
    writeCell 11 (newCell (descriptor0.toValue 0))
  else
    readCell false 9 (some (descriptor2.toValue highestBidder)) ++
    writeCell 10 (newCell (descriptor5.toValue (some0 highestBidder))) ++
    readCell false 8 (some (descriptor0.toValue highestBid)) ++
    writeCell 11 (newCell (descriptor0.toValue highestBid))

/-- The transcript of a finalization. -/
def finalizeTranscript (validRevealCount : Uint64) (highestBidder : Bytes32)
    (highestBid : Uint64) : List Op :=
  readCell false 0 (some (descriptor1.toValue .reveal)) ++
  readCell true 13 (some (descriptor0.toValue validRevealCount)) ++
  recordOutcomeTranscript (equal2 validRevealCount 0) highestBidder highestBid ++
  writeCell 0 (newCell (descriptor1.toValue .finalized))

/-- The part of the transcript of a cancellation that reads the phase, a second time when the first
read was not the bidding phase. -/
def notConcludedTranscript (phase : Phase) : List Op :=
  readCell false 0 (some (descriptor1.toValue phase)) ++
  if phase = .bidding then [] else readCell false 0 (some (descriptor1.toValue phase))

/-- The transcript of a cancellation. -/
def cancelTranscript (auctioneer : Bytes32) (phase : Phase) : List Op :=
  readCell false 1 (some (descriptor2.toValue auctioneer)) ++
  notConcludedTranscript phase ++
  readCell true 12 (some (descriptor0.toValue 0)) ++
  writeCell 0 (newCell (descriptor1.toValue .cancelled))

/-! ### Execution of a circuit -/

variable {vm : LedgerVm} {persistentHash : PersistentHash}

/-- A computation continues after one that succeeded. -/
theorem bind_of_ok {α β : Type} {first : CircuitM α} {rest : α → CircuitM β}
    {context next : CircuitContext} {value : α} (h : first context = .ok (value, next)) :
    (first >>= rest) context = rest value next := by
  show (first context >>= fun result ↦ rest result.1 result.2) = _
  rw [h, ok_bind]

/-- A circuit that starts with an assertion. -/
theorem assert_bind_apply {β : Type} (condition : Prop) [Decidable condition] (message : String)
    (rest : Unit → CircuitM β) (context : CircuitContext) :
    ((liftM (assert condition message) : CircuitM Unit) >>= rest) context =
      if condition then rest () context else .error ("failed assert: " ++ message) := by
  unfold assert
  split_ifs <;> rfl

/-- A circuit of the source that starts with an assertion. -/
theorem assert_bind {β : Type} (condition : Prop) [Decidable condition] (message : String)
    (rest : Unit → Except String β) :
    (assert condition message >>= rest) =
      if condition then rest () else .error ("failed assert: " ++ message) := by
  unfold assert
  split_ifs <;> rfl

theorem localSecretKey0_onLedger (ledger : Ledger) (privateState : SealedBidPrivateState)
    (outputs : List AlignedValue) (added : List Op) :
    localSecretKey0 (onLedger ledger ⟨privateState, outputs⟩ added) =
      .ok (privateState.secretKey, onLedger ledger
        ⟨privateState, outputs ++ [descriptor2.toValue privateState.secretKey]⟩ added) := rfl

/-- There is room for `n` more bids and counted reveals. -/
def Room (n : ℕ) (ledger : Ledger) : Prop :=
  ledger.bidCount + n < 18446744073709551616 ∧
    ledger.validRevealCount + n < 18446744073709551616

instance decidableRoom (n : ℕ) (ledger : Ledger) : Decidable (Room n ledger) :=
  inferInstanceAs (Decidable (_ ∧ _))

variable {ledger : Ledger} {privateState : SealedBidPrivateState} {outputs : List AlignedValue}
  {added : List Op}

theorem placeBid0_onLedger (sealedBid : Bytes32) (hroom : Room 1 ledger) :
    placeBid0 vm persistentHash sealedBid (onLedger ledger ⟨privateState, outputs⟩ added) =
      (placeBid persistentHash privateState.secretKey sealedBid ledger).map fun next ↦
        ((), onLedger next
          ⟨privateState, outputs ++ [descriptor2.toValue privateState.secretKey]⟩
          (added ++ placeBidTranscript sealedBid
            (deriveBidderId persistentHash privateState.secretKey))) := by
  unfold placeBid0 placeBid
  rw [bind_of_ok (query_phase _ _ _), assert_bind_apply, assert_bind]
  split_ifs with hphase
  swap
  · rfl
  rw [bind_of_ok (localSecretKey0_onLedger _ _ _ _), deriveBidderId_eq,
    bind_of_ok (query_member_commitments _ _ _ _), assert_bind_apply, assert_bind]
  by_cases hregistered : sealedBid ∈ ledger.commitments
  · rw [if_neg (by simp [hregistered]), if_neg (by simp [hregistered])]
    rfl
  rw [if_pos (by simp [hregistered]), if_pos hregistered,
    bind_of_ok (query_member_bidderCommitment _ _ _ _), assert_bind_apply, assert_bind]
  by_cases hplaced : deriveBidderId persistentHash privateState.secretKey ∈ ledger.bidderCommitment
  · rw [if_neg (by simp [hplaced]), if_neg (by simp [hplaced])]
    rfl
  rw [if_pos (by simp [hplaced]), if_pos hplaced, bind_of_ok (query_insert_commitments _ _ _ _ _),
    bind_of_ok (query_insert_bidderCommitment _ _ _ _ _),
    bind_of_ok (query_increment_bidCount _ _ ?_)]
  · simp only [hphase, hregistered, hplaced, decide_false, placeBidTranscript, ← List.append_assoc]
    rfl
  · exact hroom.1

theorem closeBidding0_onLedger :
    closeBidding0 vm persistentHash (onLedger ledger ⟨privateState, outputs⟩ added) =
      (closeBidding persistentHash privateState.secretKey ledger).map fun next ↦
        ((), onLedger next
          ⟨privateState, outputs ++ [descriptor2.toValue privateState.secretKey]⟩
          (added ++ closeBiddingTranscript ledger.auctioneer)) := by
  unfold closeBidding0 closeBidding
  rw [bind_of_ok (query_auctioneer _ _ _), bind_of_ok (localSecretKey0_onLedger _ _ _ _),
    assert_bind_apply, assert_bind, deriveAuctioneerId_eq]
  by_cases hcaller : ledger.auctioneer = deriveAuctioneerId persistentHash privateState.secretKey
  swap
  · rw [if_neg (by simpa [equal0] using hcaller), if_neg hcaller]
    rfl
  rw [if_pos (by simpa [equal0] using hcaller), if_pos hcaller, bind_of_ok (query_phase _ _ _),
    assert_bind_apply, assert_bind]
  split_ifs with hphase
  swap
  · rfl
  rw [bind_of_ok (query_write_phase _ _ _ _)]
  simp only [hphase, closeBiddingTranscript, ← List.append_assoc]
  rfl

/-- What a reveal that meets the reserve writes, as one ledger. -/
theorem countReveal0_onLedger (bidder : Bytes32) (amount : Uint64) (beatsCurrentBest : Bool)
    {localState : CircuitLocal} (hroom : Room 1 ledger) :
    countReveal0 vm bidder amount beatsCurrentBest (onLedger ledger localState added) =
      .ok ((), onLedger { ledger with
          validRevealCount := ledger.validRevealCount + 1
          highestBid := if beatsCurrentBest then amount else ledger.highestBid
          highestBidder := if beatsCurrentBest then bidder else ledger.highestBidder }
        localState (added ++ countRevealTranscript bidder amount true beatsCurrentBest)) := by
  unfold countReveal0
  rw [bind_of_ok (query_increment_validRevealCount _ _ hroom.2)]
  cases beatsCurrentBest with
  | false => simp only [countRevealTranscript, if_true, Bool.false_eq_true, if_false,
      List.append_nil]; rfl
  | true =>
    simp only [if_true]
    rw [bind_of_ok (query_write_highestBid _ _ _ _), bind_of_ok (query_write_highestBidder _ _ _ _)]
    simp only [countRevealTranscript, if_true, ← List.append_assoc]
    rfl

/-- The commitment that the source opens is the one in the ledger. -/
theorem revealBid0_onLedger (amount : Uint64) (nonce : Bytes32) (hroom : Room 1 ledger) :
    revealBid0 vm persistentHash amount nonce (onLedger ledger ⟨privateState, outputs⟩ added) =
      (revealBid persistentHash privateState.secretKey amount nonce ledger).map fun next ↦
        ((), onLedger next
          ⟨privateState, outputs ++ [descriptor2.toValue privateState.secretKey]⟩
          (added ++ revealBidTranscript (deriveBidderId persistentHash privateState.secretKey)
            (computeCommitment persistentHash amount nonce
              (deriveBidderId persistentHash privateState.secretKey))
            amount ledger.reservePrice ledger.highestBid)) := by
  unfold revealBid0 revealBid
  rw [bind_of_ok (query_phase _ _ _), assert_bind_apply, assert_bind]
  split_ifs with hphase
  swap
  · rfl
  rw [bind_of_ok (localSecretKey0_onLedger _ _ _ _), deriveBidderId_eq,
    bind_of_ok (query_member_bidderCommitment _ _ _ _), assert_bind_apply]
  cases hlookup :
    ledger.bidderCommitment.lookup (deriveBidderId persistentHash privateState.secretKey) with
  | none =>
    have hplaced := Finmap.lookup_eq_none.mp hlookup
    rw [if_neg (by simpa using hplaced)]
    simp only [hlookup]
    rfl
  | some commitment =>
    have hplaced := Finmap.mem_of_lookup_eq_some hlookup
    rw [if_pos (by simpa using hplaced), bind_of_ok (query_lookup_bidderCommitment _ _ hlookup),
      bind_of_ok (query_member_revealedCommitments _ _ _ _), assert_bind_apply]
    simp only [hlookup, assert_bind]
    by_cases hopened : commitment ∈ ledger.revealedCommitments
    · rw [if_neg (by simpa using hopened), if_neg (by simpa using hopened)]
      rfl
    rw [if_pos (by simpa using hopened), if_pos hopened, assert_bind_apply, computeCommitment_eq]
    by_cases hexpected : computeCommitment persistentHash amount nonce
        (deriveBidderId persistentHash privateState.secretKey) = commitment
    swap
    · rw [if_neg (by simpa [equal1] using hexpected), if_neg hexpected]
      rfl
    subst hexpected
    rw [if_pos (by simp [equal1]), if_pos rfl,
      bind_of_ok (query_insert_revealedCommitments _ _ _ _), bind_of_ok (query_reservePrice _ _ _),
      bind_of_ok (query_highestBid _ _ _)]
    by_cases hreserve : ledger.reservePrice ≤ amount
    · rw [if_pos (by simpa using hreserve), countReveal0_onLedger _ _ _ ?_]
      · simp only [Except.map, pure, Except.pure, recordReveal_eq, revealBidTranscript, hreserve,
          hphase, hplaced, hopened, true_and, if_true, gt_iff_lt, decide_true, decide_false,
          decide_eq_true_eq, ← List.append_assoc]
      · exact hroom
    · rw [if_neg (by simpa using hreserve)]
      simp only [Except.map, pure, Except.pure, recordReveal_eq, revealBidTranscript, hreserve,
        hphase, hplaced, hopened, false_and, decide_true, decide_false,
        countRevealTranscript, Bool.false_eq_true, if_false, List.append_nil, ← List.append_assoc]
      rfl

theorem recordOutcome0_onLedger (noReveal : Bool) {localState : CircuitLocal} :
    recordOutcome0 vm noReveal (onLedger ledger localState added) =
      .ok ((), onLedger { ledger with
          winner := if noReveal then none else some ledger.highestBidder
          winningAmount := if noReveal then 0 else ledger.highestBid }
        localState
        (added ++ recordOutcomeTranscript noReveal ledger.highestBidder ledger.highestBid)) := by
  unfold recordOutcome0
  cases noReveal with
  | true =>
    simp only [if_true]
    rw [show none0 = encodeWinner none from rfl, bind_of_ok (query_write_winner _ _ _ none),
      bind_of_ok (query_write_winningAmount _ _ _ _)]
    simp only [recordOutcomeTranscript, if_true, ← List.append_assoc]
    rfl
  | false =>
    simp only [Bool.false_eq_true, if_false]
    rw [bind_of_ok (query_highestBidder _ _ _),
      show some0 ledger.highestBidder = encodeWinner (some ledger.highestBidder) from rfl,
      bind_of_ok (query_write_winner _ _ _ (some ledger.highestBidder)),
      bind_of_ok (query_highestBid _ _ _), bind_of_ok (query_write_winningAmount _ _ _ _)]
    simp only [recordOutcomeTranscript, Bool.false_eq_true, if_false, ← List.append_assoc]
    rfl

/-- Assumes: the number of counted reveals is a 64-bit integer. -/
theorem finalize0_onLedger {count : Uint64} (hcount : ledger.validRevealCount = count.val)
    {localState : CircuitLocal} :
    finalize0 vm (onLedger ledger localState added) =
      (finalize ledger).map fun next ↦
        ((), onLedger next localState
          (added ++ finalizeTranscript count ledger.highestBidder ledger.highestBid)) := by
  have hnone : (equal2 count 0 = true) = (ledger.validRevealCount = 0) := by
    rw [hcount, equal2, equalNumbers_iff, Fin.ext_iff]
    rfl
  unfold finalize0 finalize
  rw [bind_of_ok (query_phase _ _ _), assert_bind_apply, assert_bind]
  by_cases hphase : ledger.phase = .reveal
  swap
  · rw [if_neg hphase, if_neg hphase]
    rfl
  rw [if_pos hphase, if_pos hphase]
  rw [bind_of_ok (query_validRevealCount _ _ hcount), bind_of_ok (recordOutcome0_onLedger _),
    bind_of_ok (query_write_phase _ _ _ _)]
  simp only [hnone, hphase, finalizeTranscript, ← List.append_assoc]
  split_ifs <;> rfl

theorem notConcluded0_onLedger {localState : CircuitLocal} :
    notConcluded0 vm (onLedger ledger localState added) =
      .ok (decide (ledger.phase = .bidding ∨ ledger.phase = .reveal), onLedger ledger localState
        (added ++ notConcludedTranscript ledger.phase)) := by
  unfold notConcluded0
  rw [bind_of_ok (query_phase _ _ _)]
  by_cases hphase : ledger.phase = .bidding
  · simp only [hphase, notConcludedTranscript, if_true, true_or, decide_true, List.append_nil]
    rfl
  · rw [if_neg hphase, bind_of_ok (query_phase _ _ _)]
    simp only [hphase, notConcludedTranscript, if_false, false_or, ← List.append_assoc]
    rfl

/-- Assumes: the number of bids is a 64-bit integer. -/
theorem cancel0_onLedger {count : Uint64} (hcount : ledger.bidCount = count.val) :
    cancel0 vm persistentHash (onLedger ledger ⟨privateState, outputs⟩ added) =
      (cancel persistentHash privateState.secretKey ledger).map fun next ↦
        ((), onLedger next
          ⟨privateState, outputs ++ [descriptor2.toValue privateState.secretKey]⟩
          (added ++ cancelTranscript ledger.auctioneer ledger.phase)) := by
  have hempty : (equal4 count 0 = true) = (ledger.bidCount = 0) := by
    rw [hcount, equal4, equalNumbers_iff, Fin.ext_iff]
    rfl
  unfold cancel0 cancel
  rw [bind_of_ok (query_auctioneer _ _ _), bind_of_ok (localSecretKey0_onLedger _ _ _ _),
    assert_bind_apply, assert_bind, deriveAuctioneerId_eq]
  by_cases hcaller : ledger.auctioneer = deriveAuctioneerId persistentHash privateState.secretKey
  swap
  · rw [if_neg (by simpa [equal3] using hcaller), if_neg hcaller]
    rfl
  rw [if_pos (by simpa [equal3] using hcaller), if_pos hcaller,
    bind_of_ok notConcluded0_onLedger, assert_bind_apply, assert_bind]
  by_cases hphase : ledger.phase = .bidding ∨ ledger.phase = .reveal
  swap
  · rw [if_neg (by simpa using hphase), if_neg hphase]
    rfl
  rw [if_pos (by simpa using hphase), if_pos hphase, bind_of_ok (query_bidCount _ _ hcount),
    assert_bind_apply, assert_bind]
  by_cases hnone : ledger.bidCount = 0
  swap
  · rw [if_neg (by rwa [hempty]), if_neg hnone]
    rfl
  have hzero : count = 0 := by
    rw [← equalNumbers_iff]
    rwa [← hempty] at hnone
  rw [if_pos (by rwa [hempty]), if_pos hnone, bind_of_ok (query_write_phase _ _ _ _)]
  simp only [hzero, cancelTranscript, ← List.append_assoc]
  rfl

/-! ### Calls -/

/-- What the witness returned during a call: `finalize` does not ask for the secret key. -/
def witnessOutputs (call : Call) : List AlignedValue :=
  match call.circuit with
  | .finalize => []
  | _ => [descriptor2.toValue call.secretKey]

variable (persistentHash) in
/-- The transcript of a call on a ledger on which it succeeds. -/
def transcript (call : Call) (ledger : Ledger) : List Op :=
  match call.circuit with
  | .placeBid sealedBid => placeBidTranscript sealedBid (call.bidder persistentHash)
  | .closeBidding => closeBiddingTranscript ledger.auctioneer
  | .revealBid amount nonce =>
    revealBidTranscript (call.bidder persistentHash)
      (computeCommitment persistentHash amount nonce (call.bidder persistentHash)) amount
      ledger.reservePrice ledger.highestBid
  | .finalize =>
    finalizeTranscript (Fin.ofNat 18446744073709551616 ledger.validRevealCount)
      ledger.highestBidder ledger.highestBid
  | .cancel => cancelTranscript ledger.auctioneer ledger.phase

/-- A count with room for one more is a 64-bit integer. -/
theorem count_eq_ofNat {count : ℕ} (h : count + 1 < 18446744073709551616) :
    count = (Fin.ofNat 18446744073709551616 count).val :=
  (Nat.mod_eq_of_lt (Nat.lt_of_succ_lt h)).symm

/-- The circuit of a call, run on the state array of a ledger. -/
theorem body_onLedger (call : Call) (hroom : Room 1 ledger) :
    body vm persistentHash call.circuit (onLedger ledger ⟨⟨call.secretKey⟩, outputs⟩ added) =
      (exec persistentHash call ledger).map fun next ↦
        ((), onLedger next ⟨⟨call.secretKey⟩, outputs ++ witnessOutputs call⟩
          (added ++ transcript persistentHash call ledger)) := by
  obtain ⟨secretKey, circuit⟩ := call
  cases circuit with
  | placeBid sealedBid => exact placeBid0_onLedger sealedBid hroom
  | closeBidding => exact closeBidding0_onLedger
  | revealBid amount nonce => exact revealBid0_onLedger amount nonce hroom
  | finalize =>
    simp only [witnessOutputs, List.append_nil]
    exact finalize0_onLedger (count_eq_ofNat hroom.2)
  | cancel => exact cancel0_onLedger (count_eq_ofNat hroom.1)

/-- The result of a call that leads to a ledger. -/
def callResult (call : Call) (added : List Op) (next : Ledger) : CallResult where
  state := encode next
  privateState := ⟨call.secretKey⟩
  proofData := {
    input := input call.circuit
    output := []
    publicTranscript := added
    privateTranscriptOutputs := witnessOutputs call }

/-- An entry point on the state array of a ledger: the result of the call of the source. -/
theorem call_encode (call : Call) (hroom : Room 1 ledger) :
    Compiled.call vm persistentHash call.circuit (encode ledger) ⟨call.secretKey⟩ =
      (exec persistentHash call ledger).map
        (callResult call (transcript persistentHash call ledger)) := by
  show (body vm persistentHash call.circuit (onLedger ledger ⟨⟨call.secretKey⟩, []⟩ []) >>= _) = _
  rw [body_onLedger call hroom]
  cases exec persistentHash call ledger with
  | error message => rfl
  | ok next => rfl

/-! ### Constructor -/

/-- Writing cells one after the other replaces that part of the array. Assumes: the cells written
lie in the array. -/
theorem writeCells_array (vm : LedgerVm) (items : List Node) (first : Fin 256)
    (before replaced after : List Node) (context : CircuitContext)
    (hlength : replaced.length = items.length) (hfirst : before.length = first.val)
    (hfit : before.length + items.length < 256)
    (hstate : context.state = .array (before ++ replaced ++ after)) :
    ∃ transcript, writeCells vm first (items.map .node) context =
      .ok ((), { context with
        state := .array (before ++ items ++ after), transcript := transcript }) := by
  induction items generalizing first before replaced context with
  | nil =>
    rw [List.length_nil, List.length_eq_zero_iff] at hlength
    subst hlength
    exact ⟨context.transcript, by rw [← hstate]; rfl⟩
  | cons item items ih =>
    obtain _ | ⟨old, replaced⟩ := replaced
    · simp at hlength
    rw [List.length_cons] at hfit
    have hcell : first.val < (before ++ old :: replaced ++ after).length := by
      rw [← hfirst]
      simp
    have hset : (before ++ old :: replaced ++ after).set first.val item =
        (before ++ [item]) ++ replaced ++ after := by
      rw [← hfirst]
      simp
    have hnext : (first + 1).val = first.val + 1 := by
      rw [Fin.val_add]
      exact Nat.mod_eq_of_lt (by omega)
    have hwrite : queryLedgerState vm (writeCell first (.node item)) context =
        .ok ([], extend context (.array (before ++ [item] ++ replaced ++ after))
          (writeCell first (.node item))) := by
      rw [← hset]
      exact query_writeCell first item hstate hcell
    obtain ⟨transcript, hrest⟩ := ih (first + 1) (before ++ [item]) replaced
      (extend context (.array (before ++ [item] ++ replaced ++ after))
        (writeCell first (.node item)))
      (by simpa using hlength) (by rw [hnext, ← hfirst]; simp) (by simp; omega) rfl
    refine ⟨transcript, ?_⟩
    show (queryLedgerState vm (writeCell first (.node item)) >>= fun _ ↦
      writeCells vm (first + 1) (items.map .node)) context = _
    rw [bind_of_ok hwrite, hrest]
    simp [extend]

/-- The ledger whose cells have their default values. -/
def defaultLedger : Ledger where
  phase := .bidding
  auctioneer := zeroBytes
  reservePrice := 0
  bidDeadline := 0
  revealDeadline := 0
  commitments := ∅
  bidderCommitment := ∅
  revealedCommitments := ∅
  highestBid := 0
  highestBidder := zeroBytes
  winner := none
  winningAmount := 0
  bidCount := 0
  validRevealCount := 0

theorem defaultCells_eq : defaultCells = (encodeCells defaultLedger).map .node := rfl

/-- The compiled constructor builds the state array of the ledger of the source. -/
theorem initialState0_newArray (reservePrice bidDeadline revealDeadline : Uint64) :
    (initialState0 vm persistentHash reservePrice bidDeadline revealDeadline
        (startContext newArray privateState)).map
          (fun result ↦ (result.2.state, result.2.localState.currentPrivateState)) =
      (constructor persistentHash privateState.secretKey reservePrice bidDeadline
        revealDeadline).map fun ledger ↦ (encode ledger, privateState) := by
  obtain ⟨transcript, hdefault⟩ := writeCells_array vm (encodeCells defaultLedger) 0 []
    (List.replicate 14 (.leaf .null)) [] (startContext newArray privateState) rfl rfl (by decide)
    rfl
  unfold initialState0 constructor
  rw [defaultCells_eq, bind_of_ok hdefault, assert_bind_apply, assert_bind]
  by_cases hreserve : reservePrice > 0
  swap
  · rw [if_neg hreserve, if_neg hreserve]
    rfl
  rw [if_pos hreserve, if_pos hreserve, assert_bind_apply, assert_bind]
  by_cases hdeadline : revealDeadline > bidDeadline
  swap
  · rw [if_neg hdeadline, if_neg hdeadline]
    rfl
  rw [if_pos hdeadline, if_pos hdeadline]
  show Except.map _ ((localSecretKey0 >>= _)
    (onLedger defaultLedger ⟨privateState, []⟩ transcript)) = _
  rw [bind_of_ok (localSecretKey0_onLedger _ _ _ _), deriveAuctioneerId_eq,
    bind_of_ok (query_write_auctioneer _ _ _ _), bind_of_ok (query_write_reservePrice _ _ _ _),
    bind_of_ok (query_write_bidDeadline _ _ _ _), bind_of_ok (query_write_revealDeadline _ _ _ _),
    bind_of_ok (query_write_phase _ _ _ _), show none0 = encodeWinner none from rfl,
    bind_of_ok (query_write_winner _ _ _ none), bind_of_ok (query_write_winningAmount _ _ _ _)]
  rfl

/-! ### Runs -/

variable (vm persistentHash) in
/-- One call executed on a state array: the entry point, with the secret key of the caller in the
private state. -/
def execCompiled (call : Call) (state : StateValue) : Except String StateValue :=
  (Compiled.call vm persistentHash call.circuit state ⟨call.secretKey⟩).map CallResult.state

theorem execCompiled_encode (call : Call) (hroom : Room 1 ledger) :
    execCompiled vm persistentHash call (encode ledger) =
      (exec persistentHash call ledger).map encode := by
  rw [execCompiled, call_encode call hroom]
  cases exec persistentHash call ledger with
  | error message => rfl
  | ok next => rfl

/-- A call registers at most one bid and counts at most one reveal. -/
theorem exec_counts_le {call : Call} {next : Ledger}
    (h : exec persistentHash call ledger = .ok next) :
    next.bidCount ≤ ledger.bidCount + 1 ∧
      next.validRevealCount ≤ ledger.validRevealCount + 1 := by
  obtain ⟨secretKey, circuit⟩ := call
  cases circuit with
  | placeBid sealedBid =>
    obtain ⟨-, -, -, rfl⟩ := placeBid_eq_ok_iff.mp h
    exact ⟨le_refl _, Nat.le_succ _⟩
  | closeBidding =>
    obtain ⟨-, -, rfl⟩ := closeBidding_eq_ok_iff.mp h
    exact ⟨Nat.le_succ _, Nat.le_succ _⟩
  | revealBid amount nonce =>
    obtain ⟨-, -, -, rfl⟩ := revealBid_eq_ok_iff.mp h
    rw [recordReveal_eq]
    dsimp only
    split_ifs <;> exact ⟨Nat.le_succ _, by omega⟩
  | finalize =>
    obtain ⟨-, rfl⟩ := finalize_eq_ok_iff.mp h
    exact ⟨Nat.le_succ _, Nat.le_succ _⟩
  | cancel =>
    obtain ⟨-, -, -, rfl⟩ := cancel_eq_ok_iff.mp h
    exact ⟨Nat.le_succ _, Nat.le_succ _⟩

/-- A call uses up the room of one call. -/
theorem Room.step (n : ℕ) (ledger : Ledger) (call : Call) (h : Room (n + 1) ledger) :
    Room n (FailSafeRun.step (exec persistentHash) ledger call) := by
  obtain ⟨hbids, hreveals⟩ := h
  by_cases hcall : Succeeds (exec persistentHash) ledger call
  · obtain ⟨hbid, hreveal⟩ := exec_counts_le hcall.exec_eq
    exact ⟨by omega, by omega⟩
  · rw [step_of_not_succeeds hcall]
    exact ⟨by omega, by omega⟩

theorem Room.mono {n m : ℕ} (hle : n ≤ m) (h : Room m ledger) : Room n ledger :=
  ⟨by have := h.1; omega, by have := h.2; omega⟩

/-- The state array after a run of the compiled contract is that of the ledger after the run of the
source. Assumes: the ledger has room for the calls. -/
theorem run_encode (vm : LedgerVm) {calls : List Call} {n : ℕ}
    (hroom : Room (n + calls.length) ledger) :
    run (execCompiled vm persistentHash) (encode ledger) calls =
        encode (run (exec persistentHash) ledger calls) ∧
      Room n (run (exec persistentHash) ledger calls) :=
  run_map Room Room.step
    (fun _ _ call hroom ↦ execCompiled_encode call (hroom.mono (Nat.le_add_left 1 _))) hroom

/-- A constructed ledger has no bids and no counted reveals. -/
theorem room_of_constructor {sk : Bytes32} {reservePrice bidDeadline revealDeadline : Uint64}
    (h : constructor persistentHash sk reservePrice bidDeadline revealDeadline = .ok ledger)
    {n : ℕ} (hn : n < 18446744073709551616) : Room n ledger := by
  obtain ⟨-, -, rfl⟩ := constructor_eq_ok_iff.mp h
  exact ⟨by simpa using hn, by simpa using hn⟩

/-- **The compiled contract refines the source over whole runs.** The constructor builds the state
array of the constructed ledger. After any calls, by any callers, with any arguments, the state
array is that of the ledger of the source, and the next call returns what the call of the source
returns: the message of the same failed assertion, or the state array of the same next ledger, with
the transcript of the call and the outputs of the witness. Assumes: fewer than `2^64 - 1` calls. -/
theorem compiled_run_refines (vm : LedgerVm) {privateState : SealedBidPrivateState}
    {reservePrice bidDeadline revealDeadline : Uint64}
    (hcreate : constructor persistentHash privateState.secretKey reservePrice bidDeadline
      revealDeadline = .ok ledger) (calls : List Call)
    (hlength : calls.length < 18446744073709551615) (call : Call) :
    (initialState0 vm persistentHash reservePrice bidDeadline revealDeadline
        (startContext newArray privateState)).map
          (fun result ↦ (result.2.state, result.2.localState.currentPrivateState)) =
        .ok (encode ledger, privateState) ∧
      run (execCompiled vm persistentHash) (encode ledger) calls =
        encode (run (exec persistentHash) ledger calls) ∧
      Compiled.call vm persistentHash call.circuit
          (run (execCompiled vm persistentHash) (encode ledger) calls) ⟨call.secretKey⟩ =
        (exec persistentHash call (run (exec persistentHash) ledger calls)).map
          (callResult call
            (transcript persistentHash call (run (exec persistentHash) ledger calls))) := by
  have hroom : Room (1 + calls.length) ledger := room_of_constructor hcreate (by omega)
  obtain ⟨hrun, hlast⟩ := run_encode vm hroom
  refine ⟨?_, hrun, ?_⟩
  · rw [initialState0_newArray, hcreate]
    rfl
  · rw [hrun]
    exact call_encode call hlast

theorem compiled_run_refines_harness :
    Compiled.call referenceVm sampleHash (revealCall 0xb0 150).circuit
        (run (execCompiled referenceVm sampleHash) (encode harnessLedger)
          [commitCall 0xb0 150, closeCall]) ⟨key 0xb0⟩ =
      (exec sampleHash (revealCall 0xb0 150)
        (run (exec sampleHash) harnessLedger [commitCall 0xb0 150, closeCall])).map
          (callResult (revealCall 0xb0 150)
            (transcript sampleHash (revealCall 0xb0 150)
              (run (exec sampleHash) harnessLedger [commitCall 0xb0 150, closeCall]))) :=
  (@compiled_run_refines sampleHash harnessLedger referenceVm ⟨key 0xa0⟩ 100 1000 2000
    harnessLedger_eq [commitCall 0xb0 150, closeCall] (by decide) (revealCall 0xb0 150)).2.2

end SealedBid.Compiled
