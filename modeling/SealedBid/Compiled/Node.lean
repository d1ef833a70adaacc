import SealedBid.Compiled.Replay
import SealedBid.Compiled.ZkIrCompleteness

/-!
# What a node accepts

A transaction calls an entry point of the contract with a transcript and a proof. A node accepts it
when the proof verifies against the program of the entry point, with the field elements of the
transcript as its public inputs, and the transcript, replayed on the state of the contract, succeeds
(`Accepts`). A node sees neither the arguments nor the secret key of the caller, nor does it run the
circuit: that an accepted transaction is a call of the source is the business of the program that is
proved (`exec_of_accepts`), and that every call of the source has a transaction that is accepted is
that of the program and of the JavaScript together (`accepts_of_exec`). So the states that a chain
of transactions can reach are those of the runs of the source (`accepted_iff`).

Scope. Fees, the effects of a call on coins, and the binding of a proof to its transaction are not
modelled.
-/

set_option autoImplicit false
set_option relaxedAutoImplicit false

namespace SealedBid.Compiled

open RecordedPrograms FailSafeRun

variable {vm : LedgerVm} {persistentHash : PersistentHash} {undeclared : UndeclaredFields}

/-! ### Replays on the state array of a ledger -/

/-- A transcript and the transcript without its `noop` instructions are accepted alike. -/
theorem applyTranscript_strip_iff {message : List Op} {state next : StateValue} :
    applyTranscript vm ((fieldCode undeclared).strip message) state = .ok next ↔
      applyTranscript vm message state = .ok next := by
  have hskip : ∀ op stack, (Op.padLength op).isNone = false →
      ∃ values, vm.machine.step op stack = .ok (stack, values) := by
    intro op stack hpad
    cases op with
    | noop n => exact ⟨[], vm.step_of_next rfl⟩
    | dup | idx | push | member | size | eq | addi | ins | popeq => cases hpad
  simp only [applyTranscript, Machine.replay, bind_eq_ok_iff, Prod.exists]
  have hrun := fun last : List StateValue ↦
    @Machine.run_filter_iff _ _ _ _ vm.machine (fun op ↦ (Op.padLength op).isNone) message
      (state :: vm.beneath) last hskip
  simp only [exists_and_right]
  exact exists_congr fun last ↦ and_congr_left fun _ ↦ hrun last

/-- A program that reads reads one value. -/
theorem read_unique {access : List Op} {cached : Bool} {value other : AlignedValue}
    {state next next' : StateValue}
    (hheight : vm.machine.heightAfter 1 (access ++ [.popeq cached none]) = some 1)
    (h : applyTranscript vm (access ++ [.popeq cached (some value)]) state = .ok next)
    (h' : applyTranscript vm (access ++ [.popeq cached (some other)]) state = .ok next') :
    value = other ∧ next = next' := by
  have hheights : ∀ result, vm.machine.heightAfter 1 (access ++ [.popeq cached (some result)]) =
      some 1 := by
    intro result
    rw [← hheight, Machine.heightAfter_append, Machine.heightAfter_append]
    rfl
  obtain ⟨reads, hrun⟩ := (Machine.replay_eq_ok_iff (hheights value)).mp h
  obtain ⟨reads', hrun'⟩ := (Machine.replay_eq_ok_iff (hheights other)).mp h'
  obtain ⟨stack, _, _, haccess, hpop, -⟩ := Machine.run_append_eq_ok_iff.mp hrun
  obtain ⟨stack', _, _, haccess', hpop', -⟩ := Machine.run_append_eq_ok_iff.mp hrun'
  rw [haccess] at haccess'
  cases haccess'
  obtain ⟨_, _, _, hstep, hnil, -⟩ := Machine.run_cons_eq_ok_iff.mp hpop
  obtain ⟨_, _, _, hstep', hnil', -⟩ := Machine.run_cons_eq_ok_iff.mp hpop'
  cases hnil
  cases hnil'
  obtain ⟨hstack, -⟩ := vm.step_popeq_some_eq_ok_iff.mp hstep
  obtain ⟨hstack', -⟩ := vm.step_popeq_some_eq_ok_iff.mp hstep'
  rw [hstack] at hstack'
  simp only [newCell, List.cons.injEq, StateValue.node.injEq, Node.leaf.injEq,
    Leaf.cell.injEq, and_true] at hstack'
  exact hstack'

variable (vm) in
/-- A program that ends with the read of a value. -/
def IsRead (program : Option AlignedValue → List Op) : Prop :=
  vm.machine.heightAfter 1 (program none) = some 1 ∧
    ∃ access cached, ∀ result, program result = access ++ [.popeq cached result]

theorem isRead_readCell (cached : Bool) (cell : Fin 256) : IsRead vm (readCell cached cell) :=
  ⟨rfl, [.dup 0, .idx false false [cellKey cell]], cached, fun _ ↦ rfl⟩

theorem isRead_testMember (cell : Fin 256) (key : AlignedValue) :
    IsRead vm (testMember cell key) :=
  ⟨rfl, [.dup 0, .idx false false [cellKey cell], .push false (newCell key), .member], true,
    fun _ ↦ rfl⟩

theorem isRead_lookupEntry (cell : Fin 256) (key : AlignedValue) :
    IsRead vm (lookupEntry cell key) :=
  ⟨rfl, [.dup 0, .idx false false [cellKey cell], .idx false false [key]], false, fun _ ↦ rfl⟩

/-- A program that reads a value of the ledger is accepted with that value only, and changes
nothing. -/
theorem apply_read {α : Type} {descriptor : Descriptor α}
    {program : Option AlignedValue → List Op} (hprogram : IsRead vm program) {ledger : Ledger}
    {localState : CircuitLocal} {x : α}
    (hquery : queryValue vm descriptor (program none) (onLedger ledger localState []) =
      .ok (x, onLedger ledger localState ([] ++ program (some (descriptor.toValue x)))))
    {value : AlignedValue} {rest : List Op} {state : StateValue}
    (happly : applyTranscript vm (program (some value) ++ rest) (encode ledger) = .ok state) :
    value = descriptor.toValue x ∧ applyTranscript vm rest (encode ledger) = .ok state := by
  obtain ⟨hheight, access, cached, hprogram⟩ := hprogram
  have hfaithful : Faithful vm.machine vm.beneath (queryValue vm descriptor (program none)) :=
    (faithful_query hheight).bind fun _ ↦ faithful_lift _
  obtain ⟨added, recording⟩ := hfaithful hquery
  have hadded : program (some (descriptor.toValue x)) = added := recording.transcript_eq
  have hself : applyTranscript vm (program (some (descriptor.toValue x))) (encode ledger) =
      .ok (encode ledger) := by
    rw [hadded]
    exact recording.replay_self
  simp only [hprogram] at happly hself hheight
  have hheight' : vm.machine.heightAfter 1 (access ++ [.popeq cached (some value)]) = some 1 := by
    rw [← hheight, Machine.heightAfter_append, Machine.heightAfter_append]
    rfl
  obtain ⟨middle, hread, hrest⟩ := (Machine.replay_append_eq_ok_iff hheight').mp happly
  obtain ⟨rfl, rfl⟩ := read_unique hheight hread hself
  exact ⟨rfl, hrest⟩

/-- A program that writes leads to the ledger that it writes. -/
theorem apply_write {program : List Op} (hheight : vm.machine.heightAfter 1 program = some 1)
    {ledger next : Ledger} {localState : CircuitLocal} {reads : List AlignedValue}
    (hquery : queryLedgerState vm program (onLedger ledger localState []) =
      .ok (reads, onLedger next localState ([] ++ program)))
    {rest : List Op} {state : StateValue}
    (happly : applyTranscript vm (program ++ rest) (encode ledger) = .ok state) :
    applyTranscript vm rest (encode next) = .ok state := by
  obtain ⟨added, recording⟩ := (faithful_query hheight :
    Faithful vm.machine vm.beneath (queryLedgerState vm program)) hquery
  have hadded : program = added := recording.transcript_eq
  obtain ⟨middle, hwrite, hrest⟩ := (Machine.replay_append_eq_ok_iff hheight).mp happly
  have hself : vm.machine.replay vm.beneath program (encode ledger) = .ok (encode next) := by
    rw [hadded]
    exact recording.replay_self
  rw [hself] at hwrite
  cases hwrite
  exact hrest

/-- Where a call succeeds, its transcript leads to the state array of the next ledger. -/
theorem state_of_apply {call : Call} {ledger next : Ledger} {state : StateValue}
    (hroom : Room 1 ledger) (hcall : exec persistentHash call ledger = .ok next)
    (happly : applyTranscript vm (transcript persistentHash call ledger) (encode ledger) =
      .ok state) :
    state = encode next := by
  obtain ⟨next', hnext, -, hstate⟩ := (applyTranscript_eq_ok_iff hroom hroom hcall).mp happly
  rw [hcall] at hnext
  cases hnext
  exact hstate

/-! ### Accepted transcripts are calls of the source -/

section Circuits

variable {ledger : Ledger} {state : StateValue} {secretKey : Bytes32}

/-- A bit that is read as the truth of a condition. -/
theorem bit_eq_of_toValue {bit : ℕ} {condition : Prop} [Decidable condition]
    (h : [(⟨1, bit⟩ : Atom)] = descriptor3.toValue (decide condition)) :
    bit = if condition then 1 else 0 := by
  have hatom := congrArg Atom.value (List.cons.inj h).1
  by_cases hcondition : condition <;> simp_all [descriptor3, compactTypeBoolean]

/-- A 64-bit integer that is read. -/
theorem eq_of_toValue {x : ℕ} {y : Uint64} (h : [(⟨8, x⟩ : Atom)] = descriptor0.toValue y) :
    x = y.val :=
  congrArg Atom.value (List.cons.inj h).1

theorem placeBid_of_apply {sealedBid : Bytes32} {registered placed : ℕ}
    (hregistered : registered ≤ 1 → registered = 0) (hplaced : placed ≤ 1 → placed = 0)
    (happly : applyTranscript vm (placeBidDeclared sealedBid
      (deriveBidderId persistentHash secretKey) registered placed) (encode ledger) = .ok state) :
    Succeeds (exec persistentHash) ledger ⟨secretKey, .placeBid sealedBid⟩ ∧
      placeBidDeclared sealedBid (deriveBidderId persistentHash secretKey) registered placed =
        transcript persistentHash ⟨secretKey, .placeBid sealedBid⟩ ledger := by
  have hprograms := happly
  simp only [placeBidDeclared, List.append_assoc] at hprograms
  obtain ⟨hphase, hrest⟩ := apply_read (isRead_readCell false 0)
    (query_phase ledger ⟨⟨secretKey⟩, []⟩ []) hprograms
  obtain ⟨hmember, hrest⟩ := apply_read (isRead_testMember 5 _)
    (query_member_commitments ledger ⟨⟨secretKey⟩, []⟩ [] sealedBid) hrest
  obtain ⟨hmember', -⟩ := apply_read (isRead_testMember 6 _)
    (query_member_bidderCommitment ledger ⟨⟨secretKey⟩, []⟩ [] _) hrest
  have hfresh : registered = 0 ∧ sealedBid ∉ ledger.commitments := by
    have hbit := bit_eq_of_toValue hmember
    split_ifs at hbit with hcommitment <;> simp_all
  have hfresh' : placed = 0 ∧
      deriveBidderId persistentHash secretKey ∉ ledger.bidderCommitment := by
    have hbit := bit_eq_of_toValue hmember'
    split_ifs at hbit with hbidder <;> simp_all
  have hcall : exec persistentHash ⟨secretKey, .placeBid sealedBid⟩ ledger = .ok _ :=
    placeBid_eq_ok_iff.mpr ⟨descriptor1.toValue_injective hphase.symm, hfresh.2, hfresh'.2, rfl⟩
  rw [hfresh.1, hfresh'.1]
  exact ⟨⟨_, hcall⟩, rfl⟩

theorem closeBidding_of_apply
    (happly : applyTranscript vm (closeBiddingTranscript
      (deriveAuctioneerId persistentHash secretKey)) (encode ledger) = .ok state) :
    Succeeds (exec persistentHash) ledger ⟨secretKey, .closeBidding⟩ ∧
      closeBiddingTranscript (deriveAuctioneerId persistentHash secretKey) =
        transcript persistentHash ⟨secretKey, .closeBidding⟩ ledger := by
  have hprograms := happly
  simp only [closeBiddingTranscript, List.append_assoc] at hprograms
  obtain ⟨hauctioneer, hrest⟩ := apply_read (isRead_readCell false 1)
    (query_auctioneer ledger ⟨⟨secretKey⟩, []⟩ []) hprograms
  obtain ⟨hphase, -⟩ := apply_read (isRead_readCell false 0)
    (query_phase ledger ⟨⟨secretKey⟩, []⟩ []) hrest
  have hcaller : ledger.auctioneer = deriveAuctioneerId persistentHash secretKey :=
    descriptor2.toValue_injective hauctioneer.symm
  have hcall : exec persistentHash ⟨secretKey, .closeBidding⟩ ledger = .ok _ :=
    closeBidding_eq_ok_iff.mpr ⟨hcaller, descriptor1.toValue_injective hphase.symm, rfl⟩
  rw [← hcaller]
  exact ⟨⟨_, hcall⟩, rfl⟩

theorem revealBid_of_apply {amount : Uint64} {nonce : Bytes32}
    {placed opened reservePrice highestBid : ℕ} {rest : List Op}
    (hplaced : placed ≤ 1 → placed = 1) (hopened : opened ≤ 1 → opened = 0)
    (hrest : reservePrice < 18446744073709551616 → highestBid < 18446744073709551616 →
      rest = countRevealTranscript (deriveBidderId persistentHash secretKey) amount
        (decide (reservePrice ≤ amount.val)) (decide (highestBid < amount.val)))
    (happly : applyTranscript vm (openingDeclared (deriveBidderId persistentHash secretKey)
      (computeCommitment persistentHash amount nonce (deriveBidderId persistentHash secretKey))
        placed opened reservePrice highestBid ++ rest) (encode ledger) = .ok state) :
    Succeeds (exec persistentHash) ledger ⟨secretKey, .revealBid amount nonce⟩ ∧
      openingDeclared (deriveBidderId persistentHash secretKey)
          (computeCommitment persistentHash amount nonce
            (deriveBidderId persistentHash secretKey)) placed opened reservePrice highestBid ++
          rest =
        transcript persistentHash ⟨secretKey, .revealBid amount nonce⟩ ledger := by
  have hprograms := happly
  simp only [openingDeclared, List.append_assoc] at hprograms
  obtain ⟨hphase, hprograms⟩ := apply_read (isRead_readCell false 0)
    (query_phase ledger ⟨⟨secretKey⟩, []⟩ []) hprograms
  obtain ⟨hmember, hprograms⟩ := apply_read (isRead_testMember 6 _)
    (query_member_bidderCommitment ledger ⟨⟨secretKey⟩, []⟩ [] _) hprograms
  have hbidder : placed = 1 ∧
      deriveBidderId persistentHash secretKey ∈ ledger.bidderCommitment := by
    have hbit := bit_eq_of_toValue hmember
    split_ifs at hbit with hbidder <;> simp_all
  obtain ⟨commitment, hlookup⟩ := Finmap.mem_iff.mp hbidder.2
  obtain ⟨hregistered, hprograms⟩ := apply_read (isRead_lookupEntry 6 _)
    (query_lookup_bidderCommitment ⟨⟨secretKey⟩, []⟩ [] hlookup) hprograms
  obtain rfl := descriptor2.toValue_injective hregistered
  obtain ⟨hmember', hprograms⟩ := apply_read (isRead_testMember 7 _)
    (query_member_revealedCommitments ledger ⟨⟨secretKey⟩, []⟩ [] _) hprograms
  have hfresh : opened = 0 ∧ computeCommitment persistentHash amount nonce
      (deriveBidderId persistentHash secretKey) ∉ ledger.revealedCommitments := by
    have hbit := bit_eq_of_toValue hmember'
    split_ifs at hbit with hcommitment <;> simp_all
  have hprograms := apply_write rfl
    (query_insert_revealedCommitments ledger ⟨⟨secretKey⟩, []⟩ [] _) hprograms
  obtain ⟨hreserve, hprograms⟩ := apply_read (isRead_readCell false 2)
    (query_reservePrice _ ⟨⟨secretKey⟩, []⟩ []) hprograms
  obtain ⟨hbest, -⟩ := apply_read (isRead_readCell false 8)
    (query_highestBid _ ⟨⟨secretKey⟩, []⟩ []) hprograms
  obtain rfl := eq_of_toValue hreserve
  obtain rfl := eq_of_toValue hbest
  have hcall : exec persistentHash ⟨secretKey, .revealBid amount nonce⟩ ledger = .ok _ :=
    revealBid_eq_ok_iff.mpr
      ⟨descriptor1.toValue_injective hphase.symm, hlookup, hfresh.2, rfl⟩
  rw [hbidder.1, hfresh.1, hrest (Fin.isLt _) (Fin.isLt _)]
  exact ⟨⟨_, hcall⟩, rfl⟩

/-- The transcript of a finalization, from the declared one. -/
theorem strip_finalizeDeclared (validRevealCount : Uint64) (highestBidder : Bytes32)
    (highestBid : Uint64) :
    (fieldCode undeclared).strip (finalizeDeclared validRevealCount.val
        (leNat highestBidder.toList) highestBid.val) =
      finalizeTranscript validRevealCount highestBidder highestBid := by
  have hnone : equal2 validRevealCount 0 = decide (validRevealCount.val = 0) := by
    rw [Bool.eq_iff_iff, equal2, equalNumbers_iff, Fin.ext_iff, decide_eq_true_iff]
    rfl
  rw [finalizeDeclared, finalizeTranscript, hnone]
  cases decide (validRevealCount.val = 0) <;> rfl

/-- The transcript of a cancellation, from the declared one. -/
theorem strip_cancelDeclared (auctioneer : Bytes32) {phase : Phase}
    (hphase : phase = .bidding ∨ phase = .reveal) :
    (fieldCode undeclared).strip (cancelDeclared auctioneer (phaseNumber phase)) =
      cancelTranscript auctioneer phase := by
  obtain rfl | rfl := hphase <;> rfl

theorem finalize_of_apply (hroom : Room 1 ledger)
    {validRevealCount highestBidder highestBid : ℕ}
    (happly : applyTranscript vm ((fieldCode undeclared).strip
      (finalizeDeclared validRevealCount highestBidder highestBid)) (encode ledger) = .ok state) :
    Succeeds (exec persistentHash) ledger ⟨secretKey, .finalize⟩ ∧
      (fieldCode undeclared).strip (finalizeDeclared validRevealCount highestBidder highestBid) =
        transcript persistentHash ⟨secretKey, .finalize⟩ ledger := by
  have hprograms := happly
  simp only [finalizeDeclared, PaddedCode.strip_append, List.append_assoc] at hprograms
  obtain ⟨hphase, hprograms⟩ := apply_read (isRead_readCell false 0)
    (query_phase ledger ⟨⟨secretKey⟩, []⟩ []) hprograms
  obtain ⟨hvalid, hprograms⟩ := apply_read (isRead_readCell true 13)
    (query_validRevealCount ⟨⟨secretKey⟩, []⟩ [] (count_eq_ofNat hroom.2)) hprograms
  obtain rfl := eq_of_toValue hvalid
  have hdeclared : finalizeDeclared (Fin.ofNat 18446744073709551616 ledger.validRevealCount).val
      highestBidder highestBid =
        finalizeDeclared (Fin.ofNat 18446744073709551616 ledger.validRevealCount).val
          (leNat ledger.highestBidder.toList) ledger.highestBid.val := by
    by_cases hnone : (Fin.ofNat 18446744073709551616 ledger.validRevealCount).val = 0
    · simp only [finalizeDeclared, recordOutcomeDeclared, hnone, decide_true, if_true]
    · -- the winner and the winning amount are read from the ledger
      simp only [recordOutcomeDeclared, hnone, decide_false, Bool.false_eq_true, if_false,
        PaddedCode.strip_append, List.append_assoc] at hprograms
      obtain ⟨hbidder, hprograms⟩ := apply_read (isRead_readCell false 9)
        (query_highestBidder ledger ⟨⟨secretKey⟩, []⟩ []) hprograms
      obtain rfl : highestBidder = leNat ledger.highestBidder.toList :=
        congrArg Atom.value (List.cons.inj hbidder).1
      have hprograms := apply_write rfl
        (query_write_winner ledger ⟨⟨secretKey⟩, []⟩ [] (some ledger.highestBidder)) hprograms
      obtain ⟨hbest, -⟩ := apply_read (isRead_readCell false 8)
        (query_highestBid _ ⟨⟨secretKey⟩, []⟩ []) hprograms
      rw [eq_of_toValue hbest]
  have hcall : exec persistentHash ⟨secretKey, .finalize⟩ ledger = .ok _ :=
    finalize_eq_ok_iff.mpr ⟨descriptor1.toValue_injective hphase.symm, rfl⟩
  rw [hdeclared, strip_finalizeDeclared]
  exact ⟨⟨_, hcall⟩, rfl⟩

theorem cancel_of_apply (hroom : Room 1 ledger) {phase : ℕ}
    (happly : applyTranscript vm ((fieldCode undeclared).strip (cancelDeclared
      (deriveAuctioneerId persistentHash secretKey) phase)) (encode ledger) = .ok state) :
    Succeeds (exec persistentHash) ledger ⟨secretKey, .cancel⟩ ∧
      (fieldCode undeclared).strip
          (cancelDeclared (deriveAuctioneerId persistentHash secretKey) phase) =
        transcript persistentHash ⟨secretKey, .cancel⟩ ledger := by
  have hprograms := happly
  simp only [cancelDeclared, PaddedCode.strip_append, List.append_assoc] at hprograms
  obtain ⟨hauctioneer, hprograms⟩ := apply_read (isRead_readCell false 1)
    (query_auctioneer ledger ⟨⟨secretKey⟩, []⟩ []) hprograms
  have hcaller : ledger.auctioneer = deriveAuctioneerId persistentHash secretKey :=
    descriptor2.toValue_injective hauctioneer.symm
  obtain ⟨hread, hprograms⟩ := apply_read (isRead_readCell false 0)
    (query_phase ledger ⟨⟨secretKey⟩, []⟩ []) hprograms
  obtain rfl : phase = phaseNumber ledger.phase := congrArg Atom.value (List.cons.inj hread).1
  obtain ⟨hphase, hprograms⟩ : (ledger.phase = .bidding ∨ ledger.phase = .reveal) ∧
      applyTranscript vm ((fieldCode undeclared).strip
          (readCell true 12 (some (descriptor0.toValue 0))) ++
        (fieldCode undeclared).strip (writeCell 0 (newCell (descriptor1.toValue .cancelled))))
          (encode ledger) = .ok state := by
    split_ifs at hprograms with hbidding
    · refine ⟨Or.inl ?_, hprograms⟩
      cases hphase : ledger.phase <;> rw [hphase] at hbidding <;> first | rfl | cases hbidding
    · obtain ⟨hagain, hprograms⟩ := apply_read (isRead_readCell false 0)
        (query_phase ledger ⟨⟨secretKey⟩, []⟩ []) hprograms
      exact ⟨Or.inr (descriptor1.toValue_injective hagain.symm), hprograms⟩
  have hcount := count_eq_ofNat hroom.1
  obtain ⟨hbids, -⟩ := apply_read (isRead_readCell true 12)
    (query_bidCount ⟨⟨secretKey⟩, []⟩ [] hcount) hprograms
  have hempty : ledger.bidCount = 0 := by
    rw [hcount, ← descriptor0.toValue_injective hbids]
    rfl
  have hcall : exec persistentHash ⟨secretKey, .cancel⟩ ledger = .ok _ :=
    cancel_eq_ok_iff.mpr ⟨hcaller, hphase, hempty, rfl⟩
  rw [← hcaller, strip_cancelDeclared _ hphase]
  exact ⟨⟨_, hcall⟩, rfl⟩

end Circuits

/-! ### Calls of the source have transcripts that are declared -/

variable (persistentHash) in
/-- What the program of a call declares on a ledger on which the call succeeds: the transcript of
the call, with `noop` instructions for the programs that are skipped. -/
def declaredTranscript (call : Call) (ledger : Ledger) : List Op :=
  match call.circuit with
  | .placeBid sealedBid =>
    placeBidDeclared sealedBid (deriveBidderId0 persistentHash call.secretKey) 0 0
  | .closeBidding => closeBiddingTranscript (deriveAuctioneerId0 persistentHash call.secretKey)
  | .revealBid amount nonce =>
    openingDeclared (deriveBidderId0 persistentHash call.secretKey)
        (computeCommitment0 persistentHash amount nonce
          (deriveBidderId0 persistentHash call.secretKey)) 1 0 ledger.reservePrice.val
          ledger.highestBid.val ++
      countRevealDeclared (deriveBidderId0 persistentHash call.secretKey) amount
        (decide (ledger.reservePrice ≤ amount)) (decide (ledger.highestBid < amount))
  | .finalize =>
    finalizeDeclared (Fin.ofNat 18446744073709551616 ledger.validRevealCount).val
      (leNat ledger.highestBidder.toList) ledger.highestBid.val
  | .cancel =>
    cancelDeclared (deriveAuctioneerId0 persistentHash call.secretKey) (phaseNumber ledger.phase)

theorem declarable_declaredTranscript (call : Call) (ledger : Ledger) :
    Declarable (declaredTranscript persistentHash call ledger) := by
  obtain ⟨secretKey, circuit⟩ := call
  cases circuit with
  | placeBid sealedBid => exact declarable_placeBid _ _ _ _
  | closeBidding => exact declarable_closeBidding _
  | revealBid amount nonce =>
    exact (declarable_opening _ _ _ _ _ _).append (declarable_countReveal _ _ _ _)
  | finalize => exact declarable_finalize _ _ _
  | cancel => exact declarable_cancel _ _

theorem strip_countRevealDeclared (bidder : Bytes32) (amount : Uint64)
    (meetsReserve beatsCurrentBest : Bool) :
    (fieldCode undeclared).strip
        (countRevealDeclared bidder amount meetsReserve beatsCurrentBest) =
      countRevealTranscript bidder amount meetsReserve beatsCurrentBest := by
  cases meetsReserve <;> cases beatsCurrentBest <;> rfl

theorem strip_openingDeclared (bidder commitment : Bytes32)
    (placed opened reservePrice highestBid : ℕ) :
    (fieldCode undeclared).strip
        (openingDeclared bidder commitment placed opened reservePrice highestBid) =
      openingDeclared bidder commitment placed opened reservePrice highestBid := rfl

/-- Without `noop` instructions, what is declared is the transcript. -/
theorem strip_declaredTranscript {call : Call} {ledger next : Ledger}
    (hcall : exec persistentHash call ledger = .ok next) :
    (fieldCode undeclared).strip (declaredTranscript persistentHash call ledger) =
      transcript persistentHash call ledger := by
  obtain ⟨secretKey, circuit⟩ := call
  cases circuit with
  | placeBid sealedBid =>
    simp only [declaredTranscript, deriveBidderId_eq]
    rfl
  | closeBidding =>
    obtain ⟨hcaller, -, -⟩ := closeBidding_eq_ok_iff.mp hcall
    simp only [declaredTranscript, transcript, deriveAuctioneerId_eq, hcaller]
    rfl
  | revealBid amount nonce =>
    simp only [declaredTranscript, deriveBidderId_eq, computeCommitment_eq,
      PaddedCode.strip_append, strip_openingDeclared, strip_countRevealDeclared]
    rfl
  | finalize => exact strip_finalizeDeclared _ _ _
  | cancel =>
    obtain ⟨hcaller, hphase, -, -⟩ := cancel_eq_ok_iff.mp hcall
    simp only [declaredTranscript, transcript, deriveAuctioneerId_eq, ← hcaller]
    exact strip_cancelDeclared _ hphase

theorem declaredTranscript_provable {call : Call} {ledger next : Ledger}
    (hcall : exec persistentHash call ledger = .ok next) :
    Provable persistentHash (entryPoint call.circuit).program
      ((fieldCode undeclared).encodeAll (declaredTranscript persistentHash call ledger)) := by
  obtain ⟨secretKey, circuit⟩ := call
  cases circuit with
  | placeBid sealedBid => exact placeBid_provable _ _
  | closeBidding => exact closeBidding_provable _
  | revealBid amount nonce => exact revealBid_provable _ _ _ _ _
  | finalize => exact finalize_provable _ _ _
  | cancel =>
    obtain ⟨-, hphase, -, -⟩ := cancel_eq_ok_iff.mp hcall
    exact cancel_provable _ hphase

/-! ### Transactions -/

variable (vm undeclared)

/-- A transaction that calls an entry point. -/
structure Transaction (proofs : ProofSystem persistentHash) where
  entryPoint : EntryPoint
  transcript : List Op
  wellFormed : ∀ op ∈ transcript, op.WellFormed
  proof : proofs.Proof

/-- A node accepts a transaction: the proof verifies, and the transcript leads from the state of the
contract to its next state. -/
def Accepts (proofs : ProofSystem persistentHash) (transaction : Transaction proofs)
    (state next : StateValue) : Prop :=
  proofs.Verifies transaction.entryPoint.program
      ((fieldCode undeclared).encodeAll transaction.transcript) transaction.proof ∧
    applyTranscript vm transaction.transcript state = .ok next

variable {vm undeclared} {proofs : ProofSystem persistentHash}

/-- The transcript of an accepted transaction is that of a call of the source that succeeds.
Assumes: the counters have room. -/
theorem transcript_of_accepts {transaction : Transaction proofs} {ledger : Ledger}
    {next : StateValue} (hroom : Room 1 ledger)
    (haccepts : Accepts vm undeclared proofs transaction (encode ledger) next) :
    ∃ call, entryPoint call.circuit = transaction.entryPoint ∧
      Succeeds (exec persistentHash) ledger call ∧
        (fieldCode undeclared).strip transaction.transcript =
          transcript persistentHash call ledger := by
  obtain ⟨entry, transcript, hvalid, proof⟩ := transaction
  obtain ⟨hverifies, happly⟩ := haccepts
  obtain ⟨wires, hwires, hdeclared⟩ := proofs.sound hverifies
  rw [← @applyTranscript_strip_iff vm undeclared] at happly
  cases entry with
  | placeBid =>
    obtain ⟨sealedBid, secretKey, registered, placed, hregistered, hplaced, hstrip⟩ :=
      placeBid_sound hvalid hwires hdeclared
    rw [deriveBidderId_eq] at hstrip
    rw [hstrip, applyTranscript_strip_iff] at happly
    obtain ⟨hcall, htranscript⟩ := placeBid_of_apply hregistered hplaced happly
    exact ⟨_, rfl, hcall, hstrip.trans htranscript⟩
  | closeBidding =>
    obtain ⟨secretKey, hstrip⟩ := closeBidding_sound hvalid hwires hdeclared
    rw [deriveAuctioneerId_eq] at hstrip
    rw [hstrip, applyTranscript_strip_iff] at happly
    obtain ⟨hcall, htranscript⟩ := closeBidding_of_apply happly
    exact ⟨_, rfl, hcall, hstrip.trans htranscript⟩
  | revealBid =>
    obtain ⟨secretKey, amount, nonce, placed, opened, reservePrice, highestBid, left, hplaced,
      hopened, hstrip, hleft⟩ := revealBid_sound hvalid hwires hdeclared
    rw [deriveBidderId_eq, computeCommitment_eq, strip_openingDeclared] at hstrip
    rw [hstrip] at happly
    obtain ⟨hcall, htranscript⟩ := revealBid_of_apply hplaced hopened
      (fun hreserve hbest ↦ by
        rw [hleft hreserve hbest, strip_countRevealDeclared, deriveBidderId_eq]) happly
    exact ⟨_, rfl, hcall, hstrip.trans htranscript⟩
  | finalize =>
    obtain ⟨validRevealCount, highestBidder, highestBid, hstrip⟩ :=
      finalize_sound hvalid hwires hdeclared
    rw [hstrip] at happly
    obtain ⟨hcall, htranscript⟩ :=
      @finalize_of_apply _ persistentHash _ _ _ zeroBytes hroom _ _ _ happly
    exact ⟨_, rfl, hcall, hstrip.trans htranscript⟩
  | cancel =>
    obtain ⟨secretKey, phase, hstrip⟩ := cancel_sound hvalid hwires hdeclared
    rw [deriveAuctioneerId_eq] at hstrip
    rw [hstrip] at happly
    obtain ⟨hcall, htranscript⟩ := cancel_of_apply hroom happly
    exact ⟨_, rfl, hcall, hstrip.trans htranscript⟩

/-- An accepted transaction does what a call of the source does, with the transcript of the call.
Assumes: the counters have room. -/
theorem exec_of_accepts {transaction : Transaction proofs} {ledger : Ledger} {next : StateValue}
    (hroom : Room 1 ledger)
    (haccepts : Accepts vm undeclared proofs transaction (encode ledger) next) :
    ∃ call last, entryPoint call.circuit = transaction.entryPoint ∧
      exec persistentHash call ledger = .ok last ∧
        (fieldCode undeclared).strip transaction.transcript =
          transcript persistentHash call ledger ∧ next = encode last := by
  obtain ⟨call, hentry, ⟨last, hcall⟩, htranscript⟩ := transcript_of_accepts hroom haccepts
  have happly := (@applyTranscript_strip_iff vm undeclared _ _ _).mpr haccepts.2
  rw [htranscript] at happly
  exact ⟨call, last, hentry, hcall, htranscript, state_of_apply hroom hcall happly⟩

/-- A call of the source that succeeds has a transaction that is accepted. Assumes: the counters
have room. -/
theorem accepts_of_exec {call : Call} {ledger next : Ledger} (hroom : Room 1 ledger)
    (hcall : exec persistentHash call ledger = .ok next) :
    ∃ transaction : Transaction proofs, transaction.entryPoint = entryPoint call.circuit ∧
      Accepts vm undeclared proofs transaction (encode ledger) (encode next) := by
  obtain ⟨wires, hlt, hexecuted, hdeclared⟩ :=
    @declaredTranscript_provable persistentHash undeclared _ _ _ hcall
  obtain ⟨proof, hverifies⟩ := proofs.complete hlt hexecuted
  rw [hdeclared] at hverifies
  refine ⟨⟨entryPoint call.circuit, declaredTranscript persistentHash call ledger,
    fun op hop ↦ (declarable_declaredTranscript call ledger op hop).2, proof⟩, rfl, hverifies, ?_⟩
  refine (@applyTranscript_strip_iff vm undeclared _ _ _).mp ?_
  rw [strip_declaredTranscript hcall]
  exact (applyTranscript_eq_ok_iff hroom hroom hcall).mpr ⟨next, hcall, rfl, rfl⟩

/-- Transactions that are accepted one after the other do what calls of the source do one after the
other. Assumes: the counters have room for the transactions. -/
theorem calls_of_accepted {ledger : Ledger} {transactions : List (Transaction proofs)}
    (hroom : Room transactions.length ledger) {state : StateValue}
    (hpath : Path (Accepts vm undeclared proofs) transactions (encode ledger) state) :
    ∃ calls last, calls.map (fun call ↦ entryPoint call.circuit) =
        transactions.map Transaction.entryPoint ∧
      runAll (exec persistentHash) ledger calls = .ok last ∧ state = encode last :=
  runAll_of_path Room Room.step
    (fun n _ _ _ hroom haccepts ↦ by
      obtain ⟨call, last, hentry, hcall, -, hnext⟩ :=
        exec_of_accepts (hroom.mono (Nat.le_add_left 1 n)) haccepts
      exact ⟨call, last, hentry, hcall, hnext⟩)
    hroom hpath

/-- **The states that accepted transactions reach are those that calls of the source reach.** From
the state array of a ledger, transactions for given entry points can be accepted one after the other
and lead to a state exactly when there are calls of these entry points that succeed one after the
other and lead to a ledger with that state array. Assumes: the counters have room for the
transactions. -/
theorem accepted_iff (vm : LedgerVm) (undeclared : UndeclaredFields)
    (proofs : ProofSystem persistentHash) {ledger : Ledger} {entryPoints : List EntryPoint}
    (hroom : Room entryPoints.length ledger) (state : StateValue) :
    (∃ transactions, transactions.map Transaction.entryPoint = entryPoints ∧
        Path (Accepts vm undeclared proofs) transactions (encode ledger) state) ↔
      ∃ calls last, calls.map (fun call ↦ entryPoint call.circuit) = entryPoints ∧
        runAll (exec persistentHash) ledger calls = .ok last ∧ state = encode last := by
  constructor
  · rintro ⟨transactions, rfl, hpath⟩
    exact calls_of_accepted (by simpa using hroom) hpath
  · rintro ⟨calls, last, rfl, hrun, rfl⟩
    exact path_of_runAll Room Room.step
      (fun n _ _ _ hroom hcall ↦ accepts_of_exec (hroom.mono (Nat.le_add_left 1 n)) hcall)
      (by simpa using hroom) hrun

/-- Maps and arrays, and the other instructions, written as one number each. -/
def sampleUndeclared : UndeclaredFields where
  value _ := [2]
  value_head _ := ⟨2, [], rfl, by decide⟩
  instruction _ := [1]
  instruction_head _ := ⟨1, [], rfl, by decide⟩

theorem accepted_iff_harness :
    ∃ transactions : List (Transaction (referenceProofs sampleHash)),
      transactions.map Transaction.entryPoint = [.placeBid, .closeBidding, .revealBid] ∧
        Path (Accepts referenceVm sampleUndeclared (referenceProofs sampleHash)) transactions
          (encode harnessLedger) (encode (run (exec sampleHash) harnessLedger
            [commitCall 0xb0 150, closeCall, revealCall 0xb0 150])) :=
  (accepted_iff referenceVm sampleUndeclared (referenceProofs sampleHash)
    (by decide +kernel) _).mpr
      ⟨[commitCall 0xb0 150, closeCall, revealCall 0xb0 150], _, rfl,
        runAll_eq_ok_iff.mpr ⟨by decide +kernel, rfl⟩, rfl⟩

end SealedBid.Compiled
