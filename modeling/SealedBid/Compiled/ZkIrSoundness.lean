import SealedBid.Compiled.ZkIr
import SealedBid.Compiled.Refinement

/-!
# What the proofs say about the transcripts

Wires that satisfy the program of a circuit, with a transcript as its public inputs: the transcript
is one that the circuit records, up to `noop` instructions, for some arguments and some secret key
(`placeBid_sound` to `cancel_sound`). The reads of the transcript are those that the circuit asserts
something about, with what it asserts; the programs that a circuit skips are `noop` instructions.

The values that a transcript reads are not constrained by the programs themselves. Where a program
does something with a value only when it is a bit, or a 64-bit integer, the result says so. The
ledger has the bits and the integers: a transcript that the ledger machine accepts reads what is
there.

Scope. The results are about the public inputs of one proof. What a node accepts is in
`Compiled.Node`.
-/

set_option autoImplicit false
set_option relaxedAutoImplicit false

namespace SealedBid.Compiled

variable {undeclared : UndeclaredFields} {persistentHash : PersistentHash}

/-! ### Declared transcripts -/

/-- What the program of a bid declares, with the values that it reads. -/
def placeBidDeclared (sealedBid bidder : Bytes32) (registered placed : ℕ) : List Op :=
  readCell false 0 (some (descriptor1.toValue .bidding)) ++
  testMember 5 (descriptor2.toValue sealedBid) (some [⟨1, registered⟩]) ++
  testMember 6 (descriptor2.toValue bidder) (some [⟨1, placed⟩]) ++
  insertEntry 5 (descriptor2.toValue sealedBid) (newCell (descriptor2.toValue bidder)) ++
  insertEntry 6 (descriptor2.toValue bidder) (newCell (descriptor2.toValue sealedBid)) ++
  increment 12 1

theorem declarable_placeBid (sealedBid bidder : Bytes32) (registered placed : ℕ) :
    Declarable (placeBidDeclared sealedBid bidder registered placed) := by
  refine Declarable.append (Declarable.append (Declarable.append (Declarable.append
    (Declarable.append ?_ ?_) ?_) ?_) ?_) ?_
  · exact declarable_readCell (hasBytes_phase _)
  · exact declarable_testMember (hasBytes_bytes32 _) (hasBytes_atom (by decide))
  · exact declarable_testMember (hasBytes_bytes32 _) (hasBytes_atom (by decide))
  · exact declarable_insertEntry (hasBytes_bytes32 _) (hasBytes_bytes32 _)
  · exact declarable_insertEntry (hasBytes_bytes32 _) (hasBytes_bytes32 _)
  · exact declarable_increment

theorem declarable_closeBidding (auctioneer : Bytes32) :
    Declarable (closeBiddingTranscript auctioneer) := by
  refine Declarable.append (Declarable.append ?_ ?_) ?_
  · exact declarable_readCell (hasBytes_bytes32 _)
  · exact declarable_readCell (hasBytes_phase _)
  · exact declarable_writeCell (hasBytes_phase _)

/-- What the program of a reveal declares before the part that depends on what it reads, with the
values that it reads. -/
def openingDeclared (bidder commitment : Bytes32) (placed opened reservePrice highestBid : ℕ) :
    List Op :=
  readCell false 0 (some (descriptor1.toValue .reveal)) ++
  testMember 6 (descriptor2.toValue bidder) (some [⟨1, placed⟩]) ++
  lookupEntry 6 (descriptor2.toValue bidder) (some (descriptor2.toValue commitment)) ++
  testMember 7 (descriptor2.toValue commitment) (some [⟨1, opened⟩]) ++
  insertEntry 7 (descriptor2.toValue commitment) newNull ++
  readCell false 2 (some [⟨8, reservePrice⟩]) ++
  readCell false 8 (some [⟨8, highestBid⟩])

theorem declarable_opening (bidder commitment : Bytes32)
    (placed opened reservePrice highestBid : ℕ) :
    Declarable (openingDeclared bidder commitment placed opened reservePrice highestBid) := by
  refine Declarable.append (Declarable.append (Declarable.append (Declarable.append
    (Declarable.append (Declarable.append ?_ ?_) ?_) ?_) ?_) ?_) ?_
  · exact declarable_readCell (hasBytes_phase _)
  · exact declarable_testMember (hasBytes_bytes32 _) (hasBytes_atom (by decide))
  · exact declarable_lookupEntry (hasBytes_bytes32 _) (hasBytes_bytes32 _)
  · exact declarable_testMember (hasBytes_bytes32 _) (hasBytes_atom (by decide))
  · exact declarable_insertEntry (hasBytes_bytes32 _) trivial
  · exact declarable_readCell (hasBytes_atom (by decide))
  · exact declarable_readCell (hasBytes_atom (by decide))

/-- What the program of a reveal declares in the part that depends on whether the amount counts and
is the best so far. -/
def countRevealDeclared (bidder : Bytes32) (amount : Uint64)
    (meetsReserve beatsCurrentBest : Bool) : List Op :=
  if meetsReserve then
    increment 13 1 ++
    if beatsCurrentBest then
      writeCell 8 (newCell (descriptor0.toValue amount)) ++
      writeCell 9 (newCell (descriptor2.toValue bidder))
    else [.noop 23]
  else [.noop 30]

theorem declarable_countReveal (bidder : Bytes32) (amount : Uint64)
    (meetsReserve beatsCurrentBest : Bool) :
    Declarable (countRevealDeclared bidder amount meetsReserve beatsCurrentBest) := by
  unfold countRevealDeclared
  split_ifs
  · refine declarable_increment.append (Declarable.append ?_ ?_)
    · exact declarable_writeCell (hasBytes_uint64 _)
    · exact declarable_writeCell (hasBytes_bytes32 _)
  · exact declarable_increment.append (declarable_noop _)
  · exact declarable_noop _

/-- What the program of a finalization declares about the outcome, with the values that it reads. -/
def recordOutcomeDeclared (noReveal : Bool) (highestBidder highestBid : ℕ) : List Op :=
  if noReveal then
    writeCell 10 (newCell (descriptor5.toValue none0)) ++
    writeCell 11 (newCell (descriptor0.toValue 0)) ++ [.noop 44]
  else
    [.noop 25] ++ readCell false 9 (some [⟨32, highestBidder⟩]) ++
    writeCell 10 (newCell [⟨1, 1⟩, ⟨32, highestBidder⟩]) ++
    readCell false 8 (some [⟨8, highestBid⟩]) ++
    writeCell 11 (newCell [⟨8, highestBid⟩])

/-- What the program of a finalization declares, with the values that it reads. -/
def finalizeDeclared (validRevealCount highestBidder highestBid : ℕ) : List Op :=
  readCell false 0 (some (descriptor1.toValue .reveal)) ++
  readCell true 13 (some [⟨8, validRevealCount⟩]) ++
  recordOutcomeDeclared (decide (validRevealCount = 0)) highestBidder highestBid ++
  writeCell 0 (newCell (descriptor1.toValue .finalized))

theorem declarable_finalize (validRevealCount highestBidder highestBid : ℕ) :
    Declarable (finalizeDeclared validRevealCount highestBidder highestBid) := by
  refine Declarable.append (Declarable.append (Declarable.append ?_ ?_) ?_) ?_
  · exact declarable_readCell (hasBytes_phase _)
  · exact declarable_readCell (hasBytes_atom (by decide))
  · unfold recordOutcomeDeclared
    split_ifs
    · refine Declarable.append (Declarable.append ?_ ?_) (declarable_noop _)
      · exact declarable_writeCell (by simp [AlignedValue.HasBytes, descriptor5, maybe0,
          compactTypeBoolean, compactTypeBytes32])
      · exact declarable_writeCell (hasBytes_uint64 _)
    · refine Declarable.append (Declarable.append (Declarable.append (Declarable.append
        (declarable_noop _) ?_) ?_) ?_) ?_
      · exact declarable_readCell (hasBytes_atom (by decide))
      · exact declarable_writeCell (by simp [AlignedValue.HasBytes])
      · exact declarable_readCell (hasBytes_atom (by decide))
      · exact declarable_writeCell (hasBytes_atom (by decide))
  · exact declarable_writeCell (hasBytes_phase _)

/-- What the program of a cancellation declares, with the phase that it reads. -/
def cancelDeclared (auctioneer : Bytes32) (phase : ℕ) : List Op :=
  readCell false 1 (some (descriptor2.toValue auctioneer)) ++
  readCell false 0 (some [⟨1, phase⟩]) ++
  (if phase = 0 then [.noop 9] else readCell false 0 (some (descriptor1.toValue .reveal))) ++
  readCell true 12 (some (descriptor0.toValue 0)) ++
  writeCell 0 (newCell (descriptor1.toValue .cancelled))

theorem declarable_cancel (auctioneer : Bytes32) (phase : ℕ) :
    Declarable (cancelDeclared auctioneer phase) := by
  refine Declarable.append (Declarable.append (Declarable.append (Declarable.append ?_ ?_) ?_)
    ?_) ?_
  · exact declarable_readCell (hasBytes_bytes32 _)
  · exact declarable_readCell (hasBytes_atom (by decide))
  · split_ifs
    · exact declarable_noop _
    · exact declarable_readCell (hasBytes_phase _)
  · exact declarable_readCell (hasBytes_uint64 _)
  · exact declarable_writeCell (hasBytes_phase _)

/-! ### Hashes -/

/-- Two limbs in range are the input of a hash. -/
theorem hashInput_cons {wires : Wires} {alignment inputs : List ℕ} {high low : ℕ}
    (hhigh : wires high < 2 ^ 8) (hlow : wires low < 2 ^ 248) :
    hashInput wires (32 :: alignment) (high :: low :: inputs) =
      (hashInput wires alignment inputs).map (bytesOfLimbs (wires high) (wires low) :: ·) :=
  if_pos ⟨hhigh, hlow⟩

/-- The hash of a domain, an immediate, and a secret key. -/
theorem hashInput_identity {wires : Wires} {off immediate high low domain : ℕ}
    (hoff : wires off = 0) (himmediate : wires immediate = domain) (hdomain : domain < 2 ^ 248)
    (hhigh : wires high < 2 ^ 8) (hlow : wires low < 2 ^ 248) :
    hashInput wires [32, 32] [off, immediate, high, low] =
      some [bytesOfLimbs 0 domain, bytesOfLimbs (wires high) (wires low)] := by
  rw [hashInput_cons (by rw [hoff]; decide) (by rw [himmediate]; exact hdomain),
    hashInput_cons hhigh hlow, hoff, himmediate]
  rfl

/-- The immediate of the domain of bidder identities. -/
theorem bytesOfLimbs_bidderDomain :
    bytesOfLimbs 0 1103035652903679356054152897307660685288760691 = bidderDomain := by
  decide +kernel

/-- The immediate of the domain of auctioneer identities. -/
theorem bytesOfLimbs_auctioneerDomain :
    bytesOfLimbs 0 4737502055543400795445417625511831498650168649331074419 =
      auctioneerDomain := by
  decide +kernel

/-- The immediate of the domain of commitments. -/
theorem bytesOfLimbs_commitDomain :
    bytesOfLimbs 0 1103035655583087791656138431789935699846849907 = commitDomain := by
  decide +kernel

/-! ### Assertions -/

section Assertions

variable {wires : Wires} {a b c : ℕ}

/-- Two wires that were compared, with the result asserted. -/
theorem eq_of_testEq (htest : wires c = if wires a = wires b then 1 else 0)
    (hassert : wires c ≤ 1 → wires c = 1) : wires a = wires b := by
  by_contra hne
  rw [htest, if_neg hne] at hassert
  simp at hassert

/-- A bit that was negated, with the result asserted. -/
theorem eq_zero_of_not {off on : ℕ} (hoff : wires off = 0) (hon : wires on = 1)
    (hselect : wires a ≤ 1 → wires c = if wires a = 1 then wires off else wires on)
    (hassert : wires c ≤ 1 → wires c = 1) (hbit : wires a ≤ 1) : wires a = 0 := by
  rw [hoff, hon] at hselect
  have hresult := hselect hbit
  split_ifs at hresult with hone
  · rw [hresult] at hassert
    simp at hassert
  · omega

/-- Two pairs of wires that were compared, with the conjunction of the results asserted. -/
theorem limbs_eq_of_assert {high low high' low' off : ℕ} (hoff : wires off = 0)
    (hhigh : wires a = if wires high = wires high' then 1 else 0)
    (hlow : wires b = if wires low = wires low' then 1 else 0)
    (hselect : wires a ≤ 1 → wires c = if wires a = 1 then wires b else wires off)
    (hassert : wires c ≤ 1 → wires c = 1) :
    wires high = wires high' ∧ wires low = wires low' := by
  rw [hoff, hhigh, hlow] at hselect
  by_cases hhigh' : wires high = wires high' <;> by_cases hlow' : wires low = wires low'
  · exact ⟨hhigh', hlow'⟩
  all_goals simp [hhigh', hlow'] at hselect; simp [hselect] at hassert

end Assertions

/-! ### Circuits -/

variable {wires : Wires} {message : List Op}

theorem placeBid_sound (hvalid : (fieldCode undeclared).ValidAll message)
    (hwires : Satisfied persistentHash wires 2 placeBidIr.instructions)
    (hdeclared : declared wires placeBidIr.instructions =
      (fieldCode undeclared).encodeAll message) :
    ∃ sealedBid secretKey registered placed,
      (registered ≤ 1 → registered = 0) ∧ (placed ≤ 1 → placed = 0) ∧
      (fieldCode undeclared).strip message = (fieldCode undeclared).strip
        (placeBidDeclared sealedBid (deriveBidderId0 persistentHash secretKey) registered
          placed) := by
  simp only [placeBidIr, Satisfied, Instruction.outputs, Instruction.Defined, Instruction.Result,
    true_and, and_true, Nat.reduceAdd, leNat_cons, leNat_nil, Nat.reduceMul, UInt8.reduceToNat,
    Nat.add_zero, imp_self, forall_const, Option.mem_def, reduceCtorEq, false_imp_iff,
    implies_true] at hwires
  obtain ⟨hhigh, hlow, h2, h3, h4, h5, h7, h8, hphase, hkeyHigh, hkeyLow, h11, hhash, h14, h15,
    h16, h17, h19, h20, hregistered, h21, h23, hplaced, h24, h25, h26, h27, h28⟩ := hwires
  have h6 : wires 6 = 0 := (eq_of_testEq h8 hphase).trans h5
  have hinput := hashInput_identity h5 h11 (by decide) hkeyHigh hkeyLow
  obtain ⟨h12, h13⟩ := hhash (by rw [hinput]; rfl) _ hinput
  rw [bytesOfLimbs_bidderDomain] at h12 h13
  refine ⟨bytesOfLimbs (wires 0) (wires 1), bytesOfLimbs (wires 9) (wires 10), wires 18, wires 22,
    eq_zero_of_not h5 h2 h20 hregistered, eq_zero_of_not h5 h2 h23 hplaced, ?_⟩
  refine read_all hvalid (declarable_placeBid _ _ _ _) (hdeclared.symm.trans ?_)
  simp [placeBidIr, declared, placeBidDeclared, phaseNumber, deriveBidderId0,
    highLimb_bytesOfLimbs hhigh hlow, lowLimb_bytesOfLimbs hhigh hlow, h2, h3, h4, h5, h6, h7, h12,
    h13, h14, h15, h16, h17, h19, h21, h24, h25, h26, h27, h28, -deriveBidderId_eq]

theorem closeBidding_sound (hvalid : (fieldCode undeclared).ValidAll message)
    (hwires : Satisfied persistentHash wires 0 closeBiddingIr.instructions)
    (hdeclared : declared wires closeBiddingIr.instructions =
      (fieldCode undeclared).encodeAll message) :
    ∃ secretKey, (fieldCode undeclared).strip message = (fieldCode undeclared).strip
      (closeBiddingTranscript (deriveAuctioneerId0 persistentHash secretKey)) := by
  simp only [closeBiddingIr, Satisfied, Instruction.outputs, Instruction.Defined,
    Instruction.Result, true_and, and_true, Nat.reduceAdd, leNat_cons, leNat_nil, Nat.reduceMul,
    UInt8.reduceToNat, Nat.add_zero, imp_self, forall_const, Option.mem_def, reduceCtorEq,
    false_imp_iff, implies_true] at hwires
  obtain ⟨h0, h1, h2, h5, h6, hkeyHigh, hkeyLow, h9, h10, hhash, h13, h14, h15, hcaller, h17,
    hphase, h18, h19, h20⟩ := hwires
  have hinput := hashInput_identity h9 h10 (by decide) hkeyHigh hkeyLow
  obtain ⟨h11, h12⟩ := hhash (by rw [hinput]; rfl) _ hinput
  rw [bytesOfLimbs_auctioneerDomain] at h11 h12
  obtain ⟨h3, h4⟩ := limbs_eq_of_assert h9 h13 h14 h15 hcaller
  have h16 : wires 16 = 0 := (eq_of_testEq h17 hphase).trans h9
  refine ⟨bytesOfLimbs (wires 7) (wires 8), ?_⟩
  refine read_all hvalid (declarable_closeBidding _) (hdeclared.symm.trans ?_)
  simp [closeBiddingIr, declared, closeBiddingTranscript, phaseNumber, deriveAuctioneerId0, h0, h1,
    h2, h3, h4, h5, h6, h9, h11, h12, h16, h18, h19, h20, -deriveAuctioneerId_eq]

theorem revealBid_sound (hvalid : (fieldCode undeclared).ValidAll message)
    (hwires : Satisfied persistentHash wires 3 revealBidIr.instructions)
    (hdeclared : declared wires revealBidIr.instructions =
      (fieldCode undeclared).encodeAll message) :
    ∃ secretKey amount nonce placed opened reservePrice highestBid left,
      (placed ≤ 1 → placed = 1) ∧ (opened ≤ 1 → opened = 0) ∧
      (fieldCode undeclared).strip message = (fieldCode undeclared).strip
        (openingDeclared (deriveBidderId0 persistentHash secretKey)
          (computeCommitment0 persistentHash amount nonce
            (deriveBidderId0 persistentHash secretKey)) placed opened reservePrice highestBid) ++
          (fieldCode undeclared).strip left ∧
      (reservePrice < 18446744073709551616 → highestBid < 18446744073709551616 →
        (fieldCode undeclared).strip left = (fieldCode undeclared).strip
          (countRevealDeclared (deriveBidderId0 persistentHash secretKey) amount
            (decide (reservePrice ≤ amount.val)) (decide (highestBid < amount.val)))) := by
  set_option maxRecDepth 2000 in
  simp only [revealBidIr, Satisfied, Instruction.outputs, Instruction.Defined,
    Instruction.Result, true_and, and_true, Nat.reduceAdd, leNat_cons, leNat_nil, Nat.reduceMul,
    UInt8.reduceToNat, Nat.add_zero, imp_self, forall_const, Option.mem_def, reduceCtorEq,
    false_imp_iff, implies_true] at hwires
  obtain ⟨hamount, hnonceHigh, hnonceLow, h3, h4, h5, h6, h8, h9, hphase, hkeyHigh, hkeyLow, h12,
    hhash, h15, h16, h17, h18, h20, hplaced, h23, h25, hopened, ⟨h26, h27⟩, h28, hhash', h31, h32,
    h33, hexpected, h34, h35, h36, h37, h38, h40, h41, h42, h44, h45, h46, h47, h48, h49, h50,
    hraise⟩ := hwires
  have h7 : wires 7 = 1 := (eq_of_testEq h9 hphase).trans h3
  have hinput := hashInput_identity h6 h12 (by decide) hkeyHigh hkeyLow
  obtain ⟨h13, h14⟩ := hhash (by rw [hinput]; rfl) _ hinput
  rw [bytesOfLimbs_bidderDomain] at h13 h14
  have hinput' : hashInput wires [32, 32, 32, 32] [6, 28, 26, 27, 1, 2, 13, 14] =
      some [commitDomain, asBytes ⟨wires 0, hamount⟩, bytesOfLimbs (wires 1) (wires 2),
        deriveBidderId0 persistentHash (bytesOfLimbs (wires 10) (wires 11))] := by
    rw [hashInput_cons (by rw [h6]; decide) (by rw [h28]; decide),
      hashInput_cons (by rw [h26]; omega) (by rw [h27]; omega),
      hashInput_cons hnonceHigh hnonceLow,
      hashInput_cons (by rw [h13]; exact highLimb_lt _) (by rw [h14]; exact lowLimb_lt _),
      h6, h28, bytesOfLimbs_commitDomain, h26, h27, h13, h14, bytesOfLimbs_limbs]
    rw [← bytesOfLimbs_amount]
    rfl
  obtain ⟨h29, h30⟩ := hhash' (by rw [hinput']; rfl) _ hinput'
  obtain ⟨h21, h22⟩ := limbs_eq_of_assert h6 h31 h32 h33 hexpected
  rw [h29] at h21
  rw [h30] at h22
  have hprefix : declared wires revealBidIr.instructions =
      (fieldCode undeclared).encodeAll (openingDeclared
        (deriveBidderId0 persistentHash (bytesOfLimbs (wires 10) (wires 11)))
        (computeCommitment0 persistentHash ⟨wires 0, hamount⟩ (bytesOfLimbs (wires 1) (wires 2))
          (deriveBidderId0 persistentHash (bytesOfLimbs (wires 10) (wires 11))))
        (wires 19) (wires 24) (wires 39) (wires 43)) ++
      [wires 45, wires 42, wires 42, wires 46, wires 48, wires 42, wires 49, wires 51, wires 50,
        wires 50, wires 50, wires 52, wires 53, wires 50, wires 50, wires 54, wires 55, wires 56,
        wires 58, wires 50, wires 50, wires 50, wires 59, wires 60, wires 50, wires 50, wires 61,
        wires 62, wires 63, wires 64] := by
    simp only [openingDeclared, revealBidIr, declared, PaddedCode.encodeAll_append,
      encodeAll_readCell, encodeAll_testMember, encodeAll_lookupEntry, encodeAll_insertEntry,
      valueFields_bytes32, computeCommitment0]
    simp [h3, h4, h5, h6, h7, h8, h13, h14, h15, h16, h17, h18, h20, ← h21, ← h22, h23, h34, h35,
      h36, h37, h38, h40, deriveBidderId0, popeqCode, descriptor1, compactTypeEnumPhase,
      phaseNumber, valueFields_atom, stateFields, newNull]
  obtain ⟨left, hleft, hstrip, htail⟩ :=
    read_program hvalid (declarable_opening _ _ _ _ _ _) (hdeclared.symm.trans hprefix)
  refine ⟨bytesOfLimbs (wires 10) (wires 11), ⟨wires 0, hamount⟩,
    bytesOfLimbs (wires 1) (wires 2), wires 19, wires 24, wires 39, wires 43, left, hplaced,
    eq_zero_of_not h6 h3 h25 hopened, hstrip, fun hreserve hbest ↦ ?_⟩
  refine read_all hleft (declarable_countReveal _ _ _ _) (htail.trans ?_)
  have hless := h41 ⟨hamount, hreserve⟩
  have hbeats := h44 ⟨hbest, hamount⟩
  by_cases hmeets : wires 39 ≤ wires 0
  · rw [if_neg (not_lt.mpr hmeets)] at hless
    have hcounts : wires 42 = 1 := by rw [h42 (by omega), if_neg (by omega), h3]
    simp only [hcounts, le_refl, forall_const, if_true] at h45 h46 h48 h49
    by_cases hbest' : wires 43 < wires 0
    · rw [if_pos hbest'] at hbeats
      have hraises : wires 50 = 1 := by rw [h50 (by omega), if_pos hbeats, hcounts]
      simp only [hraises, le_refl, forall_const, if_true] at hraise
      simp [countRevealDeclared, hmeets, hbest', hcounts, hraises, hraise, encodeAll_increment,
        encodeAll_writeCell, PaddedCode.encodeAll_append, h45, h46, h47, h48, h49,
        stateFields_newCell, valueFields_bytes32, descriptor0, compactTypeUnsignedInteger,
        valueFields_atom, h34, h35, h36, h37, h40, h13, h14, h16, h17, h20, deriveBidderId0]
    · rw [if_neg hbest'] at hbeats
      have hraises : wires 50 = 0 := by rw [h50 (by omega), if_neg (by omega), h6]
      simp only [hraises, Nat.zero_le, forall_const, zero_ne_one, if_false] at hraise
      simp [countRevealDeclared, hmeets, hbest', hcounts, hraises, hraise, encodeAll_increment,
        PaddedCode.encodeAll_append, List.replicate, h6, h20, h34, h37, h45, h46, h47, h48, h49]
  · rw [if_pos (not_le.mp hmeets)] at hless
    have hcounts : wires 42 = 0 := by rw [h42 (by omega), if_pos hless, h6]
    have hraises : wires 50 = 0 := by
      by_cases hbest' : wires 43 < wires 0
      · rw [if_pos hbest'] at hbeats
        rw [h50 (by omega), if_pos hbeats, hcounts]
      · rw [if_neg hbest'] at hbeats
        rw [h50 (by omega), if_neg (by omega), h6]
    simp only [hcounts, Nat.zero_le, forall_const, zero_ne_one, if_false] at h45 h46 h48 h49
    simp only [hraises, Nat.zero_le, forall_const, zero_ne_one, if_false] at hraise
    simp [countRevealDeclared, hmeets, hcounts, hraises, hraise, List.replicate,
      h6, h45, h46, h48, h49]

theorem finalize_sound (hvalid : (fieldCode undeclared).ValidAll message)
    (hwires : Satisfied persistentHash wires 0 finalizeIr.instructions)
    (hdeclared : declared wires finalizeIr.instructions =
      (fieldCode undeclared).encodeAll message) :
    ∃ validRevealCount highestBidder highestBid,
      (fieldCode undeclared).strip message = (fieldCode undeclared).strip
        (finalizeDeclared validRevealCount highestBidder highestBid) := by
  set_option maxRecDepth 2000 in
  simp only [finalizeIr, Satisfied, Instruction.outputs, Instruction.Defined,
    Instruction.Result, true_and, and_true, Nat.reduceAdd, leNat_cons, leNat_nil, Nat.reduceMul,
    UInt8.reduceToNat, Nat.add_zero, imp_self, forall_const, Option.mem_def, reduceCtorEq,
    false_imp_iff, implies_true] at hwires
  obtain ⟨h0, h1, h2, h3, h5, h6, hphase, h7, h9, h10, h11, hrest⟩ := hwires
  have h4 : wires 4 = 1 := (eq_of_testEq h6 hphase).trans h0
  by_cases hcount : wires 8 = 0
  · have hnone : wires 10 = 1 := by rw [h10, if_pos (hcount.trans h3.symm)]
    have hsome : wires 11 = 0 := by rw [h11 (by omega), if_pos hnone, h3]
    simp only [hnone, hsome, le_refl, Nat.zero_le, forall_const, zero_ne_one, if_true, if_false,
      h1, h2, h3, h5, h9] at hrest
    refine ⟨0, 0, 0, read_all hvalid (declarable_finalize _ _ _) (hdeclared.symm.trans ?_)⟩
    simp [finalizeIr, declared, finalizeDeclared, recordOutcomeDeclared, phaseNumber,
      List.replicate, hrest, h0, h1, h2, h3, h4, h5, h7, h9, hcount, hnone, hsome]
  · have hnone : wires 10 = 0 := by rw [h10, if_neg (by rwa [h3])]
    have hsome : wires 11 = 1 := by rw [h11 (by omega), if_neg (by omega), h0]
    simp only [hnone, hsome, le_refl, Nat.zero_le, forall_const, zero_ne_one, if_true, if_false,
      h1, h2, h3, h5, h9] at hrest
    -- the program does not constrain the bidder that it reads: its limbs are those of the result
    have hprefix : declared wires finalizeIr.instructions =
        (fieldCode undeclared).encodeAll
          (readCell false 0 (some (descriptor1.toValue .reveal)) ++
            readCell true 13 (some [⟨8, wires 8⟩]) ++
            [.noop 25, .dup 0, .idx false false [cellKey 9]]) ++
          popeqCode false :: 1 :: 32 :: wires 38 :: wires 39 ::
            [16, 1, 1, 1, 10, 17, 1, 2, 1, 32, 1, wires 38, wires 39, 145, 48, 80, 1, 1, 8, 12, 1,
              8, wires 55, 16, 1, 1, 1, 11, 17, 1, 1, 8, wires 55, 145, 16, 1, 1, 1, 0, 17, 1, 1,
              1, 2, 145] := by
      simp only [finalizeIr, declared, PaddedCode.encodeAll_append, encodeAll_readCell]
      simp [hrest, h0, h1, h2, h3, h4, h5, h7, h9, hnone, hsome, PaddedCode.encodeAll, Op.fields,
        Op.code, Op.data, idxCode, List.replicate, descriptor1, compactTypeEnumPhase, phaseNumber,
        valueFields_atom, popeqCode]
    have hdeclarable : Declarable (readCell false 0 (some (descriptor1.toValue .reveal)) ++
        readCell true 13 (some [⟨8, wires 8⟩]) ++
        [.noop 25, .dup 0, .idx false false [cellKey 9]]) := by
      refine Declarable.append (Declarable.append ?_ ?_) ?_
      · exact declarable_readCell (hasBytes_phase _)
      · exact declarable_readCell (hasBytes_atom (by decide))
      · simp [Declarable, Op.IsSimple, Op.WellFormed, hasBytes_cellKey]
    obtain ⟨middle, hmiddle, hstrip, hfields⟩ :=
      read_program hvalid hdeclarable (hdeclared.symm.trans hprefix)
    obtain ⟨value, left, hleft, hresult, hfields', h38, h39⟩ :=
      read_result_bytes32 hmiddle hfields
    have hdeclarable' : Declarable (writeCell 10 (newCell [⟨1, 1⟩, ⟨32, value⟩]) ++
        readCell false 8 (some [⟨8, wires 55⟩]) ++ writeCell 11 (newCell [⟨8, wires 55⟩]) ++
        writeCell 0 (newCell (descriptor1.toValue .finalized))) := by
      refine Declarable.append (Declarable.append (Declarable.append ?_ ?_) ?_) ?_
      · exact declarable_writeCell (by simp [AlignedValue.HasBytes])
      · exact declarable_readCell (hasBytes_atom (by decide))
      · exact declarable_writeCell (hasBytes_atom (by decide))
      · exact declarable_writeCell (hasBytes_phase _)
    have hlast := read_all hleft hdeclarable' (hfields'.trans (by
      simp [PaddedCode.encodeAll_append, encodeAll_readCell, encodeAll_writeCell,
        stateFields_newCell, descriptor1, compactTypeEnumPhase, phaseNumber,
        popeqCode, valueFields, Atom.limbs, limbs, h38, h39]))
    refine ⟨wires 8, value, wires 55, ?_⟩
    rw [hstrip, hresult, hlast, finalizeDeclared, recordOutcomeDeclared,
      if_neg (by simpa using hcount)]
    rfl

theorem cancel_sound (hvalid : (fieldCode undeclared).ValidAll message)
    (hwires : Satisfied persistentHash wires 0 cancelIr.instructions)
    (hdeclared : declared wires cancelIr.instructions =
      (fieldCode undeclared).encodeAll message) :
    ∃ secretKey phase, (fieldCode undeclared).strip message = (fieldCode undeclared).strip
      (cancelDeclared (deriveAuctioneerId0 persistentHash secretKey) phase) := by
  simp only [cancelIr, Satisfied, Instruction.outputs, Instruction.Defined,
    Instruction.Result, true_and, and_true, Nat.reduceAdd, leNat_cons, leNat_nil, Nat.reduceMul,
    UInt8.reduceToNat, Nat.add_zero, imp_self, forall_const, Option.mem_def, reduceCtorEq,
    false_imp_iff, implies_true] at hwires
  obtain ⟨h0, h1, h2, h5, h6, hkeyHigh, hkeyLow, h9, h10, hhash, h13, h14, h15, hcaller, h17, h18,
    h19, h20, h21, h22, h23, h24, h25, h26, hconcluded, h28, h29, h30, hbids, h31, h32, h33,
    h34⟩ := hwires
  have hinput := hashInput_identity h9 h10 (by decide) hkeyHigh hkeyLow
  obtain ⟨h11, h12⟩ := hhash (by rw [hinput]; rfl) _ hinput
  rw [bytesOfLimbs_auctioneerDomain] at h11 h12
  obtain ⟨h3, h4⟩ := limbs_eq_of_assert h9 h13 h14 h15 hcaller
  have h27 : wires 27 = 0 := (eq_of_testEq h30 hbids).trans h9
  refine ⟨bytesOfLimbs (wires 7) (wires 8), wires 16, ?_⟩
  refine read_all hvalid (declarable_cancel _ _) (hdeclared.symm.trans ?_)
  simp only [cancelDeclared, cancelIr, declared, PaddedCode.encodeAll_append,
    encodeAll_readCell, encodeAll_writeCell, valueFields_bytes32, stateFields_newCell]
  by_cases hphase : wires 16 = 0
  · have hone : wires 17 = 1 := by rw [h17, if_pos (hphase.trans h9.symm)]
    have hguard : wires 18 = 0 := by rw [h18 (by omega), if_pos hone, h9]
    simp only [hguard, Nat.zero_le, forall_const, zero_ne_one, if_false] at h19 h20 h21 h23 h24
    simp [h0, h1, h2, h3, h4, h5, h6, h9, h11, h12, hphase, hguard, h19, h20, h21, h23, h24, h27,
      h28, h29, h31, h32, h33, h34, deriveAuctioneerId0, popeqCode, descriptor0, descriptor1,
      compactTypeEnumPhase, compactTypeUnsignedInteger, phaseNumber, valueFields_atom,
      List.replicate]
  · have hzero : wires 17 = 0 := by rw [h17, if_neg (by rwa [h9])]
    have hguard : wires 18 = 1 := by rw [h18 (by omega), if_neg (by omega), h0]
    have hagain : wires 22 = 1 := by
      rw [h26 (by omega), if_neg (by omega)] at hconcluded
      exact (eq_of_testEq h25 hconcluded).trans h0
    simp only [hguard, le_refl, forall_const, if_true] at h19 h20 h21 h23 h24
    simp [h0, h1, h2, h3, h4, h5, h6, h9, h11, h12, hphase, hguard, h19, h20, h21, h23, h24, h27,
      h28, h29, h31, h32, h33, h34, hagain, deriveAuctioneerId0, popeqCode, descriptor0,
      descriptor1, compactTypeEnumPhase, compactTypeUnsignedInteger, phaseNumber,
      valueFields_atom, encodeAll_readCell]

end SealedBid.Compiled
