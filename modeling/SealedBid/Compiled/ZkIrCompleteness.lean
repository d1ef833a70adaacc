import SealedBid.Compiled.ZkIrSoundness

/-!
# The transcripts that have proofs

For every circuit, the wires with which an honest prover executes its program: for all arguments,
secret keys and reads that the circuit goes through with, the public inputs are the transcript that
the circuit records, with `noop` instructions for the programs that it skips (`placeBid_provable` to
`cancel_provable`).

Scope. As in `ZkIrSoundness`, these are results about one proof.
-/

set_option autoImplicit false
set_option relaxedAutoImplicit false

namespace SealedBid.Compiled

variable (undeclared : UndeclaredFields) (persistentHash : PersistentHash)

/-- Public inputs for which a prover has wires. -/
def Provable (program : Program) (publicInputs : List ℕ) : Prop :=
  ∃ wires : Wires, (∀ wire, wires wire < 2 ^ 248) ∧
    Executed persistentHash wires program.numInputs program.instructions ∧
      declared wires program.instructions = publicInputs

/-- The wires with given values. -/
def wiresOf (values : List ℕ) : Wires := fun wire ↦ values.getD wire 0

theorem wiresOf_lt {values : List ℕ} {bound : ℕ} (hbound : 0 < bound)
    (h : ∀ value ∈ values, value < bound) (wire : ℕ) : wiresOf values wire < bound := by
  rw [wiresOf, List.getD_eq_getElem?_getD]
  cases hvalue : values[wire]? with
  | none => exact hbound
  | some value => exact h value (List.mem_of_getElem? hvalue)

variable {undeclared persistentHash}

theorem highLimb_lt_field (bytes : Bytes32) : highLimb bytes < 2 ^ 248 :=
  lt_trans (highLimb_lt bytes) (by decide)

theorem uint64_lt_field (x : Uint64) : x.val < 2 ^ 248 := lt_trans x.isLt (by decide)

/-- The hash of a domain and a secret key, given by their limbs. -/
theorem hashInput_limbs {wires : Wires} {off immediate high low : ℕ} (domain : ℕ)
    {domainBytes secretKey : Bytes32} (hoff : wires off = 0) (himmediate : wires immediate = domain)
    (hdomain : domain < 2 ^ 248) (hbytes : bytesOfLimbs 0 domain = domainBytes)
    (hhigh : wires high = highLimb secretKey) (hlow : wires low = lowLimb secretKey) :
    hashInput wires [32, 32] [off, immediate, high, low] = some [domainBytes, secretKey] := by
  rw [hashInput_identity hoff himmediate hdomain (by rw [hhigh]; exact highLimb_lt _)
    (by rw [hlow]; exact lowLimb_lt _), hbytes, hhigh, hlow, bytesOfLimbs_limbs]

theorem bytesOfLimbs_zero_amount (amount : Uint64) :
    bytesOfLimbs 0 amount.val = asBytes amount := by
  rw [bytesOfLimbs, Nat.zero_mul, Nat.zero_add]
  rfl

/-! ### Circuits -/

/-- The wires of a bid. -/
def placeBidWires (sealedBid secretKey bidder : Bytes32) : List ℕ :=
  [highLimb sealedBid, lowLimb sealedBid, 1, 0x30, 0x50, 0, 0, 0x0C, 1, highLimb secretKey,
    lowLimb secretKey, 1103035652903679356054152897307660685288760691, highLimb bidder,
    lowLimb bidder, 5, 0x10, 32, 0x18, 0, 0x0D, 1, 6, 0, 1, 0x70, 0x11, 0x91, 0xA1, 0x0E]

theorem placeBid_provable (sealedBid secretKey : Bytes32) :
    Provable persistentHash placeBidIr ((fieldCode undeclared).encodeAll
      (placeBidDeclared sealedBid (deriveBidderId0 persistentHash secretKey) 0 0)) := by
  refine ⟨wiresOf (placeBidWires sealedBid secretKey (deriveBidderId0 persistentHash secretKey)),
    wiresOf_lt (by decide) ?_, ?_, ?_⟩
  · simp only [placeBidWires, List.forall_mem_cons, highLimb_lt_field, lowLimb_lt]
    decide
  · have hidentity : hashInput
        (wiresOf (placeBidWires sealedBid secretKey (deriveBidderId0 persistentHash secretKey)))
        [32, 32] [5, 11, 9, 10] = some [bidderDomain, secretKey] :=
      hashInput_limbs 1103035652903679356054152897307660685288760691 rfl rfl (by decide)
        bytesOfLimbs_bidderDomain rfl rfl
    simp only [placeBidIr, Executed, Instruction.outputs, Instruction.Defined, Instruction.Result,
      hidentity]
    simp [placeBidWires, wiresOf, -deriveBidderId_eq]
    exact ⟨highLimb_lt _, lowLimb_lt _, highLimb_lt _, lowLimb_lt _, rfl, rfl⟩
  · simp [placeBidIr, declared, placeBidDeclared, placeBidWires, wiresOf, phaseNumber]

/-- The wires of closing the bidding. -/
def closeBiddingWires (secretKey auctioneer : Bytes32) : List ℕ :=
  [1, 0x30, 0x50, highLimb auctioneer, lowLimb auctioneer, 32, 0x0C, highLimb secretKey,
    lowLimb secretKey, 0, 4737502055543400795445417625511831498650168649331074419,
    highLimb auctioneer, lowLimb auctioneer, 1, 1, 1, 0, 1, 0x10, 0x11, 0x91]

theorem closeBidding_provable (secretKey : Bytes32) :
    Provable persistentHash closeBiddingIr ((fieldCode undeclared).encodeAll
      (closeBiddingTranscript (deriveAuctioneerId0 persistentHash secretKey))) := by
  refine ⟨wiresOf (closeBiddingWires secretKey (deriveAuctioneerId0 persistentHash secretKey)),
    wiresOf_lt (by decide) ?_, ?_, ?_⟩
  · simp only [closeBiddingWires, List.forall_mem_cons, highLimb_lt_field, lowLimb_lt]
    decide
  · have hidentity : hashInput
        (wiresOf (closeBiddingWires secretKey (deriveAuctioneerId0 persistentHash secretKey)))
        [32, 32] [9, 10, 7, 8] = some [auctioneerDomain, secretKey] :=
      hashInput_limbs 4737502055543400795445417625511831498650168649331074419 rfl rfl (by decide)
        bytesOfLimbs_auctioneerDomain rfl rfl
    simp only [closeBiddingIr, Executed, Instruction.outputs, Instruction.Defined,
      Instruction.Result, hidentity]
    simp [closeBiddingWires, wiresOf, -deriveAuctioneerId_eq]
    exact ⟨highLimb_lt _, lowLimb_lt _, rfl, rfl⟩
  · simp [closeBiddingIr, declared, closeBiddingTranscript, closeBiddingWires, wiresOf, phaseNumber]

/-- A value that is declared under a guard. -/
def guarded (guard : Bool) (value : ℕ) : ℕ := if guard then value else 0

/-- The wires of a reveal. -/
def revealBidWires (amount : Uint64) (nonce secretKey bidder commitment : Bytes32)
    (reservePrice highestBid : Uint64) (meetsReserve beatsCurrentBest : Bool) : List ℕ :=
  [amount.val, highLimb nonce, lowLimb nonce, 1, 0x30, 0x50, 0, 1, 0x0C, 1, highLimb secretKey,
    lowLimb secretKey, 1103035652903679356054152897307660685288760691, highLimb bidder,
    lowLimb bidder, 6, 0x10, 32, 0x18, 1, 0x0D, highLimb commitment, lowLimb commitment, 7, 0, 1,
    0, amount.val, 1103035655583087791656138431789935699846849907, highLimb commitment,
    lowLimb commitment, 1, 1, 1, 0x70, 0x11, 0x91, 0xA1, 2, reservePrice.val, 8,
    (!meetsReserve).toNat, meetsReserve.toNat, highestBid.val, beatsCurrentBest.toNat,
    guarded meetsReserve 0x70, guarded meetsReserve 0x0D, 0x0E, guarded meetsReserve 0x0E,
    guarded meetsReserve 0xA1, (meetsReserve && beatsCurrentBest).toNat,
    guarded (meetsReserve && beatsCurrentBest) 0x10, guarded (meetsReserve && beatsCurrentBest) 8,
    guarded (meetsReserve && beatsCurrentBest) 0x11, guarded (meetsReserve && beatsCurrentBest) 8,
    guarded (meetsReserve && beatsCurrentBest) amount.val,
    guarded (meetsReserve && beatsCurrentBest) 0x91, 9,
    guarded (meetsReserve && beatsCurrentBest) 0x10, guarded (meetsReserve && beatsCurrentBest) 9,
    guarded (meetsReserve && beatsCurrentBest) 0x11, guarded (meetsReserve && beatsCurrentBest) 32,
    guarded (meetsReserve && beatsCurrentBest) (highLimb bidder),
    guarded (meetsReserve && beatsCurrentBest) (lowLimb bidder),
    guarded (meetsReserve && beatsCurrentBest) 0x91]

theorem revealBidWires_lt (amount : Uint64) (nonce secretKey bidder commitment : Bytes32)
    (reservePrice highestBid : Uint64) (meetsReserve beatsCurrentBest : Bool) :
    ∀ value ∈ revealBidWires amount nonce secretKey bidder commitment reservePrice highestBid
      meetsReserve beatsCurrentBest, value < 2 ^ 248 := by
  cases meetsReserve <;> cases beatsCurrentBest <;>
    simp only [revealBidWires, guarded, Bool.and_true, Bool.and_false, if_true, if_false,
      Bool.false_eq_true, List.forall_mem_cons, highLimb_lt_field, lowLimb_lt, uint64_lt_field] <;>
    simp

theorem revealBid_provable (secretKey : Bytes32) (amount : Uint64) (nonce : Bytes32)
    (reservePrice highestBid : Uint64) :
    Provable persistentHash revealBidIr ((fieldCode undeclared).encodeAll
      (openingDeclared (deriveBidderId0 persistentHash secretKey)
          (computeCommitment0 persistentHash amount nonce
            (deriveBidderId0 persistentHash secretKey)) 1 0 reservePrice.val highestBid.val ++
        countRevealDeclared (deriveBidderId0 persistentHash secretKey) amount
          (decide (reservePrice ≤ amount)) (decide (highestBid < amount)))) := by
  refine ⟨wiresOf (revealBidWires amount nonce secretKey (deriveBidderId0 persistentHash secretKey)
    (computeCommitment0 persistentHash amount nonce (deriveBidderId0 persistentHash secretKey))
    reservePrice highestBid (decide (reservePrice ≤ amount)) (decide (highestBid < amount))),
    wiresOf_lt (by decide) ?_, ?_, ?_⟩
  · exact revealBidWires_lt _ _ _ _ _ _ _ _ _
  · have hidentity : hashInput
        (wiresOf (revealBidWires amount nonce secretKey (deriveBidderId0 persistentHash secretKey)
          (computeCommitment0 persistentHash amount nonce
            (deriveBidderId0 persistentHash secretKey)) reservePrice highestBid
          (decide (reservePrice ≤ amount)) (decide (highestBid < amount))))
        [32, 32] [6, 12, 10, 11] = some [bidderDomain, secretKey] :=
      hashInput_limbs 1103035652903679356054152897307660685288760691 rfl rfl (by decide)
        bytesOfLimbs_bidderDomain rfl rfl
    have hcommitment : hashInput
        (wiresOf (revealBidWires amount nonce secretKey (deriveBidderId0 persistentHash secretKey)
          (computeCommitment0 persistentHash amount nonce
            (deriveBidderId0 persistentHash secretKey)) reservePrice highestBid
          (decide (reservePrice ≤ amount)) (decide (highestBid < amount))))
        [32, 32, 32, 32] [6, 28, 26, 27, 1, 2, 13, 14] =
          some [commitDomain, asBytes amount, nonce, deriveBidderId0 persistentHash secretKey] := by
      rw [hashInput_cons, hashInput_cons, hashInput_cons, hashInput_cons]
      · show some [bytesOfLimbs 0 1103035655583087791656138431789935699846849907,
          bytesOfLimbs 0 amount.val, bytesOfLimbs (highLimb nonce) (lowLimb nonce),
          bytesOfLimbs (highLimb (deriveBidderId0 persistentHash secretKey))
            (lowLimb (deriveBidderId0 persistentHash secretKey))] = _
        rw [bytesOfLimbs_commitDomain, bytesOfLimbs_limbs, bytesOfLimbs_limbs,
          bytesOfLimbs_zero_amount]
      · exact highLimb_lt _
      · exact lowLimb_lt _
      · exact highLimb_lt _
      · exact lowLimb_lt _
      · exact (by decide : 0 < 2 ^ 8)
      · exact uint64_lt_field amount
      · exact (by decide : 0 < 2 ^ 8)
      · exact (by decide : 1103035655583087791656138431789935699846849907 < 2 ^ 248)
    have hamount : 0 = amount.val / 2 ^ 248 ∧ amount.val = amount.val % 2 ^ 248 := by
      have hlt := uint64_lt_field amount
      omega
    set_option maxRecDepth 4000 in
    simp only [revealBidIr, Executed, Instruction.outputs, Instruction.Defined,
      Instruction.Result, hidentity, hcommitment]
    set_option maxRecDepth 20000 in
    simp [revealBidWires, wiresOf, -deriveBidderId_eq, -computeCommitment_eq]
    refine ⟨highLimb_lt _, lowLimb_lt _, highLimb_lt _, lowLimb_lt _, ⟨rfl, rfl⟩, hamount,
      ⟨rfl, rfl⟩, ?_⟩
    have hless : amount < reservePrice ↔ ¬ reservePrice ≤ amount := not_le.symm
    by_cases hmeets : reservePrice ≤ amount <;> by_cases hbest : highestBid < amount <;>
      simp [guarded, hless, hmeets, hbest]
  · set_option maxRecDepth 4000 in
    simp [revealBidIr, declared, openingDeclared, revealBidWires, wiresOf, phaseNumber]
    by_cases hmeets : reservePrice ≤ amount <;> by_cases hbest : highestBid < amount <;>
      simp [countRevealDeclared, guarded, hmeets, hbest, List.replicate]

/-- The wires of a finalization. -/
def finalizeWires (validRevealCount : Uint64) (highestBidder : Bytes32) (highestBid : Uint64)
    (noReveal : Bool) : List ℕ :=
  [1, 0x30, 0x50, 0, 1, 0x0C, 1, 0x0D, validRevealCount.val, 8, noReveal.toNat, (!noReveal).toNat,
    0x10, 0x0A, guarded noReveal 0x10, guarded noReveal 0x0A, 0x11, 2, 32, guarded noReveal 0x11,
    guarded noReveal 2, guarded noReveal 32, 0, 0, 0, 0x91, guarded noReveal 0x91, 0x0B,
    guarded noReveal 0x10, guarded noReveal 0x0B, guarded noReveal 0x11, guarded noReveal 8, 0,
    guarded noReveal 0x91, guarded (!noReveal) 0x30, 9, guarded (!noReveal) 0x50,
    guarded (!noReveal) 9, guarded (!noReveal) (highLimb highestBidder),
    guarded (!noReveal) (lowLimb highestBidder), guarded (!noReveal) 0x0C, guarded (!noReveal) 32,
    guarded (!noReveal) (highLimb highestBidder), guarded (!noReveal) (lowLimb highestBidder),
    guarded (!noReveal) 0x10, guarded (!noReveal) 0x0A, guarded (!noReveal) 0x11,
    guarded (!noReveal) 2, guarded (!noReveal) 32, guarded (!noReveal) (highLimb highestBidder),
    guarded (!noReveal) (lowLimb highestBidder), guarded (!noReveal) 0x91,
    guarded (!noReveal) 0x30, guarded (!noReveal) 0x50, guarded (!noReveal) 8,
    guarded (!noReveal) highestBid.val, guarded (!noReveal) 0x0C, guarded (!noReveal) 8,
    guarded (!noReveal) highestBid.val, guarded (!noReveal) 0x10, guarded (!noReveal) 0x0B,
    guarded (!noReveal) 0x11, guarded (!noReveal) 8, guarded (!noReveal) highestBid.val,
    guarded (!noReveal) 0x91]

theorem finalize_provable (validRevealCount : Uint64) (highestBidder : Bytes32)
    (highestBid : Uint64) :
    Provable persistentHash finalizeIr ((fieldCode undeclared).encodeAll
      (finalizeDeclared validRevealCount.val (leNat highestBidder.toList) highestBid.val)) := by
  refine ⟨wiresOf (finalizeWires validRevealCount highestBidder highestBid
    (decide (validRevealCount.val = 0))), wiresOf_lt (by decide) ?_, ?_, ?_⟩
  · generalize decide (validRevealCount.val = 0) = noReveal
    cases noReveal <;>
      simp only [finalizeWires, guarded, Bool.not_true, Bool.not_false, if_true, if_false,
        Bool.false_eq_true, List.forall_mem_cons, highLimb_lt_field, lowLimb_lt,
        uint64_lt_field] <;>
      simp
  · set_option maxRecDepth 4000 in
    by_cases hcount : validRevealCount.val = 0 <;>
      simp [finalizeIr, Executed, Instruction.outputs, Instruction.Defined, Instruction.Result,
        finalizeWires, wiresOf, guarded, hcount]
  · by_cases hcount : validRevealCount.val = 0
    · set_option maxRecDepth 4000 in
      simp [finalizeIr, declared, finalizeDeclared, recordOutcomeDeclared, finalizeWires, wiresOf,
        guarded, phaseNumber, hcount, List.replicate]
    · set_option maxRecDepth 4000 in
      simp [finalizeIr, declared, finalizeDeclared, recordOutcomeDeclared, finalizeWires, wiresOf,
        guarded, phaseNumber, hcount, List.replicate]
      exact ⟨rfl, rfl, rfl, rfl⟩

/-- The wires of a cancellation. -/
def cancelWires (secretKey auctioneer : Bytes32) (phase : ℕ) (again : Bool) : List ℕ :=
  [1, 0x30, 0x50, highLimb auctioneer, lowLimb auctioneer, 32, 0x0C, highLimb secretKey,
    lowLimb secretKey, 0, 4737502055543400795445417625511831498650168649331074419,
    highLimb auctioneer, lowLimb auctioneer, 1, 1, 1, phase, (!again).toNat, again.toNat,
    guarded again 0x30, guarded again 0x50, 0, again.toNat, guarded again 0x0C, again.toNat,
    again.toNat, 1, 0, 8, 0x0D, 1, 3, 0x10, 0x11, 0x91]

theorem cancel_provable (secretKey : Bytes32) {phase : Phase}
    (hphase : phase = .bidding ∨ phase = .reveal) :
    Provable persistentHash cancelIr ((fieldCode undeclared).encodeAll
      (cancelDeclared (deriveAuctioneerId0 persistentHash secretKey) (phaseNumber phase))) := by
  refine ⟨wiresOf (cancelWires secretKey (deriveAuctioneerId0 persistentHash secretKey)
    (phaseNumber phase) (decide (phase = .reveal))), wiresOf_lt (by decide) ?_, ?_, ?_⟩
  · obtain rfl | rfl := hphase
    all_goals
      simp only [cancelWires, guarded, List.forall_mem_cons, highLimb_lt_field, lowLimb_lt]
      decide
  · have hidentity : hashInput
        (wiresOf (cancelWires secretKey (deriveAuctioneerId0 persistentHash secretKey)
          (phaseNumber phase) (decide (phase = .reveal))))
        [32, 32] [9, 10, 7, 8] = some [auctioneerDomain, secretKey] :=
      hashInput_limbs 4737502055543400795445417625511831498650168649331074419 rfl rfl (by decide)
        bytesOfLimbs_auctioneerDomain rfl rfl
    simp only [cancelIr, Executed, Instruction.outputs, Instruction.Defined,
      Instruction.Result, hidentity]
    obtain rfl | rfl := hphase
    all_goals
      simp [cancelWires, wiresOf, guarded, phaseNumber, -deriveAuctioneerId_eq]
      exact ⟨highLimb_lt _, lowLimb_lt _, rfl, rfl⟩
  · obtain rfl | rfl := hphase <;>
      simp [cancelIr, declared, cancelDeclared, cancelWires, wiresOf, guarded, phaseNumber,
        List.replicate]

end SealedBid.Compiled
