import SealedBid.Client.CompiledContract
import SealedBid.Contract.Calls
import SealedBid.Compiled.LedgerVm

/-!
# The compiled circuits

The constructor and the five circuits as the compiled contract has them
(`managed/sealed-bid/contract/index.js`): what each reads from the ledger machine, in which order,
which assertions it makes in between, and which programs it runs at its end. The programs come in a
few shapes, the access to one cell of the state array each (`readCell`, `testMember`, `lookupEntry`,
`writeCell`, `insertEntry`, `increment`); a program that reads takes the value of its `popeq` as a
parameter, which is `none` while a circuit runs and the value read in the transcript.

The pure circuits are here as well (`deriveBidderId`, `deriveAuctioneerId`, `computeCommitment`),
over the byte strings that the compiler wrote out, and they are the ones of the source
(`deriveBidderId_eq`, `deriveAuctioneerId_eq`, `computeCommitment_eq`).

`call` is an entry point: it starts from an empty transcript and returns the next state, the private
state and the proof data; a call that throws returns nothing.

Scope. The checks of the arguments are those of the types here; `Client.CompiledContract` has the
checks of the integers. Gas is not modelled.
-/

set_option autoImplicit false
set_option relaxedAutoImplicit false

namespace SealedBid.Compiled

open RecordedPrograms

/-! ### Programs -/

/-- A state array has a first cell. -/
instance neZero_cells : NeZero 256 := ⟨by decide⟩

/-- The key of a cell of the state array. -/
def cellKey (cell : Fin 256) : AlignedValue := descriptor11.toValue cell

/-- The program that reads a cell. -/
def readCell (cached : Bool) (cell : Fin 256) (result : Option AlignedValue) : List Op :=
  [.dup 0, .idx false false [cellKey cell], .popeq cached result]

/-- The program that asks whether a key is in the map of a cell. -/
def testMember (cell : Fin 256) (key : AlignedValue) (result : Option AlignedValue) : List Op :=
  [.dup 0, .idx false false [cellKey cell], .push false (newCell key), .member, .popeq true result]

/-- The program that reads the map of a cell at a key. -/
def lookupEntry (cell : Fin 256) (key : AlignedValue) (result : Option AlignedValue) : List Op :=
  [.dup 0, .idx false false [cellKey cell], .idx false false [key], .popeq false result]

/-- The program that writes a cell. -/
def writeCell (cell : Fin 256) (value : StateValue) : List Op :=
  [.push false (newCell (cellKey cell)), .push true value, .ins false 1]

/-- The program that inserts into the map of a cell. -/
def insertEntry (cell : Fin 256) (key : AlignedValue) (value : StateValue) : List Op :=
  [.idx false true [cellKey cell], .push false (newCell key), .push true value, .ins false 1,
    .ins true 1]

/-- The program that adds to the counter of a cell. -/
def increment (cell : Fin 256) (immediate : ℕ) : List Op :=
  [.idx false true [cellKey cell], .addi immediate, .ins true 1]

/-! ### Computations of the compiled contract -/

/-- What a circuit keeps besides the contract state and the public transcript. -/
structure CircuitLocal where
  currentPrivateState : SealedBidPrivateState
  privateTranscriptOutputs : List AlignedValue
  deriving DecidableEq

/-- The context and the partial proof data of a running circuit. -/
abbrev CircuitContext := Context Op StateValue CircuitLocal

/-- A computation of the compiled contract. -/
abbrev CircuitM (α : Type) := RecordedPrograms.Circuit Op StateValue CircuitLocal String α

variable (vm : LedgerVm) (persistentHash : PersistentHash)

/-- `queryLedgerState`. -/
def queryLedgerState (program : List Op) : CircuitM (List AlignedValue) :=
  query vm.machine vm.beneath program

/-- The one value that a program read, in the type of its descriptor. -/
def onlyRead {α : Type} (descriptor : Descriptor α) : List AlignedValue → Except String α
  | [value] =>
    match descriptor.fromValue value with
    | some x => .ok x
    | none => .error "the value read is not of its type"
  | _ => .error "the program did not read one value"

/-- `descriptor.fromValue(queryLedgerState(…).value)`. -/
def queryValue {α : Type} (descriptor : Descriptor α) (program : List Op) : CircuitM α := do
  onlyRead descriptor (← queryLedgerState vm program)

/-- `_localSecretKey_0`: the secret key of the witness, recorded in the private transcript. -/
def localSecretKey0 : CircuitM Bytes32 := fun context ↦
  let (nextPrivateState, result) := localSecretKey context.localState.currentPrivateState
  .ok (result, { context with
    localState := {
      currentPrivateState := nextPrivateState
      privateTranscriptOutputs :=
        context.localState.privateTranscriptOutputs ++ [descriptor2.toValue result] } })

/-! ### Pure circuits -/

/-- The bytes of the domain of bidder identities. -/
def bidderDomain : Bytes32 :=
  #v[115, 101, 97, 108, 101, 100, 98, 105, 100, 58, 98, 105, 100, 100, 101, 114, 58, 118, 49, 0, 0,
    0, 0, 0, 0, 0, 0, 0, 0, 0, 0, 0]

/-- The bytes of the domain of auctioneer identities. -/
def auctioneerDomain : Bytes32 :=
  #v[115, 101, 97, 108, 101, 100, 98, 105, 100, 58, 97, 117, 99, 116, 105, 111, 110, 101, 101, 114,
    58, 118, 49, 0, 0, 0, 0, 0, 0, 0, 0, 0]

/-- The bytes of the domain of commitments. -/
def commitDomain : Bytes32 :=
  #v[115, 101, 97, 108, 101, 100, 98, 105, 100, 58, 99, 111, 109, 109, 105, 116, 58, 118, 49, 0, 0,
    0, 0, 0, 0, 0, 0, 0, 0, 0, 0, 0]

/-- `_deriveBidderId_0`. -/
def deriveBidderId0 (sk : Bytes32) : Bytes32 := persistentHash [bidderDomain, sk]

/-- `_deriveAuctioneerId_0`. -/
def deriveAuctioneerId0 (sk : Bytes32) : Bytes32 := persistentHash [auctioneerDomain, sk]

/-- `_computeCommitment_0`. -/
def computeCommitment0 (amount : Uint64) (nonce bidderId : Bytes32) : Bytes32 :=
  persistentHash [commitDomain, asBytes amount, nonce, bidderId]

/-- The comparison of two byte strings, byte by byte of the first. -/
def equalBytes (x0 y0 : Bytes32) : Bool := (List.finRange 32).all fun i ↦ y0.get i == x0.get i

/-- The comparison of two numbers. -/
def equalNumbers (x0 y0 : Uint64) : Bool := x0 == y0

def equal0 : Bytes32 → Bytes32 → Bool := equalBytes
def equal1 : Bytes32 → Bytes32 → Bool := equalBytes
def equal2 : Uint64 → Uint64 → Bool := equalNumbers
def equal3 : Bytes32 → Bytes32 → Bool := equalBytes
def equal4 : Uint64 → Uint64 → Bool := equalNumbers

/-! ### Circuits -/

/-- `_placeBid_0`. -/
def placeBid0 (sealedBid : Bytes32) : CircuitM Unit := do
  let phase ← queryValue vm descriptor1 (readCell false 0 none)
  assert (phase = .bidding) "Sealed bidding is not open"
  let bidder := deriveBidderId0 persistentHash (← localSecretKey0)
  let commitment := sealedBid
  let registered ← queryValue vm descriptor3 (testMember 5 (descriptor2.toValue commitment) none)
  assert (!registered) "This sealed bid commitment was already registered"
  let placed ← queryValue vm descriptor3 (testMember 6 (descriptor2.toValue bidder) none)
  assert (!placed) "This identity has already placed a sealed bid"
  let _ ← queryLedgerState vm
    (insertEntry 5 (descriptor2.toValue commitment) (newCell (descriptor2.toValue bidder)))
  let _ ← queryLedgerState vm
    (insertEntry 6 (descriptor2.toValue bidder) (newCell (descriptor2.toValue commitment)))
  let _ ← queryLedgerState vm (increment 12 1)

/-- `_closeBidding_0`. -/
def closeBidding0 : CircuitM Unit := do
  let auctioneer ← queryValue vm descriptor2 (readCell false 1 none)
  let caller := deriveAuctioneerId0 persistentHash (← localSecretKey0)
  assert (equal0 auctioneer caller) "Only the auctioneer can close the bidding"
  let phase ← queryValue vm descriptor1 (readCell false 0 none)
  assert (phase = .bidding) "Sealed bidding is already closed"
  let _ ← queryLedgerState vm (writeCell 0 (newCell (descriptor1.toValue .reveal)))

/-- What `_revealBid_0` runs when the amount meets the reserve: the reveal counts, and the amount
becomes the best bid when it beats the current one. -/
def countReveal0 (bidder : Bytes32) (amount : Uint64) (beatsCurrentBest : Bool) :
    CircuitM Unit := do
  let _ ← queryLedgerState vm (increment 13 1)
  if beatsCurrentBest then
    let _ ← queryLedgerState vm (writeCell 8 (newCell (descriptor0.toValue amount)))
    let _ ← queryLedgerState vm (writeCell 9 (newCell (descriptor2.toValue bidder)))

/-- `_revealBid_0`. -/
def revealBid0 (amount : Uint64) (nonce : Bytes32) : CircuitM Unit := do
  let phase ← queryValue vm descriptor1 (readCell false 0 none)
  assert (phase = .reveal) "Reveals are not open"
  let bidder := deriveBidderId0 persistentHash (← localSecretKey0)
  let placed ← queryValue vm descriptor3 (testMember 6 (descriptor2.toValue bidder) none)
  assert placed "This identity never placed a sealed bid"
  let commitment ← queryValue vm descriptor2 (lookupEntry 6 (descriptor2.toValue bidder) none)
  let opened ← queryValue vm descriptor3 (testMember 7 (descriptor2.toValue commitment) none)
  assert (!opened) "This sealed bid has already been revealed"
  let expected := computeCommitment0 persistentHash amount nonce bidder
  assert (equal1 expected commitment) "Reveal does not match the sealed bid commitment"
  let _ ← queryLedgerState vm (insertEntry 7 (descriptor2.toValue commitment) newNull)
  let reservePrice ← queryValue vm descriptor0 (readCell false 2 none)
  let meetsReserve := decide (amount ≥ reservePrice)
  let highestBid ← queryValue vm descriptor0 (readCell false 8 none)
  let beatsCurrentBest := decide (amount > highestBid)
  if meetsReserve then countReveal0 vm bidder amount beatsCurrentBest

/-- The outcome that `_finalize_0` writes: none when no reveal counted, and the best bid
otherwise. -/
def recordOutcome0 (noReveal : Bool) : CircuitM Unit := do
  if noReveal then
    let _ ← queryLedgerState vm (writeCell 10 (newCell (descriptor5.toValue none0)))
    let _ ← queryLedgerState vm (writeCell 11 (newCell (descriptor0.toValue 0)))
  else
    let highestBidder ← queryValue vm descriptor2 (readCell false 9 none)
    let _ ← queryLedgerState vm (writeCell 10 (newCell (descriptor5.toValue (some0 highestBidder))))
    let highestBid ← queryValue vm descriptor0 (readCell false 8 none)
    let _ ← queryLedgerState vm (writeCell 11 (newCell (descriptor0.toValue highestBid)))

/-- `_finalize_0`. -/
def finalize0 : CircuitM Unit := do
  let phase ← queryValue vm descriptor1 (readCell false 0 none)
  assert (phase = .reveal) "Auction is not in the reveal phase"
  let validRevealCount ← queryValue vm descriptor0 (readCell true 13 none)
  recordOutcome0 vm (equal2 validRevealCount 0)
  let _ ← queryLedgerState vm (writeCell 0 (newCell (descriptor1.toValue .finalized)))

/-- The test of `_cancel_0` that the auction is not over: the phase is read a second time when it is
not the first of the two. -/
def notConcluded0 : CircuitM Bool := do
  let phase ← queryValue vm descriptor1 (readCell false 0 none)
  if phase = .bidding then return true
  else
    let phase ← queryValue vm descriptor1 (readCell false 0 none)
    return phase = .reveal

/-- `_cancel_0`. -/
def cancel0 : CircuitM Unit := do
  let auctioneer ← queryValue vm descriptor2 (readCell false 1 none)
  let caller := deriveAuctioneerId0 persistentHash (← localSecretKey0)
  assert (equal3 auctioneer caller) "Only the auctioneer can cancel this auction"
  let notConcluded ← notConcluded0 vm
  assert notConcluded "Auction has already concluded"
  let bidCount ← queryValue vm descriptor0 (readCell true 12 none)
  assert (equal4 bidCount 0) "Cannot cancel an auction that already has sealed bids"
  let _ ← queryLedgerState vm (writeCell 0 (newCell (descriptor1.toValue .cancelled)))

/-! ### Constructor -/

/-- The values of the cells before the constructor of the source runs, in the order in which
`initialState` writes them. -/
def defaultCells : List StateValue :=
  [newCell (descriptor1.toValue .bidding), newCell (descriptor2.toValue zeroBytes),
    newCell (descriptor0.toValue 0), newCell (descriptor0.toValue 0),
    newCell (descriptor0.toValue 0), newMap, newMap, newMap, newCell (descriptor0.toValue 0),
    newCell (descriptor2.toValue zeroBytes), newCell (descriptor5.toValue none0),
    newCell (descriptor0.toValue 0), newCell (descriptor0.toValue 0),
    newCell (descriptor0.toValue 0)]

/-- A list of cells written one after the other, from a cell on. -/
def writeCells (first : Fin 256) : List StateValue → CircuitM Unit
  | [] => pure ()
  | value :: values => do
    let _ ← queryLedgerState vm (writeCell first value)
    writeCells (first + 1) values

/-- The body of `initialState` after its checks: the default values of the cells, the assertions of
the constructor, and the cells that it writes. -/
def initialState0 (reservePrice bidDeadline revealDeadline : Uint64) : CircuitM Unit := do
  writeCells vm 0 defaultCells
  assert (reservePrice > 0) "Reserve price must be greater than zero"
  assert (revealDeadline > bidDeadline) "Reveal deadline must be after the bidding deadline"
  let auctioneer := deriveAuctioneerId0 persistentHash (← localSecretKey0)
  let _ ← queryLedgerState vm (writeCell 1 (newCell (descriptor2.toValue auctioneer)))
  let _ ← queryLedgerState vm (writeCell 2 (newCell (descriptor0.toValue reservePrice)))
  let _ ← queryLedgerState vm (writeCell 3 (newCell (descriptor0.toValue bidDeadline)))
  let _ ← queryLedgerState vm (writeCell 4 (newCell (descriptor0.toValue revealDeadline)))
  let _ ← queryLedgerState vm (writeCell 0 (newCell (descriptor1.toValue .bidding)))
  let _ ← queryLedgerState vm (writeCell 10 (newCell (descriptor5.toValue none0)))
  let _ ← queryLedgerState vm (writeCell 11 (newCell (descriptor0.toValue 0)))

/-- The state array before the first program of the constructor: 14 times null. -/
def newArray : StateValue := .array (List.replicate 14 (.leaf .null))

/-! ### Entry points -/

/-- What an entry point returns for the proof of the call. -/
structure ProofData where
  input : AlignedValue
  output : AlignedValue
  publicTranscript : List Op
  privateTranscriptOutputs : List AlignedValue
  deriving DecidableEq

/-- The context of a call before its circuit runs. -/
def startContext (state : StateValue) (privateState : SealedBidPrivateState) : CircuitContext where
  state := state
  localState := { currentPrivateState := privateState, privateTranscriptOutputs := [] }
  transcript := []

/-- The input of a call, as the proof data holds it. -/
def input : SealedBid.Circuit → AlignedValue
  | .placeBid sealedBid => descriptor2.toValue sealedBid
  | .closeBidding => []
  | .revealBid amount nonce => descriptor0.toValue amount ++ descriptor2.toValue nonce
  | .finalize => []
  | .cancel => []

/-- The circuit that an entry point runs. -/
def body : SealedBid.Circuit → CircuitM Unit
  | .placeBid sealedBid => placeBid0 vm persistentHash sealedBid
  | .closeBidding => closeBidding0 vm persistentHash
  | .revealBid amount nonce => revealBid0 vm persistentHash amount nonce
  | .finalize => finalize0 vm
  | .cancel => cancel0 vm persistentHash

/-- The result of a call. -/
structure CallResult where
  state : StateValue
  privateState : SealedBidPrivateState
  proofData : ProofData
  deriving DecidableEq

/-- An entry point of the compiled contract. -/
def call (circuit : SealedBid.Circuit) (state : StateValue)
    (privateState : SealedBidPrivateState) : Except String CallResult := do
  let ((), context) ← body vm persistentHash circuit (startContext state privateState)
  return {
    state := context.state
    privateState := context.localState.currentPrivateState
    proofData := {
      input := input circuit
      output := []
      publicTranscript := context.transcript
      privateTranscriptOutputs := context.localState.privateTranscriptOutputs } }

/-! ### The pure circuits are those of the source -/

variable {persistentHash}

theorem bidderDomain_eq : bidderDomain = pad 32 "sealedbid:bidder:v1" := by decide +kernel

theorem auctioneerDomain_eq : auctioneerDomain = pad 32 "sealedbid:auctioneer:v1" := by
  decide +kernel

theorem commitDomain_eq : commitDomain = pad 32 "sealedbid:commit:v1" := by decide +kernel

@[simp] theorem deriveBidderId_eq (sk : Bytes32) :
    deriveBidderId0 persistentHash sk = deriveBidderId persistentHash sk := by
  rw [deriveBidderId0, bidderDomain_eq, deriveBidderId]

@[simp] theorem deriveAuctioneerId_eq (sk : Bytes32) :
    deriveAuctioneerId0 persistentHash sk = deriveAuctioneerId persistentHash sk := by
  rw [deriveAuctioneerId0, auctioneerDomain_eq, deriveAuctioneerId]

@[simp] theorem computeCommitment_eq (amount : Uint64) (nonce bidderId : Bytes32) :
    computeCommitment0 persistentHash amount nonce bidderId =
      computeCommitment persistentHash amount nonce bidderId := by
  rw [computeCommitment0, commitDomain_eq, computeCommitment]

@[simp] theorem equalBytes_iff {x0 y0 : Bytes32} : equalBytes x0 y0 = true ↔ x0 = y0 := by
  rw [equalBytes, List.all_eq_true]
  constructor
  · intro h
    ext i hi
    have hbyte := h ⟨i, hi⟩ (List.mem_finRange _)
    rw [beq_iff_eq] at hbyte
    exact congrArg UInt8.toNat hbyte.symm
  · rintro rfl i -
    exact beq_self_eq_true _

@[simp] theorem equalNumbers_iff {x0 y0 : Uint64} : equalNumbers x0 y0 = true ↔ x0 = y0 :=
  beq_iff_eq

end SealedBid.Compiled
