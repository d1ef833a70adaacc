import SealedBid.Compiled.Circuits
import SealedBid.Foundation.MapTransport

/-!
# The ledger in the state array

How a ledger of the source lies in the state array of the compiled contract (`encode`), cell by
cell, and what the programs of the compiled contract do there. Every access has one lemma that says
what it reads, what it writes and what it records: first on any array (`queryValue_readCell`,
`queryValue_testMember`, `queryValue_lookupEntry`, `query_writeCell`, `query_insertEntry`,
`query_increment`), then on an encoded ledger, under the name of the cell
(`query_phase` and so on), so a circuit is executed on a ledger by rewriting.

Two ledgers with the same state array are equal (`encode_injective`).

Scope. The counters are natural numbers in a ledger and 64-bit integers in the machine; where a
counter is read or incremented, its value must be one (`Uint64`).
-/

set_option autoImplicit false
set_option relaxedAutoImplicit false

namespace SealedBid.Compiled

open RecordedPrograms FailSafeRun MapTransport

/-! ### Encoding -/

/-- The keys of the maps. -/
def bytesKey : Bytes32 ↪ AlignedValue := ⟨descriptor2.toValue, descriptor2.toValue_injective⟩

@[simp] theorem bytesKey_apply (bytes : Bytes32) : bytesKey bytes = descriptor2.toValue bytes := rfl

/-- The values of the maps. -/
def encodeEntry (value : Bytes32) : Leaf := .cell (descriptor2.toValue value)

/-- A map of the ledger. -/
def encodeMap (m : BytesMap) : Node := .map (transport bytesKey encodeEntry m)

/-- A set of the ledger. -/
def encodeSet (s : Finset Bytes32) : Node := .map (transportSet bytesKey .null s)

/-- A cell with a value of a type. -/
def encodeCell {α : Type} (descriptor : Descriptor α) (x : α) : Node :=
  .leaf (.cell (descriptor.toValue x))

/-- A counter. -/
def encodeCounter (count : ℕ) : Node := .leaf (.cell [⟨8, count⟩])

/-- The winner as the compiled contract holds it. -/
def encodeWinner : Option Bytes32 → Maybe
  | none => none0
  | some winner => some0 winner

/-- The 14 cells of a ledger. -/
def encodeCells (ledger : Ledger) : List Node :=
  [encodeCell descriptor1 ledger.phase, encodeCell descriptor2 ledger.auctioneer,
    encodeCell descriptor0 ledger.reservePrice, encodeCell descriptor0 ledger.bidDeadline,
    encodeCell descriptor0 ledger.revealDeadline, encodeMap ledger.commitments,
    encodeMap ledger.bidderCommitment, encodeSet ledger.revealedCommitments,
    encodeCell descriptor0 ledger.highestBid, encodeCell descriptor2 ledger.highestBidder,
    encodeCell descriptor5 (encodeWinner ledger.winner),
    encodeCell descriptor0 ledger.winningAmount, encodeCounter ledger.bidCount,
    encodeCounter ledger.validRevealCount]

/-- The state array of a ledger. -/
def encode (ledger : Ledger) : StateValue := .array (encodeCells ledger)

theorem encodeWinner_injective : Function.Injective encodeWinner := by
  intro x y h
  cases x <;> cases y <;> simp_all [encodeWinner, none0, some0]

theorem encodeMap_injective : Function.Injective encodeMap := by
  intro m other h
  refine transport_injective (fun x y hvalue ↦ ?_) (Node.map.inj h)
  exact descriptor2.toValue_injective (Leaf.cell.inj hvalue)

theorem encodeSet_injective : Function.Injective encodeSet :=
  fun _ _ h ↦ transportSet_injective (Node.map.inj h)

theorem encodeCell_injective {α : Type} (descriptor : Descriptor α) :
    Function.Injective (encodeCell descriptor) :=
  fun _ _ h ↦ descriptor.toValue_injective (Leaf.cell.inj (Node.leaf.inj h))

theorem encodeCounter_injective : Function.Injective encodeCounter := by
  intro x y h
  simpa [encodeCounter] using h

/-- A state array is that of one ledger. -/
theorem encode_injective : Function.Injective encode := by
  intro x y h
  have hcells := StateValue.array.inj h
  simp only [encodeCells, List.cons.injEq, (encodeCell_injective _).eq_iff,
    encodeMap_injective.eq_iff, encodeSet_injective.eq_iff, encodeCounter_injective.eq_iff,
    encodeWinner_injective.eq_iff, and_true] at hcells
  grind [Ledger.ext]

/-! ### Programs on an array -/

variable {vm : LedgerVm}

/-- The context after a program. -/
def extend (context : CircuitContext) (state : StateValue) (added : List Op) : CircuitContext where
  state := state
  localState := context.localState
  transcript := context.transcript ++ added

/-- An instruction whose next stack is documented. -/
theorem run_cons_of_next {op : Op} {program : List Op} {stack next : List StateValue}
    {reads : List AlignedValue} (h : op.documented stack = .next next reads) :
    vm.machine.run (op :: program) stack =
      (vm.machine.run program next >>= fun result ↦ .ok (result.1, reads :: result.2)) := by
  have hstep : vm.machine.step op stack = .ok (next, reads) := vm.step_of_next h
  rw [Machine.run, hstep, ok_bind]
  rfl

theorem queryLedgerState_of_run {program : List Op} {context : CircuitContext}
    {next : StateValue} {rest : List StateValue} {reads : List (List AlignedValue)}
    (h : vm.machine.run program (context.state :: vm.beneath) = .ok (next :: rest, reads)) :
    queryLedgerState vm program context =
      .ok (reads.flatten, extend context next (vm.machine.recorded program reads)) := by
  show (vm.machine.run program (context.state :: vm.beneath) >>= _) = _
  rw [h]
  rfl

/-- A program that read the value of one `x` of a type. -/
theorem queryValue_of_run {α : Type} {descriptor : Descriptor α} {x : α} {program : List Op}
    {context : CircuitContext} {next : StateValue} {rest : List StateValue}
    {reads : List (List AlignedValue)}
    (h : vm.machine.run program (context.state :: vm.beneath) = .ok (next :: rest, reads))
    (hreads : reads.flatten = [descriptor.toValue x]) :
    queryValue vm descriptor program context =
      .ok (x, extend context next (vm.machine.recorded program reads)) := by
  have hread : onlyRead descriptor reads.flatten = .ok x := by
    rw [hreads, onlyRead, descriptor.fromValue_toValue]
  show (queryLedgerState vm program context >>= fun result ↦
    (liftM (onlyRead descriptor result.1) : CircuitM α) result.2) = _
  rw [queryLedgerState_of_run h, ok_bind, hread]
  rfl

variable {context : CircuitContext} {items : List Node} {cell : Fin 256}

theorem child_array {item : Node} (hcell : items[cell.val]? = some item) :
    (StateValue.array items).child (cellKey cell) = some (.node item) := by
  simp [StateValue.child, cellKey, descriptor11, compactTypeUnsignedInteger, hcell]

theorem insertChild_array (hcell : cell.val < items.length) (item : Node) :
    (StateValue.array items).insertChild (cellKey cell) (.node item) =
      some (.array (items.set cell item)) := by
  simp [StateValue.insertChild, cellKey, descriptor11, compactTypeUnsignedInteger, hcell]

/-- Reading a cell. -/
theorem queryValue_readCell {α : Type} {descriptor : Descriptor α} {x : α} (cached : Bool)
    (hstate : context.state = .array items)
    (hcell : items[cell.val]? = some (encodeCell descriptor x)) :
    queryValue vm descriptor (readCell cached cell none) context =
      .ok (x, extend context (.array items)
        (readCell cached cell (some (descriptor.toValue x)))) := by
  have hrun : vm.machine.run (readCell cached cell none) (context.state :: vm.beneath) =
      .ok (.array items :: vm.beneath, [[], [], [descriptor.toValue x]]) := by
    rw [hstate, readCell, run_cons_of_next rfl,
      run_cons_of_next (by rw [Op.documented, child_array hcell]; rfl), run_cons_of_next rfl]
    rfl
  exact queryValue_of_run hrun rfl

/-- Asking whether a key is in a map. -/
theorem queryValue_testMember {entries : StateMap} (key : AlignedValue)
    (hstate : context.state = .array items) (hcell : items[cell.val]? = some (.map entries)) :
    queryValue vm descriptor3 (testMember cell key none) context =
      .ok (decide (key ∈ entries), extend context (.array items)
        (testMember cell key (some (descriptor3.toValue (decide (key ∈ entries)))))) := by
  have hrun : vm.machine.run (testMember cell key none) (context.state :: vm.beneath) =
      .ok (.array items :: vm.beneath,
        [[], [], [], [], [descriptor3.toValue (decide (key ∈ entries))]]) := by
    rw [hstate, testMember, run_cons_of_next rfl,
      run_cons_of_next (by rw [Op.documented, child_array hcell]; rfl), run_cons_of_next rfl,
      run_cons_of_next rfl, run_cons_of_next rfl]
    rfl
  exact queryValue_of_run hrun rfl

/-- Reading a map at a key that it has. -/
theorem queryValue_lookupEntry {α : Type} {descriptor : Descriptor α} {x : α} {entries : StateMap}
    {key : AlignedValue} (hstate : context.state = .array items)
    (hcell : items[cell.val]? = some (.map entries))
    (hkey : entries.lookup key = some (.cell (descriptor.toValue x))) :
    queryValue vm descriptor (lookupEntry cell key none) context =
      .ok (x, extend context (.array items)
        (lookupEntry cell key (some (descriptor.toValue x)))) := by
  have hchild : (StateValue.node (.map entries)).child key =
      some (.node (.leaf (.cell (descriptor.toValue x)))) := by
    rw [StateValue.child, hkey]
    rfl
  have hrun : vm.machine.run (lookupEntry cell key none) (context.state :: vm.beneath) =
      .ok (.array items :: vm.beneath, [[], [], [], [descriptor.toValue x]]) := by
    rw [hstate, lookupEntry, run_cons_of_next rfl,
      run_cons_of_next (by rw [Op.documented, child_array hcell]; rfl),
      run_cons_of_next (by rw [Op.documented, hchild]; rfl), run_cons_of_next rfl]
    rfl
  exact queryValue_of_run hrun rfl

/-- Writing a cell. -/
theorem query_writeCell (cell : Fin 256) (item : Node) (hstate : context.state = .array items)
    (hcell : cell.val < items.length) :
    queryLedgerState vm (writeCell cell (.node item)) context =
      .ok ([], extend context (.array (items.set cell item)) (writeCell cell (.node item))) := by
  have hrun : vm.machine.run (writeCell cell (.node item)) (context.state :: vm.beneath) =
      .ok (.array (items.set cell item) :: vm.beneath, [[], [], []]) := by
    rw [hstate, writeCell, run_cons_of_next rfl, run_cons_of_next rfl,
      run_cons_of_next (by rw [newCell, Op.documented, insertChild_array hcell])]
    rfl
  exact queryLedgerState_of_run hrun

/-- Inserting into a map. -/
theorem query_insertEntry {entries : StateMap} (key : AlignedValue) (leaf : Leaf)
    (hstate : context.state = .array items) (hcell : items[cell.val]? = some (.map entries)) :
    queryLedgerState vm (insertEntry cell key (.node (.leaf leaf))) context =
      .ok ([], extend context (.array (items.set cell (.map (entries.insert key leaf))))
        (insertEntry cell key (.node (.leaf leaf)))) := by
  have hlength : cell.val < items.length := (List.getElem?_eq_some_iff.mp hcell).1
  have hinsert : (StateValue.node (.map entries)).insertChild key (.node (.leaf leaf)) =
      some (.node (.map (entries.insert key leaf))) := by
    rw [StateValue.insertChild]
  have hrun : vm.machine.run (insertEntry cell key (.node (.leaf leaf)))
      (context.state :: vm.beneath) =
        .ok (.array (items.set cell (.map (entries.insert key leaf))) :: vm.beneath,
          [[], [], [], [], []]) := by
    rw [hstate, insertEntry,
      run_cons_of_next (by rw [Op.documented, child_array hcell]; rfl), run_cons_of_next rfl,
      run_cons_of_next rfl, run_cons_of_next (by rw [newCell, Op.documented, hinsert]),
      run_cons_of_next (by rw [newCell, Op.documented, insertChild_array hlength])]
    rfl
  exact queryLedgerState_of_run hrun

/-- Incrementing a counter. Assumes: the next count is a 64-bit integer. -/
theorem query_increment (cell : Fin 256) (items : List Node) {count immediate : ℕ}
    (hstate : context.state = .array items)
    (hcell : items[cell.val]? = some (encodeCounter count))
    (hroom : count + immediate < 18446744073709551616) :
    queryLedgerState vm (increment cell immediate) context =
      .ok ([], extend context (.array (items.set cell (encodeCounter (count + immediate))))
        (increment cell immediate)) := by
  have hlength : cell.val < items.length := (List.getElem?_eq_some_iff.mp hcell).1
  have hrun : vm.machine.run (increment cell immediate) (context.state :: vm.beneath) =
      .ok (.array (items.set cell (encodeCounter (count + immediate))) :: vm.beneath,
        [[], [], []]) := by
    rw [hstate, increment, run_cons_of_next (by rw [Op.documented, child_array hcell]; rfl),
      run_cons_of_next (by rw [encodeCounter, Op.documented, if_pos hroom]),
      run_cons_of_next (by rw [newCell, newCell, Op.documented, insertChild_array hlength])]
    rfl
  exact queryLedgerState_of_run hrun

/-! ### Programs on an encoded ledger -/

/-- A running circuit on an encoded ledger. -/
def onLedger (ledger : Ledger) (localState : CircuitLocal) (transcript : List Op) :
    CircuitContext where
  state := encode ledger
  localState := localState
  transcript := transcript

section Accesses

variable (ledger : Ledger) (localState : CircuitLocal) (transcript : List Op)

theorem cell_lt_length {cell : Fin 256} (h : cell.val < 14) :
    cell.val < (encodeCells ledger).length := h

theorem query_phase :
    queryValue vm descriptor1 (readCell false 0 none) (onLedger ledger localState transcript) =
      .ok (ledger.phase, onLedger ledger localState
        (transcript ++ readCell false 0 (some (descriptor1.toValue ledger.phase)))) :=
  queryValue_readCell false rfl rfl

theorem query_auctioneer :
    queryValue vm descriptor2 (readCell false 1 none) (onLedger ledger localState transcript) =
      .ok (ledger.auctioneer, onLedger ledger localState
        (transcript ++ readCell false 1 (some (descriptor2.toValue ledger.auctioneer)))) :=
  queryValue_readCell false rfl rfl

theorem query_reservePrice :
    queryValue vm descriptor0 (readCell false 2 none) (onLedger ledger localState transcript) =
      .ok (ledger.reservePrice, onLedger ledger localState
        (transcript ++ readCell false 2 (some (descriptor0.toValue ledger.reservePrice)))) :=
  queryValue_readCell false rfl rfl

theorem query_highestBid :
    queryValue vm descriptor0 (readCell false 8 none) (onLedger ledger localState transcript) =
      .ok (ledger.highestBid, onLedger ledger localState
        (transcript ++ readCell false 8 (some (descriptor0.toValue ledger.highestBid)))) :=
  queryValue_readCell false rfl rfl

theorem query_highestBidder :
    queryValue vm descriptor2 (readCell false 9 none) (onLedger ledger localState transcript) =
      .ok (ledger.highestBidder, onLedger ledger localState
        (transcript ++ readCell false 9 (some (descriptor2.toValue ledger.highestBidder)))) :=
  queryValue_readCell false rfl rfl

variable {ledger} in
/-- Assumes: the count is a 64-bit integer. -/
theorem query_bidCount {count : Uint64} (h : ledger.bidCount = count.val) :
    queryValue vm descriptor0 (readCell true 12 none) (onLedger ledger localState transcript) =
      .ok (count, onLedger ledger localState
        (transcript ++ readCell true 12 (some (descriptor0.toValue count)))) :=
  queryValue_readCell true rfl (congrArg (fun n ↦ some (encodeCounter n)) h)

variable {ledger} in
/-- Assumes: the count is a 64-bit integer. -/
theorem query_validRevealCount {count : Uint64} (h : ledger.validRevealCount = count.val) :
    queryValue vm descriptor0 (readCell true 13 none) (onLedger ledger localState transcript) =
      .ok (count, onLedger ledger localState
        (transcript ++ readCell true 13 (some (descriptor0.toValue count)))) :=
  queryValue_readCell true rfl (congrArg (fun n ↦ some (encodeCounter n)) h)

theorem query_member_commitments (commitment : Bytes32) :
    queryValue vm descriptor3 (testMember 5 (descriptor2.toValue commitment) none)
        (onLedger ledger localState transcript) =
      .ok (decide (commitment ∈ ledger.commitments), onLedger ledger localState
        (transcript ++ testMember 5 (descriptor2.toValue commitment)
          (some (descriptor3.toValue (decide (commitment ∈ ledger.commitments)))))) := by
  rw [← bytesKey_apply, queryValue_testMember (bytesKey commitment) rfl rfl]
  simp only [mem_transport]
  rfl

theorem query_member_bidderCommitment (bidder : Bytes32) :
    queryValue vm descriptor3 (testMember 6 (descriptor2.toValue bidder) none)
        (onLedger ledger localState transcript) =
      .ok (decide (bidder ∈ ledger.bidderCommitment), onLedger ledger localState
        (transcript ++ testMember 6 (descriptor2.toValue bidder)
          (some (descriptor3.toValue (decide (bidder ∈ ledger.bidderCommitment)))))) := by
  rw [← bytesKey_apply, queryValue_testMember (bytesKey bidder) rfl rfl]
  simp only [mem_transport]
  rfl

theorem query_member_revealedCommitments (commitment : Bytes32) :
    queryValue vm descriptor3 (testMember 7 (descriptor2.toValue commitment) none)
        (onLedger ledger localState transcript) =
      .ok (decide (commitment ∈ ledger.revealedCommitments), onLedger ledger localState
        (transcript ++ testMember 7 (descriptor2.toValue commitment)
          (some (descriptor3.toValue (decide (commitment ∈ ledger.revealedCommitments)))))) := by
  rw [← bytesKey_apply, queryValue_testMember (bytesKey commitment) rfl rfl]
  simp only [mem_transportSet]
  rfl

variable {ledger} in
theorem query_lookup_bidderCommitment {bidder commitment : Bytes32}
    (h : ledger.bidderCommitment.lookup bidder = some commitment) :
    queryValue vm descriptor2 (lookupEntry 6 (descriptor2.toValue bidder) none)
        (onLedger ledger localState transcript) =
      .ok (commitment, onLedger ledger localState
        (transcript ++ lookupEntry 6 (descriptor2.toValue bidder)
          (some (descriptor2.toValue commitment)))) := by
  have hkey : (transport bytesKey encodeEntry ledger.bidderCommitment).lookup (bytesKey bidder) =
        some (.cell (descriptor2.toValue commitment)) := by
    rw [lookup_transport, h]
    rfl
  exact queryValue_lookupEntry rfl rfl hkey

theorem query_write_phase (phase : Phase) :
    queryLedgerState vm (writeCell 0 (newCell (descriptor1.toValue phase)))
        (onLedger ledger localState transcript) =
      .ok ([], onLedger { ledger with phase := phase } localState
        (transcript ++ writeCell 0 (newCell (descriptor1.toValue phase)))) :=
  query_writeCell 0 (encodeCell descriptor1 phase) rfl (cell_lt_length ledger (by decide))

theorem query_write_auctioneer (auctioneer : Bytes32) :
    queryLedgerState vm (writeCell 1 (newCell (descriptor2.toValue auctioneer)))
        (onLedger ledger localState transcript) =
      .ok ([], onLedger { ledger with auctioneer := auctioneer } localState
        (transcript ++ writeCell 1 (newCell (descriptor2.toValue auctioneer)))) :=
  query_writeCell 1 (encodeCell descriptor2 auctioneer) rfl (cell_lt_length ledger (by decide))

theorem query_write_reservePrice (reservePrice : Uint64) :
    queryLedgerState vm (writeCell 2 (newCell (descriptor0.toValue reservePrice)))
        (onLedger ledger localState transcript) =
      .ok ([], onLedger { ledger with reservePrice := reservePrice } localState
        (transcript ++ writeCell 2 (newCell (descriptor0.toValue reservePrice)))) :=
  query_writeCell 2 (encodeCell descriptor0 reservePrice) rfl (cell_lt_length ledger (by decide))

theorem query_write_bidDeadline (bidDeadline : Uint64) :
    queryLedgerState vm (writeCell 3 (newCell (descriptor0.toValue bidDeadline)))
        (onLedger ledger localState transcript) =
      .ok ([], onLedger { ledger with bidDeadline := bidDeadline } localState
        (transcript ++ writeCell 3 (newCell (descriptor0.toValue bidDeadline)))) :=
  query_writeCell 3 (encodeCell descriptor0 bidDeadline) rfl (cell_lt_length ledger (by decide))

theorem query_write_revealDeadline (revealDeadline : Uint64) :
    queryLedgerState vm (writeCell 4 (newCell (descriptor0.toValue revealDeadline)))
        (onLedger ledger localState transcript) =
      .ok ([], onLedger { ledger with revealDeadline := revealDeadline } localState
        (transcript ++ writeCell 4 (newCell (descriptor0.toValue revealDeadline)))) :=
  query_writeCell 4 (encodeCell descriptor0 revealDeadline) rfl (cell_lt_length ledger (by decide))

theorem query_write_highestBid (amount : Uint64) :
    queryLedgerState vm (writeCell 8 (newCell (descriptor0.toValue amount)))
        (onLedger ledger localState transcript) =
      .ok ([], onLedger { ledger with highestBid := amount } localState
        (transcript ++ writeCell 8 (newCell (descriptor0.toValue amount)))) :=
  query_writeCell 8 (encodeCell descriptor0 amount) rfl (cell_lt_length ledger (by decide))

theorem query_write_highestBidder (bidder : Bytes32) :
    queryLedgerState vm (writeCell 9 (newCell (descriptor2.toValue bidder)))
        (onLedger ledger localState transcript) =
      .ok ([], onLedger { ledger with highestBidder := bidder } localState
        (transcript ++ writeCell 9 (newCell (descriptor2.toValue bidder)))) :=
  query_writeCell 9 (encodeCell descriptor2 bidder) rfl (cell_lt_length ledger (by decide))

theorem query_write_winner (winner : Option Bytes32) :
    queryLedgerState vm (writeCell 10 (newCell (descriptor5.toValue (encodeWinner winner))))
        (onLedger ledger localState transcript) =
      .ok ([], onLedger { ledger with winner := winner } localState
        (transcript ++ writeCell 10 (newCell (descriptor5.toValue (encodeWinner winner))))) :=
  query_writeCell 10 (encodeCell descriptor5 (encodeWinner winner)) rfl
    (cell_lt_length ledger (by decide))

theorem query_write_winningAmount (amount : Uint64) :
    queryLedgerState vm (writeCell 11 (newCell (descriptor0.toValue amount)))
        (onLedger ledger localState transcript) =
      .ok ([], onLedger { ledger with winningAmount := amount } localState
        (transcript ++ writeCell 11 (newCell (descriptor0.toValue amount)))) :=
  query_writeCell 11 (encodeCell descriptor0 amount) rfl (cell_lt_length ledger (by decide))

theorem query_insert_commitments (commitment bidder : Bytes32) :
    queryLedgerState vm
        (insertEntry 5 (descriptor2.toValue commitment) (newCell (descriptor2.toValue bidder)))
        (onLedger ledger localState transcript) =
      .ok ([], onLedger
        { ledger with commitments := ledger.commitments.insert commitment bidder } localState
        (transcript ++ insertEntry 5 (descriptor2.toValue commitment)
          (newCell (descriptor2.toValue bidder)))) := by
  refine (query_insertEntry (bytesKey commitment) (encodeEntry bidder) rfl rfl).trans ?_
  rw [← transport_insert]
  rfl

theorem query_insert_bidderCommitment (bidder commitment : Bytes32) :
    queryLedgerState vm
        (insertEntry 6 (descriptor2.toValue bidder) (newCell (descriptor2.toValue commitment)))
        (onLedger ledger localState transcript) =
      .ok ([], onLedger
        { ledger with bidderCommitment := ledger.bidderCommitment.insert bidder commitment }
        localState
        (transcript ++ insertEntry 6 (descriptor2.toValue bidder)
          (newCell (descriptor2.toValue commitment)))) := by
  refine (query_insertEntry (bytesKey bidder) (encodeEntry commitment) rfl rfl).trans ?_
  rw [← transport_insert]
  rfl

theorem query_insert_revealedCommitments (commitment : Bytes32) :
    queryLedgerState vm (insertEntry 7 (descriptor2.toValue commitment) newNull)
        (onLedger ledger localState transcript) =
      .ok ([], onLedger
        { ledger with revealedCommitments := insert commitment ledger.revealedCommitments }
        localState
        (transcript ++ insertEntry 7 (descriptor2.toValue commitment) newNull)) := by
  refine (query_insertEntry (bytesKey commitment) .null rfl rfl).trans ?_
  rw [← transportSet_insert]
  rfl

variable {ledger}

/-- Assumes: the next count is a 64-bit integer. -/
theorem query_increment_bidCount (h : ledger.bidCount + 1 < 18446744073709551616) :
    queryLedgerState vm (increment 12 1) (onLedger ledger localState transcript) =
      .ok ([], onLedger { ledger with bidCount := ledger.bidCount + 1 } localState
        (transcript ++ increment 12 1)) :=
  query_increment 12 (encodeCells ledger) rfl rfl h

/-- Assumes: the next count is a 64-bit integer. -/
theorem query_increment_validRevealCount
    (h : ledger.validRevealCount + 1 < 18446744073709551616) :
    queryLedgerState vm (increment 13 1) (onLedger ledger localState transcript) =
      .ok ([], onLedger { ledger with validRevealCount := ledger.validRevealCount + 1 } localState
        (transcript ++ increment 13 1)) :=
  query_increment 13 (encodeCells ledger) rfl rfl h

end Accesses

end SealedBid.Compiled
