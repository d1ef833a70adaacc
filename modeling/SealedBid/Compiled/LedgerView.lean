import SealedBid.Auction.LedgerConsistency
import SealedBid.Compiled.Refinement
import Mathlib.Data.Finset.Sort
import Mathlib.Data.List.Lex
import Mathlib.Data.Prod.Lex
import Mathlib.Data.Set.List

/-!
# The view of a contract state

What `ledger(state)` of the compiled contract returns: getters for the cells of the state array, and
for each map whether it is empty, its size, whether it has a key, what it has there, and an iterator
over its entries. The getters hand programs to the ledger machine, the iterators walk the map
itself. All maps answer by the same programs, so they are one definition with the cell as a
parameter (`mapView`, `setView`, `iterateMap`).

A view of the state array of a ledger shows that ledger (`shown_encode`): every getter returns the
value of its cell and leaves the view as it is, so it answers alike however often and in whatever
order it is asked, and the iterators list the maps.

Scope. The counts and the sizes must be 64-bit integers (`Fits`), as they are after every run of
fewer than `2^64` calls (`fits_of_run`). A lookup at a key that the map does not
have is left open: the documentation of `idx` does not say what it does there. The checks of the
number and the types of the arguments are those of the types here.
-/

set_option autoImplicit false
set_option relaxedAutoImplicit false

namespace SealedBid.Compiled

open RecordedPrograms FailSafeRun MapTransport MapEnumeration

/-! ### Programs -/

/-- The program that reads the size of the map of a cell. -/
def readSize (cell : Fin 256) (result : Option AlignedValue) : List Op :=
  [.dup 0, .idx false false [cellKey cell], .size, .popeq true result]

/-- The program that asks whether the map of a cell is empty. -/
def testEmpty (cell : Fin 256) (result : Option AlignedValue) : List Op :=
  [.dup 0, .idx false false [cellKey cell], .size, .push false (newCell (descriptor0.toValue 0)),
    .eq, .popeq true result]

/-! ### Getters -/

/-- The view of a set. -/
structure SetView where
  isEmpty : CircuitM Bool
  size : CircuitM Uint64
  member : Bytes32 → CircuitM Bool

/-- The view of a map. -/
structure MapView extends SetView where
  lookup : Bytes32 → CircuitM Bytes32

/-- The view of a contract state, without its iterators. -/
structure LedgerView where
  phase : CircuitM Phase
  auctioneer : CircuitM Bytes32
  reservePrice : CircuitM Uint64
  bidDeadline : CircuitM Uint64
  revealDeadline : CircuitM Uint64
  commitments : MapView
  bidderCommitment : MapView
  revealedCommitments : SetView
  highestBid : CircuitM Uint64
  highestBidder : CircuitM Bytes32
  winner : CircuitM Maybe
  winningAmount : CircuitM Uint64
  bidCount : CircuitM Uint64
  validRevealCount : CircuitM Uint64

variable (vm : LedgerVm)

/-- What the view asks the set of a cell. -/
def setView (cell : Fin 256) : SetView where
  isEmpty := queryValue vm descriptor3 (testEmpty cell none)
  size := queryValue vm descriptor0 (readSize cell none)
  member elem := queryValue vm descriptor3 (testMember cell (descriptor2.toValue elem) none)

/-- What the view asks the map of a cell. -/
def mapView (cell : Fin 256) : MapView where
  toSetView := setView vm cell
  lookup key := queryValue vm descriptor2 (lookupEntry cell (descriptor2.toValue key) none)

/-- `ledger(state)`, as it runs in the context of the view. -/
def ledgerView : LedgerView where
  phase := queryValue vm descriptor1 (readCell false 0 none)
  auctioneer := queryValue vm descriptor2 (readCell false 1 none)
  reservePrice := queryValue vm descriptor0 (readCell false 2 none)
  bidDeadline := queryValue vm descriptor0 (readCell false 3 none)
  revealDeadline := queryValue vm descriptor0 (readCell false 4 none)
  commitments := mapView vm 5
  bidderCommitment := mapView vm 6
  revealedCommitments := setView vm 7
  highestBid := queryValue vm descriptor0 (readCell false 8 none)
  highestBidder := queryValue vm descriptor2 (readCell false 9 none)
  winner := queryValue vm descriptor5 (readCell false 10 none)
  winningAmount := queryValue vm descriptor0 (readCell false 11 none)
  bidCount := queryValue vm descriptor0 (readCell true 12 none)
  validRevealCount := queryValue vm descriptor0 (readCell true 13 none)

/-- Something asked of a view of a state: the context of the view starts from the state. -/
def ask {α : Type} (question : CircuitM α) (state : StateValue) : Except String α :=
  (question ⟨state, ⟨⟨zeroBytes⟩, []⟩, []⟩).map Prod.fst

theorem ask_of_reads {α : Type} {question : CircuitM α} {state : StateValue} {x : α}
    (h : Reads question state x) : ask question state = .ok x := by
  obtain ⟨added, hcall⟩ := h ⟨state, ⟨⟨zeroBytes⟩, []⟩, []⟩ rfl
  rw [ask, hcall]
  rfl

/-! ### Iterators -/

/-- The order in which the runtime lists the keys of a map. -/
structure KeyOrder where
  keys : StateMap → List AlignedValue
  keys_perm : ∀ entries, (keys entries : Multiset AlignedValue) = entries.keys.val

/-- Atoms in the order of their lengths and values. -/
@[reducible] def atomOrder : LinearOrder Atom :=
  LinearOrder.lift' (fun atom : Atom ↦ toLex (atom.length, atom.value)) fun x y h ↦ by
    cases x
    cases y
    cases h
    rfl

/-- The keys in ascending order. -/
def sortedKeys : KeyOrder where
  keys entries := letI := atomOrder; entries.keys.sort
  keys_perm entries := letI := atomOrder; Finset.sort_eq entries.keys _

/-- `state.asArray()[cell].asMap()`. -/
def mapAt (state : StateValue) (cell : ℕ) : Option StateMap :=
  match state with
  | .array items =>
    match items[cell]? with
    | some (.map entries) => some entries
    | _ => none
  | .node _ => none

/-- `asCell()`. -/
def Leaf.asCell : Leaf → Option AlignedValue
  | .null => none
  | .cell value => some value

/-- The iterator over the entries of the map of a cell. -/
def iterateMap (order : KeyOrder) (state : StateValue) (cell : ℕ) :
    Option (List (Bytes32 × Bytes32)) := do
  let self ← mapAt state cell
  (order.keys self).mapM fun key ↦ do
    let value ← (← self.lookup key).asCell
    return (← descriptor2.fromValue key, ← descriptor2.fromValue value)

/-- The iterator over the members of the set of a cell. -/
def iterateSet (order : KeyOrder) (state : StateValue) (cell : ℕ) : Option (List Bytes32) := do
  let self ← mapAt state cell
  (order.keys self).mapM descriptor2.fromValue

/-! ### What a view shows -/

/-- The counts and the sizes of a ledger are 64-bit integers. -/
structure Fits (ledger : Ledger) : Prop where
  bidCount_lt : ledger.bidCount < 18446744073709551616
  validRevealCount_lt : ledger.validRevealCount < 18446744073709551616
  commitments_lt : ledger.commitments.keys.card < 18446744073709551616
  bidderCommitment_lt : ledger.bidderCommitment.keys.card < 18446744073709551616
  revealedCommitments_lt : ledger.revealedCommitments.card < 18446744073709551616

/-- Assumes: fewer than `2^64` calls. -/
theorem fits_of_run {persistentHash : PersistentHash} {sk : Bytes32}
    {reserve bidEnd revealEnd : Uint64} {initial : Ledger}
    (h : constructor persistentHash sk reserve bidEnd revealEnd = .ok initial) (calls : List Call)
    (hlength : calls.length < 18446744073709551616) :
    Fits (run (exec persistentHash) initial calls) := by
  obtain ⟨record, hrecord, -⟩ := exists_represents_run h calls
  have hconsistent := hrecord.consistent
  have hroom : Room (0 + calls.length) initial := room_of_constructor h (by omega)
  obtain ⟨hbids, hreveals⟩ := (run_encode referenceVm hroom).2
  have hrevealed := hconsistent.card_revealed_le
  constructor
  · exact hbids
  · exact hreveals
  · rw [hconsistent.card_commitments]
    exact hbids
  · rw [hconsistent.card_bidderCommitment]
    exact hbids
  · exact lt_of_le_of_lt hrevealed hbids

/-- A set view shows a set of keys. -/
structure SetView.Shows (view : SetView) (state : StateValue) (keys : Finset Bytes32) : Prop where
  isEmpty : Reads view.isEmpty state (decide (keys = ∅))
  size : Reads view.size state (Fin.ofNat 18446744073709551616 keys.card)
  member : ∀ elem, Reads (view.member elem) state (decide (elem ∈ keys))

/-- A map view shows a map; what it answers at a key that the map does not have is left open. -/
structure MapView.Shows (view : MapView) (state : StateValue) (entries : BytesMap) : Prop where
  toSetView : view.toSetView.Shows state entries.keys
  lookup : ∀ key value, entries.lookup key = some value → Reads (view.lookup key) state value

/-- A view of a state shows a ledger. -/
structure LedgerView.Shows (view : LedgerView) (state : StateValue) (ledger : Ledger) : Prop where
  phase : Reads view.phase state ledger.phase
  auctioneer : Reads view.auctioneer state ledger.auctioneer
  reservePrice : Reads view.reservePrice state ledger.reservePrice
  bidDeadline : Reads view.bidDeadline state ledger.bidDeadline
  revealDeadline : Reads view.revealDeadline state ledger.revealDeadline
  commitments : view.commitments.Shows state ledger.commitments
  bidderCommitment : view.bidderCommitment.Shows state ledger.bidderCommitment
  revealedCommitments : view.revealedCommitments.Shows state ledger.revealedCommitments
  highestBid : Reads view.highestBid state ledger.highestBid
  highestBidder : Reads view.highestBidder state ledger.highestBidder
  winner : Reads view.winner state (encodeWinner ledger.winner)
  winningAmount : Reads view.winningAmount state ledger.winningAmount
  bidCount : Reads view.bidCount state (Fin.ofNat 18446744073709551616 ledger.bidCount)
  validRevealCount :
    Reads view.validRevealCount state (Fin.ofNat 18446744073709551616 ledger.validRevealCount)

/-- The view of a state and its iterators show a ledger. -/
structure Shown (order : KeyOrder) (state : StateValue) (ledger : Ledger) : Prop where
  view : (ledgerView vm).Shows state ledger
  commitments :
    ∃ entries, iterateMap order state 5 = some entries ∧ Enumerates ledger.commitments entries
  bidderCommitment :
    ∃ entries, iterateMap order state 6 = some entries ∧ Enumerates ledger.bidderCommitment entries
  revealedCommitments :
    ∃ members, iterateSet order state 7 = some members ∧ members.Nodup ∧
      members.toFinset = ledger.revealedCommitments

variable {vm}

theorem val_ofNat {n : ℕ} (h : n < 18446744073709551616) :
    n = (Fin.ofNat 18446744073709551616 n).val :=
  (Nat.mod_eq_of_lt h).symm

/-- Reading a cell of an array. -/
theorem reads_readCell {α : Type} {descriptor : Descriptor α} {x : α} {items : List Node}
    {cached : Bool} {cell : Fin 256} (hcell : items[cell.val]? = some (encodeCell descriptor x)) :
    Reads (queryValue vm descriptor (readCell cached cell none)) (.array items) x := by
  rintro ⟨_, localState, transcript⟩ rfl
  exact ⟨_, queryValue_readCell cached rfl hcell⟩

section Maps

variable {items : List Node} {cell : Fin 256} {entries : StateMap}

/-- Reading the size of a map. -/
theorem reads_size (hcell : items[cell.val]? = some (.map entries))
    (hsize : entries.keys.card < 18446744073709551616) :
    Reads (setView vm cell).size (.array items)
      (Fin.ofNat 18446744073709551616 entries.keys.card) := by
  rintro ⟨_, localState, transcript⟩ rfl
  have hrun : vm.machine.run (readSize cell none) (.array items :: vm.beneath) =
      .ok (.array items :: vm.beneath, [[], [], [], [[⟨8, entries.keys.card⟩]]]) := by
    rw [readSize, run_cons_of_next rfl,
      run_cons_of_next (by rw [Op.documented, child_array hcell]; rfl), run_cons_of_next rfl,
      run_cons_of_next rfl]
    rfl
  refine ⟨_, queryValue_of_run hrun ?_⟩
  show [[(⟨8, entries.keys.card⟩ : Atom)]] = [[⟨8, (Fin.ofNat _ entries.keys.card).val⟩]]
  rw [← val_ofNat hsize]

/-- Asking whether a map is empty. -/
theorem reads_isEmpty (hcell : items[cell.val]? = some (.map entries)) :
    Reads (setView vm cell).isEmpty (.array items) (decide (entries.keys.card = 0)) := by
  rintro ⟨_, localState, transcript⟩ rfl
  have hrun : vm.machine.run (testEmpty cell none) (.array items :: vm.beneath) =
      .ok (.array items :: vm.beneath, [[], [], [], [], [], [descriptor3.toValue
        (decide (descriptor0.toValue 0 = [⟨8, entries.keys.card⟩]))]]) := by
    rw [testEmpty, run_cons_of_next rfl,
      run_cons_of_next (by rw [Op.documented, child_array hcell]; rfl), run_cons_of_next rfl,
      run_cons_of_next rfl, run_cons_of_next rfl, run_cons_of_next rfl]
    rfl
  have hzero : descriptor0.toValue 0 = [⟨8, entries.keys.card⟩] ↔ entries.keys.card = 0 := by
    constructor
    · intro hvalue
      exact (congrArg Atom.value (List.cons.inj hvalue).1).symm
    · intro hvalue
      rw [hvalue]
      rfl
  refine ⟨_, queryValue_of_run hrun ?_⟩
  simp only [hzero]
  rfl

/-- Asking whether a map has a key. -/
theorem reads_member (hcell : items[cell.val]? = some (.map entries)) (key : Bytes32) :
    Reads ((setView vm cell).member key) (.array items) (decide (bytesKey key ∈ entries)) := by
  rintro ⟨_, localState, transcript⟩ rfl
  exact ⟨_, queryValue_testMember (bytesKey key) rfl hcell⟩

/-- Reading a map at a key that it has. -/
theorem reads_lookup {key value : Bytes32} (hcell : items[cell.val]? = some (.map entries))
    (hkey : entries.lookup (bytesKey key) = some (encodeEntry value)) :
    Reads ((mapView vm cell).lookup key) (.array items) value := by
  rintro ⟨_, localState, transcript⟩ rfl
  exact ⟨_, queryValue_lookupEntry rfl hcell hkey⟩

/-- A set view of the cell of a set shows the set. -/
theorem setView_shows {s : Finset Bytes32} (hcell : items[cell.val]? = some (encodeSet s))
    (hsize : s.card < 18446744073709551616) : (setView vm cell).Shows (.array items) s where
  isEmpty := by
    have hread := @reads_isEmpty vm _ _ _ hcell
    simpa only [card_keys_transportSet, Finset.card_eq_zero] using hread
  size := by
    have hread := @reads_size vm _ _ _ hcell
    simp only [card_keys_transportSet] at hread
    exact hread hsize
  member elem := by
    have hread := @reads_member vm _ _ _ hcell elem
    simpa only [mem_transportSet] using hread

/-- A map view of the cell of a map shows the map. -/
theorem mapView_shows {m : BytesMap} (hcell : items[cell.val]? = some (encodeMap m))
    (hsize : m.keys.card < 18446744073709551616) : (mapView vm cell).Shows (.array items) m where
  toSetView := {
    isEmpty := by
      have hread := @reads_isEmpty vm _ _ _ hcell
      simp only [card_keys_transport, Finset.card_eq_zero] at hread
      exact hread
    size := by
      have hread := @reads_size vm _ _ _ hcell
      simp only [card_keys_transport] at hread
      exact hread hsize
    member := fun elem ↦ by
      have hread := @reads_member vm _ _ _ hcell elem
      simp only [mem_transport] at hread
      simp only [Finmap.mem_keys]
      exact hread }
  lookup key value hvalue := by
    refine reads_lookup hcell ?_
    rw [lookup_transport, hvalue]
    rfl

end Maps

/-- Assumes: the counts and sizes are 64-bit integers. -/
theorem ledgerView_shows {ledger : Ledger} (hfits : Fits ledger) :
    (ledgerView vm).Shows (encode ledger) ledger where
  phase := reads_readCell rfl
  auctioneer := reads_readCell rfl
  reservePrice := reads_readCell rfl
  bidDeadline := reads_readCell rfl
  revealDeadline := reads_readCell rfl
  commitments := mapView_shows rfl hfits.commitments_lt
  bidderCommitment := mapView_shows rfl hfits.bidderCommitment_lt
  revealedCommitments := setView_shows rfl hfits.revealedCommitments_lt
  highestBid := reads_readCell rfl
  highestBidder := reads_readCell rfl
  winner := reads_readCell rfl
  winningAmount := reads_readCell rfl
  bidCount :=
    reads_readCell (congrArg (fun n ↦ some (encodeCounter n)) (val_ofNat hfits.bidCount_lt))
  validRevealCount :=
    reads_readCell (congrArg (fun n ↦ some (encodeCounter n)) (val_ofNat hfits.validRevealCount_lt))

/-! ### What the iterators list -/

theorem mapM_eq_some_map {α β : Type} {f : α → Option β} {g : α → β} {items : List α}
    (h : ∀ item ∈ items, f item = some (g item)) : items.mapM f = some (items.map g) := by
  induction items with
  | nil => rfl
  | cons item items ih =>
    obtain ⟨hitem, hitems⟩ := List.forall_mem_cons.mp h
    rw [List.mapM_cons, hitem, ih hitems]
    rfl

/-- The keys of a map of the ledger, as the runtime lists them. -/
theorem exists_keys (order : KeyOrder) {entries : StateMap}
    (hrange : ∀ key' ∈ entries, ∃ key, bytesKey key = key') :
    ∃ keys : List Bytes32, keys.Nodup ∧ order.keys entries = keys.map bytesKey ∧
      ∀ key, bytesKey key ∈ entries ↔ key ∈ keys := by
  have hmem : ∀ key', key' ∈ order.keys entries ↔ key' ∈ entries := by
    intro key'
    rw [← Multiset.mem_coe, order.keys_perm, Finset.mem_val, Finmap.mem_keys]
  have hkeys : order.keys entries ∈ Set.range (List.map bytesKey) := by
    rw [Set.range_list_map]
    exact fun key' hkey' ↦ hrange key' ((hmem key').mp hkey')
  obtain ⟨keys, hkeys⟩ := hkeys
  refine ⟨keys, ?_, hkeys.symm, ?_⟩
  · apply List.Nodup.of_map bytesKey
    rw [hkeys, ← Multiset.coe_nodup, order.keys_perm]
    exact entries.keys.nodup
  · intro key
    rw [← hmem, ← hkeys, List.mem_map_of_injective bytesKey.injective]

/-- The iterator over a map lists the map. -/
theorem iterateMap_eq (order : KeyOrder) {state : StateValue} {cell : ℕ} {m : BytesMap}
    (hcell : mapAt state cell = some (transport bytesKey encodeEntry m)) :
    ∃ entries, iterateMap order state cell = some entries ∧ Enumerates m entries := by
  obtain ⟨keys, hnodup, hkeys, hmem⟩ := @exists_keys order (transport bytesKey encodeEntry m) (by
    intro key' hkey'
    obtain ⟨value', hvalue'⟩ := Finmap.mem_iff.mp hkey'
    obtain ⟨key, value, -, hkey, -⟩ := lookup_transport_eq_some_iff.mp hvalue'
    exact ⟨key, hkey⟩)
  simp only [mem_transport] at hmem
  have hvalue : ∀ key ∈ keys, m.lookup key = some ((m.lookup key).getD zeroBytes) := by
    intro key hkey
    obtain ⟨value, hlookup⟩ := Finmap.mem_iff.mp ((hmem key).mpr hkey)
    rw [hlookup]
    rfl
  refine ⟨_, ?_, enumerates_map hnodup hmem hvalue⟩
  rw [iterateMap, hcell, Option.bind_eq_bind, Option.bind_some, hkeys, List.mapM_map]
  refine mapM_eq_some_map fun key hkey ↦ ?_
  rw [Function.comp_apply, lookup_transport, hvalue key hkey]
  simp [encodeEntry, Leaf.asCell, descriptor2.fromValue_toValue]

/-- The iterator over a set lists the set. -/
theorem iterateSet_eq (order : KeyOrder) {state : StateValue} {cell : ℕ} {s : Finset Bytes32}
    (hcell : mapAt state cell = some (transportSet bytesKey .null s)) :
    ∃ members, iterateSet order state cell = some members ∧ members.Nodup ∧
      members.toFinset = s := by
  obtain ⟨keys, hnodup, hkeys, hmem⟩ := @exists_keys order (transportSet bytesKey .null s) (by
    intro key' hkey'
    obtain ⟨value', hvalue'⟩ := Finmap.mem_iff.mp hkey'
    obtain ⟨⟨key, -, hkey⟩, -⟩ := lookup_transportSet_eq_some_iff.mp hvalue'
    exact ⟨key, hkey⟩)
  simp only [mem_transportSet] at hmem
  refine ⟨keys, ?_, hnodup, by ext key; rw [List.mem_toFinset, hmem]⟩
  rw [iterateSet, hcell, Option.bind_eq_bind, Option.bind_some, hkeys, List.mapM_map]
  have hread : ∀ key ∈ keys, (descriptor2.fromValue ∘ bytesKey) key = some (id key) :=
    fun key _ ↦ descriptor2.fromValue_toValue key
  rw [mapM_eq_some_map hread, List.map_id]

/-- **The view of the state array of a ledger shows the ledger.** Assumes: the counts and the sizes
are 64-bit integers. -/
theorem shown_encode (order : KeyOrder) {ledger : Ledger} (hfits : Fits ledger) :
    Shown vm order (encode ledger) ledger where
  view := ledgerView_shows hfits
  commitments := iterateMap_eq order rfl
  bidderCommitment := iterateMap_eq order rfl
  revealedCommitments := iterateSet_eq order rfl

end SealedBid.Compiled
