import SealedBid.Foundation.KeyedLog
import SealedBid.Foundation.NumberValues

/-!
# The unshielded history of an address

The ledger side of the funding check in `funding.ts`: the events of an address's unshielded
history, their fold into a ledger state (`applyUnshieldedEvent`) and the answer read off that state
(`toUnshieldedBalance`).

The fold computes the unspent outputs. In a history in which every NIGHT output of the address is
created once and spent at most once, after its creation and with the value it was created with
(`WellFormedHistory`), the unspent map holds exactly the outputs created and not spent, the balance
is what was created less what was spent, and outputs of others and progress markers are without
effect (`unspent_outputs_of_history`). The map is a store kept by a log of puts and removals
(`storeLog`), and its keys tell outputs apart (`utxoKey_inj`).

Scope. Counts of transactions and outputs are exact natural numbers. The unspent map is an
association list with distinct keys; its order is not observed.
-/

set_option autoImplicit false
set_option relaxedAutoImplicit false

namespace SealedBid

open KeyedLog

/-! ### Events and state -/

/-- The all-zero token type, of the native token. -/
def NIGHT_TOKEN_TYPE : String := String.ofList (List.replicate 64 '0')

/-- An unshielded token output, as the indexer reports it. -/
structure UnshieldedUtxo where
  owner : String
  tokenType : String
  value : ℤ
  outputIndex : Number
  intentHash : String
  deriving DecidableEq

/-- A NIGHT output credited to the watched address. -/
structure UnshieldedCredit where
  value : ℤ
  transactionId : Number
  hash : String
  timestamp : Number
  deriving DecidableEq

/-- A transaction of the history. -/
structure UnshieldedTransaction where
  transactionId : Number
  hash : String
  timestamp : Number
  created : List UnshieldedUtxo
  spent : List UnshieldedUtxo
  deriving DecidableEq

/-- One message from the `unshieldedTransactions` subscription. -/
inductive UnshieldedEvent
  | transaction (transaction : UnshieldedTransaction)
  | progress (highestTransactionId : Number)
  deriving DecidableEq

/-- Fold state while an address's unshielded history is replayed. -/
structure UnshieldedLedgerState where
  unspent : AList fun _ : String ↦ UnshieldedUtxo
  created : ℤ
  spent : ℤ
  credits : List UnshieldedCredit
  transactionsSeen : ℕ
  highestTransactionId : Number
  lastTransactionId : Number

/-- The answer to "is this address funded?". -/
structure UnshieldedBalance where
  address : String
  balance : ℤ
  created : ℤ
  spent : ℤ
  unspentOutputs : ℕ
  credits : List UnshieldedCredit
  transactionsSeen : ℕ
  highestTransactionId : Number
  caughtUp : Bool
  tipHeight : Option Number
  deriving DecidableEq

/-! ### The fold -/

/-- An output is identified by the intent that created it plus its index. -/
def utxoKey (utxo : UnshieldedUtxo) : String :=
  utxo.intentHash ++ ":" ++ utxo.outputIndex.toString

def isNightUtxo (utxo : UnshieldedUtxo) (address : String) : Bool :=
  utxo.owner = address ∧ utxo.tokenType = NIGHT_TOKEN_TYPE

def emptyLedgerState : UnshieldedLedgerState where
  unspent := ∅
  created := 0
  spent := 0
  credits := []
  transactionsSeen := 0
  highestTransactionId := .zero
  lastTransactionId := .zero

/-- The first loop of `applyUnshieldedEvent`, for one created output. -/
def creditOutput (event : UnshieldedTransaction) (address : String)
    (state : UnshieldedLedgerState) (utxo : UnshieldedUtxo) : UnshieldedLedgerState :=
  if ¬ isNightUtxo utxo address then state
  else { state with
    unspent := state.unspent.insert (utxoKey utxo) utxo
    created := state.created + utxo.value
    credits := state.credits ++ [⟨utxo.value, event.transactionId, event.hash, event.timestamp⟩] }

/-- The second loop of `applyUnshieldedEvent`, for one spent output. -/
def debitOutput (address : String) (state : UnshieldedLedgerState) (utxo : UnshieldedUtxo) :
    UnshieldedLedgerState :=
  if ¬ isNightUtxo utxo address then state
  else { state with
    unspent := state.unspent.erase (utxoKey utxo)
    spent := state.spent + utxo.value }

/-- Fold one subscription message into the address's ledger state. -/
def applyUnshieldedEvent (state : UnshieldedLedgerState) (event : UnshieldedEvent)
    (address : String) : UnshieldedLedgerState :=
  match event with
  | .progress highest =>
    if highest.le state.highestTransactionId then state
    else { state with highestTransactionId := highest }
  | .transaction event =>
    let credited := event.created.foldl (creditOutput event address) state
    let debited := event.spent.foldl (debitOutput address) credited
    { debited with
      transactionsSeen := state.transactionsSeen + 1
      lastTransactionId := state.lastTransactionId.max event.transactionId }

/-- The ledger state after a list of events. -/
def foldHistory (address : String) (events : List UnshieldedEvent) : UnshieldedLedgerState :=
  events.foldl (fun state event ↦ applyUnshieldedEvent state event address) emptyLedgerState

/-- Turn folded state into the reported answer. -/
def toUnshieldedBalance (state : UnshieldedLedgerState) (address : String)
    (tipHeight : Option Number) (caughtUp : Bool) : UnshieldedBalance where
  address := address
  balance := (state.unspent.entries.map fun entry ↦ entry.2.value).sum
  created := state.created
  spent := state.spent
  unspentOutputs := state.unspent.entries.length
  credits := state.credits
  transactionsSeen := state.transactionsSeen
  highestTransactionId := state.highestTransactionId
  caughtUp := caughtUp
  tipHeight := tipHeight

/-! ### Outputs are told apart by their keys -/

/-- Two outputs have one key exactly when they have the same intent and the same index. -/
theorem utxoKey_inj (utxo other : UnshieldedUtxo) :
    utxoKey utxo = utxoKey other ↔
      utxo.intentHash = other.intentHash ∧ utxo.outputIndex = other.outputIndex := by
  constructor
  · intro h
    have hlist := congrArg String.toList h
    simp only [utxoKey, String.toList_append, List.append_assoc] at hlist
    obtain ⟨hintent, hindex⟩ := append_separator_inj (Number.colon_notMem_toString _)
      (Number.colon_notMem_toString _) hlist
    exact ⟨String.toList_inj.mp hintent,
      Number.toString_injective (String.toList_inj.mp hindex)⟩
  · rintro ⟨hintent, hindex⟩
    rw [utxoKey, utxoKey, hintent, hindex]

/-! ### Histories -/

/-- The NIGHT outputs of an address among some outputs. -/
def nightOutputs (address : String) (utxos : List UnshieldedUtxo) : List UnshieldedUtxo :=
  utxos.filter fun utxo ↦ isNightUtxo utxo address

/-- The NIGHT outputs of an address that an event creates. -/
def createdBy (address : String) : UnshieldedEvent → List UnshieldedUtxo
  | .transaction event => nightOutputs address event.created
  | .progress _ => []

/-- The NIGHT outputs of an address that an event spends. -/
def spentBy (address : String) : UnshieldedEvent → List UnshieldedUtxo
  | .transaction event => nightOutputs address event.spent
  | .progress _ => []

/-- The NIGHT outputs of an address that a history creates. -/
def createdNight (address : String) (events : List UnshieldedEvent) : List UnshieldedUtxo :=
  events.flatMap (createdBy address)

/-- The NIGHT outputs of an address that a history spends. -/
def spentNight (address : String) (events : List UnshieldedEvent) : List UnshieldedUtxo :=
  events.flatMap (spentBy address)

/-- The intent and the index of an output. -/
def outputId (utxo : UnshieldedUtxo) : String × Number := (utxo.intentHash, utxo.outputIndex)

/-- The total value of some outputs. -/
def totalValue (utxos : List UnshieldedUtxo) : ℤ := (utxos.map UnshieldedUtxo.value).sum

/-- Every NIGHT output of the address is created at most once, is spent at most once, in the
transaction that creates it or a later one, and has the same value on creation and spend. -/
structure WellFormedHistory (address : String) (events : List UnshieldedEvent) : Prop where
  created_once : ((createdNight address events).map outputId).Nodup
  spent_once : ((spentNight address events).map outputId).Nodup
  spent_after : ∀ before event after, events = before ++ event :: after →
    ∀ utxo ∈ spentBy address event, ∃ origin ∈ createdNight address (before ++ [event]),
      outputId origin = outputId utxo ∧ origin.value = utxo.value

/-- The NIGHT outputs of an address that a history creates and does not spend. -/
def unspentNight (address : String) (events : List UnshieldedEvent) : List UnshieldedUtxo :=
  (createdNight address events).filter fun utxo ↦
    outputId utxo ∉ (spentNight address events).map outputId

/-- The history without outputs of others, other tokens and progress markers. -/
def nightHistory (address : String) (events : List UnshieldedEvent) : List UnshieldedEvent :=
  events.filterMap fun
    | .transaction event => some (.transaction { event with
        created := nightOutputs address event.created
        spent := nightOutputs address event.spent })
    | .progress _ => none

/-! ### One event -/

/-- What one event does to the unspent map. -/
def storeLogOf (address : String) (event : UnshieldedEvent) : List (Op String UnshieldedUtxo) :=
  (createdBy address event).map (fun utxo ↦ .put (utxoKey utxo) utxo) ++
    (spentBy address event).map fun utxo ↦ .remove (utxoKey utxo)

/-- The credits of one event. -/
def creditsOf (address : String) : UnshieldedEvent → List UnshieldedCredit
  | .transaction event => (nightOutputs address event.created).map fun utxo ↦
      ⟨utxo.value, event.transactionId, event.hash, event.timestamp⟩
  | .progress _ => []

theorem foldl_creditOutput (event : UnshieldedTransaction) (address : String)
    (utxos : List UnshieldedUtxo) (state : UnshieldedLedgerState) :
    utxos.foldl (creditOutput event address) state =
      { state with
        unspent := ((nightOutputs address utxos).map fun utxo ↦
          Op.put (utxoKey utxo) utxo).foldl apply state.unspent
        created := state.created + totalValue (nightOutputs address utxos)
        credits := state.credits ++ (nightOutputs address utxos).map fun utxo ↦
          ⟨utxo.value, event.transactionId, event.hash, event.timestamp⟩ } := by
  induction utxos generalizing state with
  | nil => simp [nightOutputs, totalValue]
  | cons utxo utxos ih =>
    rw [List.foldl_cons, ih]
    cases hnight : isNightUtxo utxo address with
    | false => simp [creditOutput, nightOutputs, hnight]
    | true => simp [creditOutput, nightOutputs, totalValue, hnight, apply, add_assoc]

theorem foldl_debitOutput (address : String) (utxos : List UnshieldedUtxo)
    (state : UnshieldedLedgerState) :
    utxos.foldl (debitOutput address) state =
      { state with
        unspent := ((nightOutputs address utxos).map fun utxo ↦
          (Op.remove (utxoKey utxo) : Op String UnshieldedUtxo)).foldl apply state.unspent
        spent := state.spent + totalValue (nightOutputs address utxos) } := by
  induction utxos generalizing state with
  | nil => simp [nightOutputs, totalValue]
  | cons utxo utxos ih =>
    rw [List.foldl_cons, ih]
    cases hnight : isNightUtxo utxo address with
    | false => simp [debitOutput, nightOutputs, hnight]
    | true => simp [debitOutput, nightOutputs, totalValue, hnight, apply, add_assoc]

/-- What folding a transaction does. -/
theorem applyUnshieldedEvent_transaction (state : UnshieldedLedgerState)
    (event : UnshieldedTransaction) (address : String) :
    applyUnshieldedEvent state (.transaction event) address =
      { unspent := (storeLogOf address (.transaction event)).foldl apply state.unspent
        created := state.created + totalValue (nightOutputs address event.created)
        spent := state.spent + totalValue (nightOutputs address event.spent)
        credits := state.credits ++ creditsOf address (.transaction event)
        transactionsSeen := state.transactionsSeen + 1
        highestTransactionId := state.highestTransactionId
        lastTransactionId := state.lastTransactionId.max event.transactionId } := by
  simp [applyUnshieldedEvent, foldl_creditOutput, foldl_debitOutput, storeLogOf, createdBy,
    spentBy, creditsOf, List.foldl_append]

/-- What folding a progress marker does. -/
theorem applyUnshieldedEvent_progress (state : UnshieldedLedgerState) (highest : Number)
    (address : String) :
    applyUnshieldedEvent state (.progress highest) address =
      { state with highestTransactionId :=
          if highest.le state.highestTransactionId then state.highestTransactionId
          else highest } := by
  simp only [applyUnshieldedEvent]
  split_ifs <;> rfl

/-! ### Whole histories -/

def UnshieldedEvent.isTransaction : UnshieldedEvent → Bool
  | .transaction _ => true
  | .progress _ => false

/-- What a history does to the unspent map. -/
def storeLog (address : String) (events : List UnshieldedEvent) : List (Op String UnshieldedUtxo) :=
  events.flatMap (storeLogOf address)

theorem foldHistory_concat (address : String) (events : List UnshieldedEvent)
    (event : UnshieldedEvent) :
    foldHistory address (events ++ [event]) =
      applyUnshieldedEvent (foldHistory address events) event address := by
  unfold foldHistory
  rw [List.foldl_append]
  rfl

section

variable (address : String) (events : List UnshieldedEvent)

theorem foldHistory_unspent :
    (foldHistory address events).unspent = replay (storeLog address events) := by
  induction events using List.reverseRecOn with
  | nil => rfl
  | append_singleton events event ih =>
    rw [foldHistory_concat, storeLog, List.flatMap_append, List.flatMap_singleton, replay,
      List.foldl_append]
    cases event with
    | transaction event =>
      rw [applyUnshieldedEvent_transaction, ih]
      rfl
    | progress highest =>
      rw [applyUnshieldedEvent_progress, ih]
      rfl

theorem foldHistory_created :
    (foldHistory address events).created = totalValue (createdNight address events) := by
  induction events using List.reverseRecOn with
  | nil => rfl
  | append_singleton events event ih =>
    rw [foldHistory_concat]
    cases event with
    | transaction event =>
      rw [applyUnshieldedEvent_transaction, ih]
      simp [createdNight, createdBy, totalValue]
    | progress highest =>
      rw [applyUnshieldedEvent_progress, ih]
      simp [createdNight, createdBy]

theorem foldHistory_spent :
    (foldHistory address events).spent = totalValue (spentNight address events) := by
  induction events using List.reverseRecOn with
  | nil => rfl
  | append_singleton events event ih =>
    rw [foldHistory_concat]
    cases event with
    | transaction event =>
      rw [applyUnshieldedEvent_transaction, ih]
      simp [spentNight, spentBy, totalValue]
    | progress highest =>
      rw [applyUnshieldedEvent_progress, ih]
      simp [spentNight, spentBy]

theorem foldHistory_credits :
    (foldHistory address events).credits = events.flatMap (creditsOf address) := by
  induction events using List.reverseRecOn with
  | nil => rfl
  | append_singleton events event ih =>
    rw [foldHistory_concat, List.flatMap_append, List.flatMap_singleton, ← ih]
    cases event with
    | transaction event => rw [applyUnshieldedEvent_transaction]
    | progress highest => simp [applyUnshieldedEvent_progress, creditsOf]

theorem foldHistory_transactionsSeen :
    (foldHistory address events).transactionsSeen =
      events.countP UnshieldedEvent.isTransaction := by
  induction events using List.reverseRecOn with
  | nil => rfl
  | append_singleton events event ih =>
    rw [foldHistory_concat, List.countP_append, ← ih]
    cases event with
    | transaction event =>
      rw [applyUnshieldedEvent_transaction]
      rfl
    | progress highest =>
      rw [applyUnshieldedEvent_progress]
      rfl

/-- The credits of a history add up to what it created. -/
theorem sum_credits :
    ((foldHistory address events).credits.map UnshieldedCredit.value).sum =
      (foldHistory address events).created := by
  have hevent : ∀ event, ((creditsOf address event).map UnshieldedCredit.value) =
      (createdBy address event).map UnshieldedUtxo.value := by
    intro event
    cases event with
    | transaction event => simp [creditsOf, createdBy]
    | progress highest => rfl
  rw [foldHistory_credits, foldHistory_created, createdNight, totalValue, List.map_flatMap,
    List.map_flatMap]
  simp only [hevent]

end

/-! ### Outputs of others and progress markers -/

theorem nightOutputs_nightOutputs (address : String) (utxos : List UnshieldedUtxo) :
    nightOutputs address (nightOutputs address utxos) = nightOutputs address utxos := by
  rw [nightOutputs, nightOutputs, List.filter_filter]
  simp only [Bool.and_self]

/-- What other outputs and markers add nothing to is read off the reduced history. -/
theorem flatMap_nightHistory {α : Type} (address : String) (f : UnshieldedEvent → List α)
    (hprogress : ∀ highest, f (.progress highest) = [])
    (htransaction : ∀ event : UnshieldedTransaction, f (.transaction { event with
      created := nightOutputs address event.created
      spent := nightOutputs address event.spent }) = f (.transaction event))
    (events : List UnshieldedEvent) :
    (nightHistory address events).flatMap f = events.flatMap f := by
  induction events with
  | nil => rfl
  | cons event events ih =>
    cases event with
    | transaction event => simp [nightHistory, ← ih, htransaction]
    | progress highest => simp [nightHistory, ← ih, hprogress]

/-- Outputs of others, other tokens and progress markers do not change what is unspent, the totals
and the credits. -/
theorem foldHistory_nightHistory (address : String) (events : List UnshieldedEvent) :
    let state := foldHistory address events
    let reduced := foldHistory address (nightHistory address events)
    reduced.unspent = state.unspent ∧ reduced.created = state.created ∧
      reduced.spent = state.spent ∧ reduced.credits = state.credits := by
  refine ⟨?_, ?_, ?_, ?_⟩
  · rw [foldHistory_unspent, foldHistory_unspent, storeLog, storeLog,
      flatMap_nightHistory address _ fun _ ↦ rfl]
    simp [storeLogOf, createdBy, spentBy, nightOutputs_nightOutputs]
  · rw [foldHistory_created, foldHistory_created, createdNight, createdNight,
      flatMap_nightHistory address _ fun _ ↦ rfl]
    simp [createdBy, nightOutputs_nightOutputs]
  · rw [foldHistory_spent, foldHistory_spent, spentNight, spentNight,
      flatMap_nightHistory address _ fun _ ↦ rfl]
    simp [spentBy, nightOutputs_nightOutputs]
  · rw [foldHistory_credits, foldHistory_credits, flatMap_nightHistory address _ fun _ ↦ rfl]
    simp [creditsOf, nightOutputs_nightOutputs]

/-! ### The transactions of a history -/

/-- The transactions of a history. -/
def transactionsOf (events : List UnshieldedEvent) : List UnshieldedTransaction :=
  events.filterMap fun
    | .transaction event => some event
    | .progress _ => none

/-- What markers add nothing to is read off the transactions. -/
theorem flatMap_transactionsOf {α : Type} (f : UnshieldedEvent → List α)
    (hprogress : ∀ highest, f (.progress highest) = []) (events : List UnshieldedEvent) :
    ((transactionsOf events).map .transaction).flatMap f = events.flatMap f := by
  induction events with
  | nil => rfl
  | cons event events ih =>
    cases event with
    | transaction event => simp [transactionsOf, ← ih]
    | progress highest => simp [transactionsOf, ← ih, hprogress]

theorem foldHistory_unspent_transactionsOf (address : String) (events : List UnshieldedEvent) :
    (foldHistory address ((transactionsOf events).map .transaction)).unspent =
      (foldHistory address events).unspent := by
  rw [foldHistory_unspent, foldHistory_unspent, storeLog, storeLog,
    flatMap_transactionsOf _ fun _ ↦ rfl]

/-! ### Well-formed histories -/

theorem utxoKey_eq_iff (utxo other : UnshieldedUtxo) :
    utxoKey utxo = utxoKey other ↔ outputId utxo = outputId other := by
  rw [utxoKey_inj, outputId, outputId, Prod.mk.injEq]

/-- Distinct outputs have distinct keys. -/
theorem nodup_map_utxoKey_iff (utxos : List UnshieldedUtxo) :
    (utxos.map utxoKey).Nodup ↔ (utxos.map outputId).Nodup := by
  simp only [List.Nodup, List.pairwise_map, ne_eq, utxoKey_eq_iff]

section

variable {address : String} {events : List UnshieldedEvent}

theorem mem_nightOutputs_iff {utxos : List UnshieldedUtxo} {utxo : UnshieldedUtxo} :
    utxo ∈ nightOutputs address utxos ↔
      utxo ∈ utxos ∧ utxo.owner = address ∧ utxo.tokenType = NIGHT_TOKEN_TYPE := by
  simp [nightOutputs, isNightUtxo]

theorem night_of_mem_createdNight {utxo : UnshieldedUtxo} (h : utxo ∈ createdNight address events) :
    utxo.owner = address ∧ utxo.tokenType = NIGHT_TOKEN_TYPE := by
  obtain ⟨event, _, hmem⟩ := List.mem_flatMap.mp h
  cases event with
  | transaction event => exact (mem_nightOutputs_iff.mp hmem).2
  | progress highest => cases hmem

theorem night_of_mem_spentBy {event : UnshieldedEvent} {utxo : UnshieldedUtxo}
    (h : utxo ∈ spentBy address event) :
    utxo.owner = address ∧ utxo.tokenType = NIGHT_TOKEN_TYPE := by
  cases event with
  | transaction event => exact (mem_nightOutputs_iff.mp h).2
  | progress highest => cases h

theorem puts_storeLog :
    puts (storeLog address events) =
      (createdNight address events).map fun utxo ↦ (utxoKey utxo, utxo) := by
  induction events with
  | nil => rfl
  | cons event events ih =>
    rw [storeLog, List.flatMap_cons, ← storeLog, puts_append, ih, storeLogOf, puts_append,
      puts_map_put, puts_map_remove, List.append_nil, createdNight, createdNight,
      List.flatMap_cons, List.map_append]

theorem removed_storeLog :
    removed (storeLog address events) = (spentNight address events).map utxoKey := by
  induction events with
  | nil => rfl
  | cons event events ih =>
    rw [storeLog, List.flatMap_cons, ← storeLog, removed_append, ih, storeLogOf, removed_append,
      removed_map_put, removed_map_remove, List.nil_append, spentNight, spentNight,
      List.flatMap_cons, List.map_append]

/-- A history is well formed up to every point. -/
theorem WellFormedHistory.of_append {after : List UnshieldedEvent}
    (h : WellFormedHistory address (events ++ after)) : WellFormedHistory address events where
  created_once := by
    have hnodup := h.created_once
    rw [createdNight, List.flatMap_append, List.map_append] at hnodup
    exact (List.nodup_append.mp hnodup).1
  spent_once := by
    have hnodup := h.spent_once
    rw [spentNight, List.flatMap_append, List.map_append] at hnodup
    exact (List.nodup_append.mp hnodup).1
  spent_after := by
    rintro before event rest rfl
    exact h.spent_after before event (rest ++ after) (by simp)

/-- A spent output is one of the created outputs. -/
theorem WellFormedHistory.created_of_spentBy (h : WellFormedHistory address events)
    {before after : List UnshieldedEvent} {event : UnshieldedEvent}
    (hsplit : events = before ++ event :: after) {utxo : UnshieldedUtxo}
    (hspent : utxo ∈ spentBy address event) : utxo ∈ createdNight address (before ++ [event]) := by
  obtain ⟨origin, horigin, hid, hvalue⟩ := h.spent_after before event after hsplit utxo hspent
  obtain ⟨hintent, hindex⟩ := Prod.mk.inj hid
  obtain ⟨howner, htoken⟩ := night_of_mem_createdNight horigin
  obtain ⟨howner', htoken'⟩ := night_of_mem_spentBy hspent
  have hsame : origin = utxo := by
    cases origin
    cases utxo
    simp_all
  rwa [← hsame]

theorem WellFormedHistory.created_of_spent (h : WellFormedHistory address events)
    {utxo : UnshieldedUtxo} (hspent : utxo ∈ spentNight address events) :
    utxo ∈ createdNight address events := by
  obtain ⟨event, hevent, hmem⟩ := List.mem_flatMap.mp hspent
  obtain ⟨before, after, hsplit⟩ := List.append_of_mem hevent
  have hcreated := h.created_of_spentBy hsplit hmem
  rw [hsplit, List.append_cons, createdNight, List.flatMap_append]
  exact List.mem_append_left _ hcreated

/-- A well-formed history keeps the unspent map by an orderly log. -/
theorem WellFormedHistory.orderly (h : WellFormedHistory address events) :
    Orderly (storeLog address events) := by
  induction events using List.reverseRecOn with
  | nil => exact Orderly.nil
  | append_singleton events event ih =>
    rw [storeLog, List.flatMap_append, List.flatMap_singleton, storeLogOf, ← List.append_assoc]
    have hcreated := (nodup_map_utxoKey_iff _).mpr h.created_once
    rw [createdNight, List.flatMap_append, List.flatMap_singleton, List.map_append] at hcreated
    have hputs : ((puts (storeLog address events)).map Prod.fst ++
        (createdBy address event).map utxoKey).Nodup := by
      rwa [puts_storeLog, List.map_map]
    refine Orderly.append_removals (Orderly.append_puts (ih h.of_append) _ hputs) _ ?_
    intro utxo hutxo
    have hmem := h.created_of_spentBy rfl hutxo
    rw [createdNight, List.flatMap_append, List.flatMap_singleton] at hmem
    rw [puts_append, puts_map_put, puts_storeLog, List.map_append, List.map_map,
      List.map_map, ← List.map_append]
    exact List.mem_map.mpr ⟨utxo, hmem, rfl⟩

/-- The pairs of the unspent map are the outputs created and not spent. -/
theorem WellFormedHistory.pairs_perm (h : WellFormedHistory address events) :
    (pairs (foldHistory address events).unspent).Perm
      ((unspentNight address events).map fun utxo ↦ (utxoKey utxo, utxo)) := by
  have hremaining : ((unspentNight address events).map fun utxo ↦ (utxoKey utxo, utxo)) =
      (puts (storeLog address events)).filter fun entry ↦
        entry.1 ∉ removed (storeLog address events) := by
    rw [puts_storeLog, removed_storeLog, List.filter_map, unspentNight]
    congr 2
    funext utxo
    simp only [Function.comp_apply, List.mem_map, utxoKey_eq_iff]
  rw [hremaining, foldHistory_unspent]
  exact h.orderly.pairs_perm

/-- What is created is what stays unspent and what is spent. -/
theorem WellFormedHistory.totalValue_unspentNight (h : WellFormedHistory address events) :
    totalValue (unspentNight address events) =
      totalValue (createdNight address events) - totalValue (spentNight address events) := by
  have hsplit := sum_map_split h.created_once.of_map h.spent_once.of_map
    (fun utxo hutxo ↦ h.created_of_spent hutxo) UnshieldedUtxo.value
  have hunspent : unspentNight address events =
      (createdNight address events).filter (· ∉ spentNight address events) := by
    refine List.filter_congr fun utxo hutxo ↦ ?_
    rw [decide_eq_decide, not_iff_not, List.mem_map]
    constructor
    · rintro ⟨spent, hspent, hid⟩
      rwa [← List.inj_on_of_nodup_map h.created_once (h.created_of_spent hspent) hutxo hid]
    · exact fun hspent ↦ ⟨utxo, hspent, rfl⟩
  rw [hunspent, totalValue, totalValue, totalValue, hsplit]
  ring

/-- The reported balance is the total value of the unspent outputs. -/
theorem WellFormedHistory.balance_eq (h : WellFormedHistory address events)
    (tipHeight : Option Number) (caughtUp : Bool) :
    (toUnshieldedBalance (foldHistory address events) address tipHeight caughtUp).balance =
      totalValue (unspentNight address events) := by
  have hvalues := (h.pairs_perm.map fun entry ↦ entry.2.value).sum_eq
  rwa [pairs, List.map_map, List.map_map] at hvalues

/-- The fold of a well-formed history computes its unspent outputs. Assumes: every NIGHT output of
the address is created once and spent at most once, after its creation and with its value. Then the
unspent map holds exactly the outputs created and not spent; the balance is what was created less
what was spent, which is their total value and not negative for values that are not; they are
counted; the credits add up to what was created; the transactions are counted; and outputs of
others, other tokens and progress markers make no difference. -/
theorem unspent_outputs_of_history (h : WellFormedHistory address events)
    (tipHeight : Option Number) (caughtUp : Bool) :
    let state := foldHistory address events
    let answer := toUnshieldedBalance state address tipHeight caughtUp
    let reduced := foldHistory address (nightHistory address events)
    (∀ key utxo, state.unspent.lookup key = some utxo ↔
      key = utxoKey utxo ∧ utxo ∈ unspentNight address events) ∧
    answer.balance = answer.created - answer.spent ∧
    answer.balance = totalValue (unspentNight address events) ∧
    ((∀ utxo ∈ createdNight address events, 0 ≤ utxo.value) → 0 ≤ answer.balance) ∧
    answer.unspentOutputs = (unspentNight address events).length ∧
    (answer.credits.map UnshieldedCredit.value).sum = answer.created ∧
    answer.transactionsSeen = events.countP UnshieldedEvent.isTransaction ∧
    (reduced.unspent = state.unspent ∧ reduced.created = state.created ∧
      reduced.spent = state.spent ∧ reduced.credits = state.credits) := by
  intro state answer reduced
  have hentries := h.pairs_perm
  have hbalance : answer.balance = totalValue (unspentNight address events) :=
    h.balance_eq tipHeight caughtUp
  refine ⟨?_, ?_, hbalance, ?_, ?_, sum_credits address events,
    foldHistory_transactionsSeen address events, foldHistory_nightHistory address events⟩
  · intro key utxo
    rw [← mem_pairs_iff, hentries.mem_iff, List.mem_map]
    constructor
    · rintro ⟨other, hother, hpair⟩
      cases hpair
      exact ⟨rfl, hother⟩
    · rintro ⟨rfl, hutxo⟩
      exact ⟨utxo, hutxo, rfl⟩
  · rw [hbalance, h.totalValue_unspentNight]
    show _ = (foldHistory address events).created - (foldHistory address events).spent
    rw [foldHistory_created, foldHistory_spent]
  · intro hnonneg
    rw [hbalance]
    refine List.sum_nonneg fun value hvalue ↦ ?_
    obtain ⟨utxo, hutxo, rfl⟩ := List.mem_map.mp hvalue
    exact hnonneg utxo (List.mem_of_mem_filter hutxo)
  · have hlength := hentries.length_eq
    rwa [pairs, List.length_map, List.length_map] at hlength

end

/-! ### A sample history -/

def sampleAddress : String := "mn_addr_preview1sample"

/-- A NIGHT output of the sample address. -/
def sampleOutput : UnshieldedUtxo :=
  ⟨sampleAddress, NIGHT_TOKEN_TYPE, 1000, .zero, "drip"⟩

/-- A drip to the sample address, and a later transaction that spends it. -/
def drip : UnshieldedTransaction := ⟨.ofRat 7, "hash", .zero, [sampleOutput], []⟩

def drain : UnshieldedTransaction := ⟨.ofRat 8, "hash", .zero, [], [sampleOutput]⟩

def drainedHistory : List UnshieldedEvent := [drip, drain].map .transaction

/-- A dust registration, which spends the drip and creates its value again. -/
def registeredOutput : UnshieldedUtxo := { sampleOutput with intentHash := "registration" }

def registration : UnshieldedTransaction :=
  ⟨.ofRat 8, "hash", .zero, [registeredOutput], [sampleOutput]⟩

def registeredHistory : List UnshieldedEvent := [drip, registration].map .transaction

/-- The beginnings of a history are counted by their lengths. -/
theorem spent_after_of_take {address : String} {events : List UnshieldedEvent}
    (h : ∀ i : Fin events.length, ∀ utxo ∈ spentBy address (events.get i),
      ∃ origin ∈ createdNight address (events.take (i + 1)),
        outputId origin = outputId utxo ∧ origin.value = utxo.value) :
    ∀ before event after, events = before ++ event :: after →
      ∀ utxo ∈ spentBy address event, ∃ origin ∈ createdNight address (before ++ [event]),
        outputId origin = outputId utxo ∧ origin.value = utxo.value := by
  rintro before event after rfl utxo hutxo
  have htake : (before ++ event :: after).take (before.length + 1) = before ++ [event] := by
    rw [List.append_cons, List.take_left' (by simp)]
  have hspent := h ⟨before.length, by simp⟩ utxo (by simpa using hutxo)
  rwa [htake] at hspent

theorem drainedHistory_wellFormed : WellFormedHistory sampleAddress drainedHistory where
  created_once := by decide +kernel
  spent_once := by decide +kernel
  spent_after := spent_after_of_take (by decide +kernel)

theorem registeredHistory_wellFormed : WellFormedHistory sampleAddress registeredHistory where
  created_once := by decide +kernel
  spent_once := by decide +kernel
  spent_after := spent_after_of_take (by decide +kernel)

/-- The drip is spent and created again: the new output is the one that is left, and the balance is
its value. -/
theorem unspent_outputs_of_history_registered :
    let state := foldHistory sampleAddress registeredHistory
    let answer := toUnshieldedBalance state sampleAddress none true
    state.unspent.lookup (utxoKey registeredOutput) = some registeredOutput ∧
      state.unspent.lookup (utxoKey sampleOutput) ≠ some sampleOutput ∧
      answer.balance = 2000 - 1000 ∧ answer.unspentOutputs = 1 := by
  intro state answer
  obtain ⟨hunspent, hbalance, _, _, hcount, _⟩ :=
    unspent_outputs_of_history registeredHistory_wellFormed none true
  refine ⟨(hunspent _ _).mpr ⟨rfl, by decide +kernel⟩, fun hlookup ↦ ?_, hbalance, hcount⟩
  have hleft := ((hunspent _ _).mp hlookup).2
  exact absurd hleft (by decide +kernel)

end SealedBid
