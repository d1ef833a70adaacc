import SealedBid.Foundation.FailSafeRun
import SealedBid.Foundation.JsonValues
import SealedBid.Funding.UnshieldedHistory

/-!
# Messages of the subscription

The decoding functions of `funding.ts`. `toBigInt` and `toUtxo` read a wire output,
`extractSubscriptionErrors` the errors of a payload and `parseUnshieldedEvent` the event of a
payload. Missing fields have defaults, and wrong ones are converted: a value that is no integer is
zero, an identifier that is no number is `NaN`.

`toBigInt` never throws. The other conversions throw for some values, and so do lists of outputs
that are no lists or hold null: `parseUnshieldedEvent_ok_iff` says for which payloads.
-/

set_option autoImplicit false
set_option relaxedAutoImplicit false

namespace SealedBid

open FailSafeRun

/-! ### Decoding -/

/-- An integer, zero when the value is missing or no integer literal. -/
def toBigInt (value : Option Json) : ℤ :=
  match (orElse value (.string "0")).toText with
  | .ok text => (bigintOfString text).getD 0
  | .error _ => 0

def toUtxo (wire : Json) : Except TypeError UnshieldedUtxo := do
  let owner ← (orElse (← property (some wire) "owner") (.string "")).toText
  let tokenType ← (orElse (← property (some wire) "tokenType") (.string "")).toText
  let value := toBigInt (← property (some wire) "value")
  let outputIndex ← (orElse (← property (some wire) "outputIndex") (.number .zero)).toNumber
  let intentHash ← (orElse (← property (some wire) "intentHash") (.string "")).toText
  return ⟨owner, tokenType, value, outputIndex, intentHash⟩

/-- GraphQL errors arrive as an `errors` array of the payload; each is told by its message. -/
def extractSubscriptionErrors (payload : Option Json) : List String :=
  match optionalProperty payload "errors" with
  | some (.array errors) => errors.map fun error ↦
    match error.own "message" with
    | some (.string message) => message
    | _ => error.stringify
  | _ => []

def parseUnshieldedEvent (payload : Option Json) : Except TypeError (Option UnshieldedEvent) := do
  let node := optionalProperty (optionalProperty payload "data") "unshieldedTransactions"
  if truthy node = false then return none
  if isText (← property node "__typename") "UnshieldedTransactionsProgress" then
    let highest ← (orElse (← property node "highestTransactionId") (.number .zero)).toNumber
    return some (.progress highest)
  let transaction := some (orElse (← property node "transaction") .null)
  let block := optionalProperty transaction "block"
  let transactionId ← (orElse (optionalProperty transaction "id") (.number .zero)).toNumber
  let hash ← (orElse (optionalProperty transaction "hash") (.string "")).toText
  let timestamp ← (orElse (optionalProperty block "timestamp") (.number .zero)).toNumber
  let created ← mapElements (orElse (← property node "createdUtxos") (.array [])) toUtxo
  let spent ← mapElements (orElse (← property node "spentUtxos") (.array [])) toUtxo
  return some (.transaction ⟨transactionId, hash, timestamp, created, spent⟩)

/-! ### The fields of a payload -/

/-- The node of a payload. -/
def nodeOf (payload : Option Json) : Option Json :=
  optionalProperty (optionalProperty payload "data") "unshieldedTransactions"

/-- The position that a progress marker announces. -/
def markerField (payload : Option Json) : Option Json :=
  let node := nodeOf payload
  if truthy node ∧ isText (optionalProperty node "__typename") "UnshieldedTransactionsProgress" then
    some (orElse (optionalProperty node "highestTransactionId") (.number .zero))
  else none

/-- The identifier of a transaction. -/
def transactionIdField (payload : Option Json) : Option Json :=
  let node := nodeOf payload
  if truthy node ∧
      ¬ isText (optionalProperty node "__typename") "UnshieldedTransactionsProgress" then
    some (orElse (optionalProperty (optionalProperty node "transaction") "id") (.number .zero))
  else none

/-- The rest of decoding a transaction, after its identifier. -/
def parseTransaction (node : Option Json) (transactionId : Number) :
    Except TypeError (Option UnshieldedEvent) := do
  let transaction := optionalProperty node "transaction"
  let block := optionalProperty transaction "block"
  let hash ← (orElse (optionalProperty transaction "hash") (.string "")).toText
  let timestamp ← (orElse (optionalProperty block "timestamp") (.number .zero)).toNumber
  let created ← mapElements (orElse (optionalProperty node "createdUtxos") (.array [])) toUtxo
  let spent ← mapElements (orElse (optionalProperty node "spentUtxos") (.array [])) toUtxo
  return some (.transaction ⟨transactionId, hash, timestamp, created, spent⟩)

/-- A default of null makes no difference to guarded reading. -/
theorem optionalProperty_orElse_null (v : Option Json) (name : String) :
    optionalProperty (some (orElse v .null)) name = optionalProperty v name := by
  match v with
  | none => rfl
  | some .null => rfl
  | some (.bool _) => rfl
  | some (.number _) => rfl
  | some (.string _) => rfl
  | some (.array _) => rfl
  | some (.object _) => rfl

/-- Decoding a payload: a progress marker, a transaction, or nothing. -/
theorem parseUnshieldedEvent_eq (payload : Option Json) :
    parseUnshieldedEvent payload =
      match markerField payload, transactionIdField payload with
      | some marker, _ => marker.toNumber >>= fun highest ↦ .ok (some (.progress highest))
      | none, some id => id.toNumber >>= parseTransaction (nodeOf payload)
      | none, none => .ok none := by
  unfold parseUnshieldedEvent markerField transactionIdField
  have hnode : optionalProperty (optionalProperty payload "data") "unshieldedTransactions" =
      nodeOf payload := rfl
  simp only [hnode]
  cases htruthy : truthy (nodeOf payload) with
  | false => simp [pure, Except.pure]
  | true =>
    simp only [property_of_truthy htruthy]
    cases htype : isText (optionalProperty (nodeOf payload) "__typename")
      "UnshieldedTransactionsProgress" with
    | true => simp [bind, Except.bind, pure, Except.pure, htype]
    | false =>
      simp [bind, Except.bind, pure, Except.pure, htype, parseTransaction,
        optionalProperty_orElse_null]

/-- Decoding a transaction yields a transaction with the given identifier. -/
theorem exists_of_parseTransaction {node : Option Json} {transactionId : Number}
    {event : Option UnshieldedEvent} (h : parseTransaction node transactionId = .ok event) :
    ∃ transaction, event = some (.transaction transaction) ∧
      transaction.transactionId = transactionId := by
  simp only [parseTransaction, bind_eq_ok_iff, pure, Except.pure, Except.ok.injEq] at h
  obtain ⟨hash, _, timestamp, _, created, _, spent, _, rfl⟩ := h
  exact ⟨_, rfl, rfl⟩

/-- A payload is not both a marker and a transaction. -/
theorem transactionIdField_of_markerField {payload : Option Json} {marker : Json}
    (h : markerField payload = some marker) : transactionIdField payload = none := by
  simp only [markerField] at h
  split_ifs at h with hmarker
  simp only [transactionIdField]
  rw [if_neg]
  exact fun hid ↦ hid.2 hmarker.2

/-- The event that a payload is folded as. -/
def decodedEvent (payload : Option Json) : Option UnshieldedEvent :=
  match parseUnshieldedEvent payload with
  | .ok event => event
  | .error _ => none

/-! ### Which payloads are decoded -/

/-- A wire output that is not null and whose fields can be converted. -/
def utxoReadable (wire : Json) : Bool :=
  match wire with
  | .null => false
  | wire => ["owner", "tokenType", "outputIndex", "intentHash"].all fun name ↦
      convertibleOption (wire.own name)

/-- A list of readable outputs, or none. -/
def utxosReadable (v : Option Json) : Bool :=
  match v with
  | none => true
  | some .null => true
  | some (.array elements) => elements.all utxoReadable
  | _ => false

/-- A transaction node whose fields can be converted. -/
def transactionReadable (node : Option Json) : Bool :=
  let transaction := optionalProperty node "transaction"
  let block := optionalProperty transaction "block"
  convertibleOption (optionalProperty transaction "id") &&
    (convertibleOption (optionalProperty transaction "hash") &&
      (convertibleOption (optionalProperty block "timestamp") &&
        (utxosReadable (optionalProperty node "createdUtxos") &&
          utxosReadable (optionalProperty node "spentUtxos"))))

/-- A payload without a node, with a progress marker or with a transaction, whose fields can be
converted. -/
def payloadReadable (payload : Option Json) : Bool :=
  let node := nodeOf payload
  if truthy node = false then true
  else if isText (optionalProperty node "__typename") "UnshieldedTransactionsProgress" then
    convertibleOption (optionalProperty node "highestTransactionId")
  else transactionReadable node

theorem exists_toUtxo_iff (wire : Json) :
    (∃ utxo, toUtxo wire = .ok utxo) ↔ utxoReadable wire = true := by
  have hfields : ∀ wire : Json, wire ≠ .null → ((∃ utxo, toUtxo wire = .ok utxo) ↔
      convertibleOption (wire.own "owner") = true ∧
        convertibleOption (wire.own "tokenType") = true ∧
          convertibleOption (wire.own "outputIndex") = true ∧
            convertibleOption (wire.own "intentHash") = true) := by
    intro wire hnull
    rw [← exists_toText_orElse_iff (wire.own "owner") "",
      ← exists_toText_orElse_iff (wire.own "tokenType") "",
      ← exists_toNumber_orElse_iff (wire.own "outputIndex") .zero,
      ← exists_toText_orElse_iff (wire.own "intentHash") ""]
    unfold toUtxo
    simp only [property_of_ne_null hnull, ok_bind]
    refine exists_bind_eq_ok_iff fun owner ↦ exists_bind_eq_ok_iff fun tokenType ↦
      exists_bind_eq_ok_iff fun outputIndex ↦ ?_
    simp only [bind_eq_ok_iff, pure, Except.pure, Except.ok.injEq]
    constructor
    · rintro ⟨_, intentHash, hintentHash, _⟩
      exact ⟨intentHash, hintentHash⟩
    · rintro ⟨intentHash, hintentHash⟩
      exact ⟨_, intentHash, hintentHash, rfl⟩
  cases wire with
  | null => simp [utxoReadable, toUtxo, property, bind, Except.bind]
  | _ => simp [utxoReadable, hfields]

theorem exists_mapElements_iff (v : Option Json) :
    (∃ utxos, mapElements (orElse v (.array [])) toUtxo = .ok utxos) ↔
      utxosReadable v = true := by
  match v with
  | none => simp [orElse, mapElements, utxosReadable, pure, Except.pure]
  | some .null => simp [orElse, mapElements, utxosReadable, pure, Except.pure]
  | some (.bool _) => simp [orElse, mapElements, utxosReadable]
  | some (.number _) => simp [orElse, mapElements, utxosReadable]
  | some (.string _) => simp [orElse, mapElements, utxosReadable]
  | some (.object _) => simp [orElse, mapElements, utxosReadable]
  | some (.array elements) =>
    simp only [orElse, mapElements, utxosReadable, exists_mapM_eq_ok_iff, List.all_eq_true,
      exists_toUtxo_iff]

theorem exists_parseTransaction_iff (node : Option Json) (transactionId : Number) :
    (∃ event, parseTransaction node transactionId = .ok event) ↔
      convertibleOption (optionalProperty (optionalProperty node "transaction") "hash") = true ∧
        convertibleOption (optionalProperty (optionalProperty (optionalProperty node "transaction")
          "block") "timestamp") = true ∧
          utxosReadable (optionalProperty node "createdUtxos") = true ∧
            utxosReadable (optionalProperty node "spentUtxos") = true := by
  rw [← exists_toText_orElse_iff _ "", ← exists_toNumber_orElse_iff _ .zero,
    ← exists_mapElements_iff, ← exists_mapElements_iff]
  refine exists_bind_eq_ok_iff fun hash ↦ exists_bind_eq_ok_iff fun timestamp ↦
    exists_bind_eq_ok_iff fun created ↦ ?_
  simp only [bind_eq_ok_iff, pure, Except.pure, Except.ok.injEq]
  constructor
  · rintro ⟨_, spent, hspent, _⟩
    exact ⟨spent, hspent⟩
  · rintro ⟨spent, hspent⟩
    exact ⟨_, spent, hspent, rfl⟩

/-- Decoding throws for exactly the payloads that are not readable. -/
theorem exists_parseUnshieldedEvent_iff (payload : Option Json) :
    (∃ event, parseUnshieldedEvent payload = .ok event) ↔ payloadReadable payload = true := by
  rw [parseUnshieldedEvent_eq, payloadReadable, markerField, transactionIdField]
  cases truthy (nodeOf payload) with
  | false => simp
  | true =>
    cases isText (optionalProperty (nodeOf payload) "__typename")
      "UnshieldedTransactionsProgress" with
    | true =>
      simp only [and_self, if_true, Bool.true_eq_false, if_false]
      rw [← exists_toNumber_orElse_iff _ .zero]
      simp only [bind_eq_ok_iff, Except.ok.injEq]
      constructor
      · rintro ⟨_, highest, hhighest, _⟩
        exact ⟨highest, hhighest⟩
      · rintro ⟨highest, hhighest⟩
        exact ⟨_, highest, hhighest, rfl⟩
    | false =>
      simp only [true_and, Bool.false_eq_true, if_false, not_false_iff, and_self, if_true,
        Bool.true_eq_false, transactionReadable, Bool.and_eq_true]
      rw [← exists_toNumber_orElse_iff _ .zero]
      exact exists_bind_eq_ok_iff fun transactionId ↦
        exists_parseTransaction_iff (nodeOf payload) transactionId

/-! ### Sample payloads -/

/-- A payload with a node. -/
def payloadWith (node : List (String × Json)) : Json :=
  .object [("data", .object [("unshieldedTransactions", .object node)])]

/-- A progress marker. -/
def markerPayload (highest : Json) : Json :=
  payloadWith [("__typename", .string "UnshieldedTransactionsProgress"),
    ("highestTransactionId", highest)]

/-- A NIGHT output of an address on the wire, with a value. -/
def wireOutputTo (address value : String) : Json :=
  .object [("owner", .string address), ("tokenType", .string NIGHT_TOKEN_TYPE),
    ("value", .string value), ("outputIndex", .number .zero), ("intentHash", .string "drip")]

def wireOutput (value : String) : Json := wireOutputTo sampleAddress value

/-- A transaction with an identifier and its outputs. -/
def transactionPayload (id : ℚ) (created spent : List Json) : Json :=
  payloadWith [("transaction", .object [("id", .number (.ofRat id)), ("hash", .string "hash"),
    ("block", .object [("timestamp", .number .zero)])]),
    ("createdUtxos", .array created), ("spentUtxos", .array spent)]

/-- Every integer is the value of some text on the wire. -/
theorem exists_toBigInt (value : ℤ) : ∃ text, toBigInt (some (.string text)) = value := by
  obtain ⟨text, htext⟩ := exists_bigintOfString value
  exact ⟨text, by simp [toBigInt, orElse, Json.toText, htext]⟩

end SealedBid
