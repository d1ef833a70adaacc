import SealedBid.Funding.WireFormat

/-!
# The balance watcher

`watchUnshieldedBalance` of `funding.ts` as a machine that reacts to socket events: the connection
opens, a message arrives, the connection fails or closes, the poll ticks, the deadline passes. The
watcher folds the events of the subscription, keeps track of whether the replay has caught up, and
settles its promise once, with an answer or a rejection.

A received text is given by what `JSON.parse` makes of it: a document, or nothing when it is no
document. `onMessage` is the message handler. What it does is one reaction
(`onMessage_eq`), which depends on the message alone, and it throws for exactly the messages that
are not readable (`handler_total_iff`).

Scope. Times are whole milliseconds, and the clock may be read in any order. The timers are
events, and those that a settled watcher has cleared are without effect. The callback of the
options and the sending of messages do not throw. Documents that nest deeper than the stack of an
engine allows, at which reading, converting or writing them may throw, are left out.
-/

set_option autoImplicit false
set_option relaxedAutoImplicit false

namespace SealedBid

open FailSafeRun

/-! ### The watcher -/

/-- The options that the watcher reads while it runs. -/
structure WatchUnshieldedOptions where
  waitForFunding : Bool
  idleMs : ℤ
  tipHeight : Option Number

/-- How the promise of a watcher settles. -/
inductive Settlement
  | resolved (answer : UnshieldedBalance)
  | rejected (reason : String)
  deriving DecidableEq

/-- The variables of a watcher. The promise is settled once it has an outcome. -/
structure Watcher where
  state : UnshieldedLedgerState
  sawProgress : Bool
  caughtUp : Bool
  lastTransactionAt : ℤ
  sent : List String
  outcome : Option Settlement

/-- What happens to a watcher. -/
inductive SocketEvent
  | opened
  | message (received : Option Json) (now : ℤ)
  | error (reason : String)
  | closed
  | poll (now : ℤ)
  | deadline

/-- The watcher when its promise is made. -/
def startWatcher (now : ℤ) : Watcher where
  state := emptyLedgerState
  sawProgress := false
  caughtUp := false
  lastTransactionAt := now
  sent := []
  outcome := none

def SUBSCRIPTION_ID : String := "unshielded-balance"

def UNSUBSCRIPTION_QUERY : String :=
  "\n  subscription UnshieldedBalance($address: UnshieldedAddress!) \x7b" ++
  "\n    unshieldedTransactions(address: $address) \x7b" ++
  "\n      __typename" ++
  "\n      ... on UnshieldedTransaction \x7b" ++
  "\n        transaction \x7b id hash block \x7b timestamp \x7d \x7d" ++
  "\n        createdUtxos \x7b owner tokenType value outputIndex intentHash \x7d" ++
  "\n        spentUtxos \x7b owner tokenType value outputIndex intentHash \x7d" ++
  "\n      \x7d" ++
  "\n      ... on UnshieldedTransactionsProgress \x7b highestTransactionId \x7d" ++
  "\n    \x7d" ++
  "\n  \x7d" ++
  "\n"

def connectionInit : String := (Json.object [("type", .string "connection_init")]).stringify

def pong : String := (Json.object [("type", .string "pong")]).stringify

def subscribe (address : String) : String :=
  (Json.object [("id", .string SUBSCRIPTION_ID), ("type", .string "subscribe"),
    ("payload", .object [("query", .string UNSUBSCRIPTION_QUERY),
      ("variables", .object [("address", .string address)])])]).stringify

namespace Watcher

def settled (w : Watcher) : Bool := w.outcome.isSome

def send (w : Watcher) (text : String) : Watcher := { w with sent := w.sent ++ [text] }

def updateCaughtUp (w : Watcher) : Watcher :=
  if ¬ w.sawProgress then w
  else { w with caughtUp :=
    w.state.highestTransactionId = .zero ∨
      w.state.highestTransactionId.le w.state.lastTransactionId }

end Watcher

section

variable (options : WatchUnshieldedOptions) (address : String)

/-- Settle the promise unless it is settled: resolve it, or reject it with a reason. -/
def settle (error : Option String) (w : Watcher) : Watcher :=
  if w.settled then w
  else { w with outcome := some (match error with
    | none => .resolved (toUnshieldedBalance w.state address options.tipHeight w.caughtUp)
    | some reason => .rejected reason) }

/-- The message handler. -/
def onMessage (received : Option Json) (now : ℤ) (w : Watcher) : Except TypeError Watcher :=
  match received with
  | none => .ok w
  | some message => do
    let type ← property (some message) "type"
    let kind := match type with
      | some (.string type) => type
      | _ => ""
    match kind with
    | "connection_ack" => return w.send (subscribe address)
    | "ping" => return w.send pong
    | "next" =>
      let payload ← property (some message) "payload"
      let errors := extractSubscriptionErrors payload
      if 0 < errors.length then
        return settle options address
          (some ("Indexer rejected the subscription: " ++ String.intercalate "; " errors)) w
      match ← parseUnshieldedEvent payload with
      | none => return w
      | some event =>
        let folded := { w with state := applyUnshieldedEvent w.state event address }
        let noted := match event with
          | .progress _ => { folded with sawProgress := true }
          | .transaction _ => { folded with lastTransactionAt := now }
        return noted.updateCaughtUp
    | "error" =>
      let payload ← property (some message) "payload"
      let errors := extractSubscriptionErrors payload
      let detail :=
        if 0 < errors.length then String.intercalate "; " errors
        else match payload with
          | some payload => payload.stringify
          | none => "undefined"
      return settle options address (some ("Indexer subscription failed: " ++ detail)) w
    | "complete" => return settle options address none w.updateCaughtUp
    | _ => return w

/-- The poll. -/
def onPoll (now : ℤ) (w : Watcher) : Watcher :=
  if w.settled then w
  else if options.waitForFunding then
    if 0 < w.state.unspent.entries.length then settle options address none w else w
  else if w.caughtUp ∧ options.idleMs ≤ now - w.lastTransactionAt then
    settle options address none w
  else w

/-- What the watcher does on an event. -/
def handle (event : SocketEvent) (w : Watcher) : Except TypeError Watcher :=
  match event with
  | .opened => .ok (w.send connectionInit)
  | .message received now => onMessage options address received now w
  | .error reason => .ok (settle options address (some reason) w)
  | .closed => .ok (settle options address none w.updateCaughtUp)
  | .poll now => .ok (onPoll options address now w)
  | .deadline => .ok (settle options address none w)

end

/-! ### Reactions to messages -/

/-- What a message makes the watcher do. -/
inductive Reaction
  | ignore
  | reply (text : String)
  | fold (event : UnshieldedEvent)
  | finish (error : Option String)

def messageKind (message : Json) : String :=
  match message.own "type" with
  | some (.string type) => type
  | _ => ""

/-- The reason of a rejection by an error message. -/
def failureDetail (payload : Option Json) : String :=
  let errors := extractSubscriptionErrors payload
  if 0 < errors.length then String.intercalate "; " errors
  else match payload with
    | some payload => payload.stringify
    | none => "undefined"

/-- The reaction to a message that is not null. -/
def messageReaction (address : String) (message : Json) : Except TypeError Reaction :=
  let payload := message.own "payload"
  let errors := extractSubscriptionErrors payload
  match messageKind message with
  | "connection_ack" => .ok (.reply (subscribe address))
  | "ping" => .ok (.reply pong)
  | "next" =>
    if 0 < errors.length then
      .ok (.finish (some ("Indexer rejected the subscription: " ++
        String.intercalate "; " errors)))
    else parseUnshieldedEvent payload >>= fun
      | none => .ok .ignore
      | some event => .ok (.fold event)
  | "error" => .ok (.finish (some ("Indexer subscription failed: " ++ failureDetail payload)))
  | "complete" => .ok (.finish none)
  | _ => .ok .ignore

/-- The reaction to a received text, or the exception that it makes the handler throw. -/
def reaction (address : String) (received : Option Json) : Except TypeError Reaction :=
  match received with
  | none => .ok .ignore
  | some .null => .error (.noProperties "type")
  | some message => messageReaction address message

theorem reaction_of_ne_null {address : String} {message : Json} (h : message ≠ .null) :
    reaction address (some message) = messageReaction address message := by
  cases message with
  | null => exact absurd rfl h
  | _ => rfl

/-- The watcher after an event of the subscription. -/
def Watcher.note (w : Watcher) (address : String) (now : ℤ) (event : UnshieldedEvent) : Watcher :=
  let folded := { w with state := applyUnshieldedEvent w.state event address }
  match event with
  | .progress _ => { folded with sawProgress := true }.updateCaughtUp
  | .transaction _ => { folded with lastTransactionAt := now }.updateCaughtUp

/-- The watcher after a reaction. -/
def perform (options : WatchUnshieldedOptions) (address : String) (now : ℤ) (w : Watcher) :
    Reaction → Watcher
  | .ignore => w
  | .reply text => w.send text
  | .fold event => w.note address now event
  | .finish none => settle options address none w.updateCaughtUp
  | .finish (some reason) => settle options address (some reason) w

/-! ### What the parts of the watcher change -/

@[simp] theorem updateCaughtUp_state (w : Watcher) : w.updateCaughtUp.state = w.state := by
  unfold Watcher.updateCaughtUp
  split_ifs <;> rfl

@[simp] theorem updateCaughtUp_outcome (w : Watcher) : w.updateCaughtUp.outcome = w.outcome := by
  unfold Watcher.updateCaughtUp
  split_ifs <;> rfl

@[simp] theorem note_state (w : Watcher) (address : String) (now : ℤ) (event : UnshieldedEvent) :
    (w.note address now event).state = applyUnshieldedEvent w.state event address := by
  cases event <;> simp [Watcher.note]

@[simp] theorem note_outcome (w : Watcher) (address : String) (now : ℤ)
    (event : UnshieldedEvent) : (w.note address now event).outcome = w.outcome := by
  cases event <;> simp [Watcher.note]

section

variable {options : WatchUnshieldedOptions} {address : String}

@[simp] theorem settle_state (error : Option String) (w : Watcher) :
    (settle options address error w).state = w.state := by
  unfold settle
  split_ifs <;> rfl

/-- A settled promise stays as it is. -/
theorem settle_of_settled {error : Option String} {w : Watcher} (h : w.settled = true) :
    settle options address error w = w := by
  unfold settle
  rw [if_pos h]

/-- A promise that is open settles with what the watcher has. -/
theorem settle_outcome_of_open {error : Option String} {w : Watcher} (h : w.outcome = none) :
    (settle options address error w).outcome = some (match error with
      | none => .resolved (toUnshieldedBalance w.state address options.tipHeight w.caughtUp)
      | some reason => .rejected reason) := by
  unfold settle
  rw [if_neg (by simp [Watcher.settled, h])]

theorem settle_settled (error : Option String) (w : Watcher) :
    (settle options address error w).settled = true := by
  unfold settle
  split_ifs with hsettled
  · exact hsettled
  · rfl

/-- The message handler performs one reaction, which depends on the message alone. -/
theorem onMessage_eq (received : Option Json) (now : ℤ) (w : Watcher) :
    onMessage options address received now w =
      reaction address received >>= fun reaction ↦
        .ok (perform options address now w reaction) := by
  match received with
  | none => rfl
  | some .null => rfl
  | some (.bool _) => rfl
  | some (.number _) => rfl
  | some (.string _) => rfl
  | some (.array _) => rfl
  | some (.object fields) =>
    simp only [onMessage, reaction, messageReaction, messageKind]
    rw [property_of_ne_null (by simp), ok_bind, property_of_ne_null (by simp)]
    simp only [ok_bind]
    split
    · rfl
    · rfl
    · split_ifs
      · rfl
      · cases parseUnshieldedEvent ((Json.object fields).own "payload") with
        | error error => rfl
        | ok event =>
          cases event with
          | none => rfl
          | some event => cases event <;> rfl
    · rfl
    · rfl
    · rfl

end

/-! ### Which messages are handled -/

/-- A message that is no document, or a document other than null whose payload is readable when it
is an event of the subscription. -/
def messageReadable (received : Option Json) : Bool :=
  match received with
  | none => true
  | some .null => false
  | some message =>
    if messageKind message = "next" ∧ extractSubscriptionErrors (message.own "payload") = [] then
      payloadReadable (message.own "payload")
    else true

theorem exists_messageReaction_iff (address : String) (message : Json) :
    (∃ result, messageReaction address message = .ok result) ↔
      (messageKind message = "next" →
        extractSubscriptionErrors (message.own "payload") = [] →
          payloadReadable (message.own "payload") = true) := by
  simp only [messageReaction]
  split
  · simp_all
  · simp_all
  · rename_i hkind
    split_ifs with herrors
    · have hne : extractSubscriptionErrors (message.own "payload") ≠ [] :=
        List.length_pos_iff.mp herrors
      simp [hne]
    · have hempty : extractSubscriptionErrors (message.own "payload") = [] := by
        simpa using herrors
      simp only [hempty, hkind, forall_const, ← exists_parseUnshieldedEvent_iff]
      cases parseUnshieldedEvent (message.own "payload") with
      | error error => simp [bind, Except.bind]
      | ok event => cases event <;> simp
  · simp_all
  · simp_all
  · simp_all

theorem messageReadable_iff_of_ne_null {message : Json} (h : message ≠ .null) :
    messageReadable (some message) = true ↔
      (messageKind message = "next" →
        extractSubscriptionErrors (message.own "payload") = [] →
          payloadReadable (message.own "payload") = true) := by
  have hreadable : messageReadable (some message) =
      if messageKind message = "next" ∧ extractSubscriptionErrors (message.own "payload") = [] then
        payloadReadable (message.own "payload")
      else true := by
    cases message with
    | null => exact absurd rfl h
    | _ => rfl
  rw [hreadable]
  split_ifs with hnext
  · simp [hnext.1, hnext.2]
  · simp only [true_iff]
    exact fun hkind herrors ↦ absurd ⟨hkind, herrors⟩ hnext

theorem exists_reaction_iff (address : String) (received : Option Json) :
    (∃ result, reaction address received = .ok result) ↔ messageReadable received = true := by
  cases received with
  | none => simp [reaction, messageReadable]
  | some message =>
    by_cases hnull : message = .null
    · subst hnull
      simp [reaction, messageReadable]
    · rw [reaction_of_ne_null hnull, messageReadable_iff_of_ne_null hnull]
      exact exists_messageReaction_iff address message

section

variable (options : WatchUnshieldedOptions) (address : String)

/-- The message handler returns for exactly the messages that are readable. -/
theorem exists_onMessage_iff (received : Option Json) (now : ℤ) (w : Watcher) :
    (∃ next, onMessage options address received now w = .ok next) ↔
      messageReadable received = true := by
  rw [onMessage_eq, exists_bind_eq_ok_iff fun _ ↦ ⟨fun _ ↦ trivial, fun _ ↦ ⟨_, rfl⟩⟩, and_true,
    exists_reaction_iff]

/-- The message handler throws for exactly the messages that are not readable. A message that does
not make it throw is ignored, answered, folded as one event, or leaves the promise settled. -/
theorem handler_total_iff (received : Option Json) (now : ℤ) (w : Watcher) :
    (∃ next, onMessage options address received now w = .ok next ∧
      (next = w ∨ (∃ text, next = w.send text) ∨
        (∃ event, next.state = applyUnshieldedEvent w.state event address ∧
          next.outcome = w.outcome) ∨
        (next.state = w.state ∧ next.settled = true))) ↔
      messageReadable received = true := by
  constructor
  · rintro ⟨next, hnext, _⟩
    exact (exists_onMessage_iff options address received now w).mp ⟨next, hnext⟩
  · intro hreadable
    obtain ⟨result, hresult⟩ := (exists_reaction_iff address received).mpr hreadable
    refine ⟨perform options address now w result, by rw [onMessage_eq, hresult, ok_bind], ?_⟩
    cases result with
    | ignore => exact Or.inl rfl
    | reply text => exact Or.inr (Or.inl ⟨text, rfl⟩)
    | fold event =>
      exact Or.inr (Or.inr (Or.inl ⟨event, note_state w address now event,
        note_outcome w address now event⟩))
    | finish error =>
      refine Or.inr (Or.inr (Or.inr ?_))
      cases error with
      | none => exact ⟨by simp [perform], settle_settled _ _⟩
      | some reason => exact ⟨by simp [perform], settle_settled _ _⟩

end

/-- The text `null` makes the message handler of a fresh watcher throw. -/
theorem null_throws :
    onMessage ⟨false, 5000, none⟩ sampleAddress (some .null) 0 (startWatcher 0) =
        .error (.noProperties "type") ∧
      ¬ ∃ next, onMessage ⟨false, 5000, none⟩ sampleAddress (some .null) 0 (startWatcher 0) =
        .ok next := by
  have hthrown : onMessage ⟨false, 5000, none⟩ sampleAddress (some .null) 0 (startWatcher 0) =
      .error (.noProperties "type") := rfl
  refine ⟨hthrown, ?_⟩
  rintro ⟨next, hnext⟩
  rw [hthrown] at hnext
  cases hnext

/-! ### Sample messages -/

/-- A message of a kind, with a payload. -/
def messageWith (kind : String) (payload : Json) : Option Json :=
  some (.object [("type", .string kind), ("payload", payload)])

/-- The drip to the sample address, and the transaction that spends it. -/
def dripMessage : Option Json := messageWith "next" (transactionPayload 7 [wireOutput "1000"] [])

def drainMessage : Option Json := messageWith "next" (transactionPayload 8 [] [wireOutput "1000"])

end SealedBid
