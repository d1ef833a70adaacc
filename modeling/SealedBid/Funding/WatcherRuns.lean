import SealedBid.Funding.Watcher

/-!
# Runs of the balance watcher

What a whole run of the watcher keeps. `handle_cases` says once what an event can do: it delivers an
event of the subscription, which is folded; it is without effect on the answer; or it settles the
promise. From it, the state of a watcher is the fold of the events delivered so far, and its
caught-up flag is read off that state (`Tracks`, `tracks_of_run`); a settled promise keeps its
outcome (`settled_of_run`); and a promise that is settled was settled by one event, at which the
outcome is the answer of that moment or, for a failure, a rejection (`settlement_of_run`).

Scope. A run in which the message handler throws ends the process; the runs here are those in which
it does not, those whose messages are readable (`exists_run_iff`).
-/

set_option autoImplicit false
set_option relaxedAutoImplicit false

namespace SealedBid

open FailSafeRun

/-! ### What an event delivers -/

/-- A message that rejects the subscription: an error message, or an event with errors. -/
def rejectsSubscription (received : Option Json) : Bool :=
  match received with
  | none => false
  | some message =>
    messageKind message = "error" ∨
      (messageKind message = "next" ∧ extractSubscriptionErrors (message.own "payload") ≠ [])

/-- The event of the subscription that a message delivers. -/
def deliveredEvent (received : Option Json) : Option UnshieldedEvent :=
  match received with
  | none => none
  | some message =>
    if messageKind message = "next" ∧ extractSubscriptionErrors (message.own "payload") = [] then
      decodedEvent (message.own "payload")
    else none

/-- The event of the subscription that an event of the socket delivers. -/
def SocketEvent.delivered : SocketEvent → Option UnshieldedEvent
  | .message received _ => deliveredEvent received
  | _ => none

/-- A socket error, or a message that rejects the subscription. -/
def SocketEvent.isFailure : SocketEvent → Bool
  | .message received _ => rejectsSubscription received
  | .error _ => true
  | _ => false

/-- A failure, the end of the subscription or of the connection, or the deadline. -/
def SocketEvent.endsWatch : SocketEvent → Bool
  | .message received _ =>
    rejectsSubscription received || received.any fun message ↦ messageKind message = "complete"
  | .error _ => true
  | .closed => true
  | .deadline => true
  | _ => false

/-- The events of the subscription that a run of the socket delivers. -/
def deliveredEvents (events : List SocketEvent) : List UnshieldedEvent :=
  events.filterMap SocketEvent.delivered

/-- What a message delivers and whether it rejects the subscription is read off its reaction. -/
theorem delivered_of_reaction {address : String} {received : Option Json} {result : Reaction}
    (h : reaction address received = .ok result) :
    (deliveredEvent received = match result with
      | .fold event => some event
      | _ => none) ∧
    (rejectsSubscription received = match result with
      | .finish (some _) => true
      | _ => false) := by
  cases received with
  | none =>
    cases h
    exact ⟨rfl, rfl⟩
  | some message =>
    have hnull : message ≠ .null := by
      rintro rfl
      cases h
    rw [reaction_of_ne_null hnull] at h
    simp only [messageReaction] at h
    split at h
    · rename_i hkind
      cases h
      simp [deliveredEvent, rejectsSubscription, hkind]
    · rename_i hkind
      cases h
      simp [deliveredEvent, rejectsSubscription, hkind]
    · rename_i hkind
      split_ifs at h with herrors
      · cases h
        have hne := List.length_pos_iff.mp herrors
        simp [deliveredEvent, rejectsSubscription, hkind, hne]
      · have hempty : extractSubscriptionErrors (message.own "payload") = [] := by
          simpa using herrors
        obtain ⟨event, hevent, hresult⟩ := bind_eq_ok_iff.mp h
        cases event <;> cases hresult <;>
          simp [deliveredEvent, rejectsSubscription, hkind, hempty, decodedEvent, hevent]
    · rename_i hkind
      cases h
      simp [deliveredEvent, rejectsSubscription, hkind]
    · rename_i hkind
      cases h
      simp [deliveredEvent, rejectsSubscription, hkind]
    · rename_i hnotNext hnotError _
      have hnext : messageKind message ≠ "next" := hnotNext
      have herror : messageKind message ≠ "error" := hnotError
      cases h
      simp [deliveredEvent, rejectsSubscription, hnext, herror]

section

variable {options : WatchUnshieldedOptions} {address : String}

/-- What an event does to a watcher. -/
theorem handle_cases {event : SocketEvent} {w next : Watcher}
    (h : handle options address event w = .ok next) :
    (∃ folded now, event.delivered = some folded ∧ event.isFailure = false ∧
        next = w.note address now folded) ∨
      (event.delivered = none ∧ event.isFailure = false ∧
        (next = w ∨ ∃ text, next = w.send text)) ∨
      (event.delivered = none ∧ event.isFailure = true ∧
        ∃ reason, next = settle options address (some reason) w) ∨
      (event.delivered = none ∧ event.isFailure = false ∧
        (next = settle options address none w ∨
          next = settle options address none w.updateCaughtUp)) := by
  cases event with
  | opened =>
    cases h
    exact Or.inr (Or.inl ⟨rfl, rfl, Or.inr ⟨connectionInit, rfl⟩⟩)
  | message received now =>
    rw [handle, onMessage_eq] at h
    obtain ⟨result, hresult, hnext⟩ := bind_eq_ok_iff.mp h
    obtain ⟨hdelivered, hfailure⟩ := delivered_of_reaction hresult
    cases hnext
    cases result with
    | ignore => exact Or.inr (Or.inl ⟨hdelivered, hfailure, Or.inl rfl⟩)
    | reply text => exact Or.inr (Or.inl ⟨hdelivered, hfailure, Or.inr ⟨text, rfl⟩⟩)
    | fold folded => exact Or.inl ⟨folded, now, hdelivered, hfailure, rfl⟩
    | finish error =>
      cases error with
      | none => exact Or.inr (Or.inr (Or.inr ⟨hdelivered, hfailure, Or.inr rfl⟩))
      | some reason => exact Or.inr (Or.inr (Or.inl ⟨hdelivered, hfailure, reason, rfl⟩))
  | error reason =>
    cases h
    exact Or.inr (Or.inr (Or.inl ⟨rfl, rfl, reason, rfl⟩))
  | closed =>
    cases h
    exact Or.inr (Or.inr (Or.inr ⟨rfl, rfl, Or.inr rfl⟩))
  | poll now =>
    cases h
    unfold onPoll
    split_ifs
    · exact Or.inr (Or.inl ⟨rfl, rfl, Or.inl rfl⟩)
    · exact Or.inr (Or.inr (Or.inr ⟨rfl, rfl, Or.inl rfl⟩))
    · exact Or.inr (Or.inl ⟨rfl, rfl, Or.inl rfl⟩)
    · exact Or.inr (Or.inr (Or.inr ⟨rfl, rfl, Or.inl rfl⟩))
    · exact Or.inr (Or.inl ⟨rfl, rfl, Or.inl rfl⟩)
  | deadline =>
    cases h
    exact Or.inr (Or.inr (Or.inr ⟨rfl, rfl, Or.inl rfl⟩))

/-! ### Runs in which the handler does not throw -/

/-- A message that the handler can read, or an event that is no message. -/
def SocketEvent.readable : SocketEvent → Bool
  | .message received _ => messageReadable received
  | _ => true

theorem exists_handle_iff (w : Watcher) (event : SocketEvent) :
    (∃ next, handle options address event w = .ok next) ↔ event.readable = true := by
  cases event with
  | message received now => exact exists_onMessage_iff options address received now w
  | _ => simp [handle, SocketEvent.readable]

/-- A run does not throw exactly when every message of it is readable. -/
theorem exists_run_iff (w : Watcher) (events : List SocketEvent) :
    (∃ final, runAll (handle options address) w events = .ok final) ↔
      ∀ event ∈ events, event.readable = true :=
  exists_runAll_iff exists_handle_iff w events

/-! ### The state of a watcher is the fold of what was delivered -/

/-- The replay has reached the announced tip. -/
def UnshieldedLedgerState.atTip (state : UnshieldedLedgerState) : Bool :=
  state.highestTransactionId = .zero ∨ state.highestTransactionId.le state.lastTransactionId

/-- The variables of a watcher after some events of the subscription. -/
structure Tracks (address : String) (events : List UnshieldedEvent) (w : Watcher) : Prop where
  state_eq : w.state = foldHistory address events
  sawProgress_eq : w.sawProgress = events.any fun event ↦ !event.isTransaction
  caughtUp_eq : w.caughtUp = (w.sawProgress && w.state.atTip)

theorem updateCaughtUp_eq (w : Watcher) :
    w.updateCaughtUp = if w.sawProgress then { w with caughtUp := w.state.atTip } else w := by
  cases hprogress : w.sawProgress <;>
    simp [Watcher.updateCaughtUp, UnshieldedLedgerState.atTip, hprogress]

section

variable {events : List UnshieldedEvent} {w : Watcher}

/-- A watcher that tracks a history has nothing to update. -/
theorem Tracks.updateCaughtUp (h : Tracks address events w) : w.updateCaughtUp = w := by
  have hcaughtUp := h.caughtUp_eq
  rw [updateCaughtUp_eq]
  split_ifs with hprogress
  · rw [hprogress, Bool.true_and] at hcaughtUp
    rw [← hcaughtUp]
  · rfl

/-- Updating the flag makes a watcher track whatever its other variables track. -/
theorem tracks_updateCaughtUp (hstate : w.state = foldHistory address events)
    (hprogress : w.sawProgress = events.any fun event ↦ !event.isTransaction)
    (hcaughtUp : w.sawProgress = false → w.caughtUp = false) :
    Tracks address events w.updateCaughtUp := by
  rw [updateCaughtUp_eq]
  split_ifs with hsaw
  · exact ⟨hstate, hprogress, by simp [hsaw]⟩
  · rw [Bool.not_eq_true] at hsaw
    exact ⟨hstate, hprogress, by rw [hsaw, hcaughtUp hsaw, Bool.false_and]⟩

theorem Tracks.of_note (h : Tracks address events w) (now : ℤ) (event : UnshieldedEvent) :
    Tracks address (events ++ [event]) (w.note address now event) := by
  have hstate : applyUnshieldedEvent w.state event address =
      foldHistory address (events ++ [event]) := by
    rw [foldHistory_concat, h.state_eq]
  cases event with
  | transaction transaction =>
    refine tracks_updateCaughtUp hstate ?_ ?_
    · simp [h.sawProgress_eq, UnshieldedEvent.isTransaction]
    · intro hsaw
      have hcaughtUp := h.caughtUp_eq
      rw [show w.sawProgress = false from hsaw, Bool.false_and] at hcaughtUp
      exact hcaughtUp
  | progress highest =>
    refine tracks_updateCaughtUp hstate ?_ ?_
    · simp [UnshieldedEvent.isTransaction]
    · intro hsaw
      cases hsaw

theorem Tracks.of_settle (h : Tracks address events w) (error : Option String) :
    Tracks address events (settle options address error w) := by
  unfold settle
  split_ifs
  · exact h
  · exact ⟨h.state_eq, h.sawProgress_eq, h.caughtUp_eq⟩

/-- An event extends the tracked history by what it delivers. -/
theorem Tracks.of_handle (h : Tracks address events w) {event : SocketEvent} {next : Watcher}
    (hhandle : handle options address event w = .ok next) :
    Tracks address (events ++ event.delivered.toList) next := by
  rcases handle_cases hhandle with ⟨folded, now, hdelivered, _, rfl⟩ |
    ⟨hdelivered, _, rfl | ⟨text, rfl⟩⟩ | ⟨hdelivered, _, reason, rfl⟩ | ⟨hdelivered, _, rfl | rfl⟩
  · rw [hdelivered]
    exact h.of_note now folded
  · rw [hdelivered, Option.toList_none, List.append_nil]
    exact h
  · rw [hdelivered, Option.toList_none, List.append_nil]
    exact ⟨h.state_eq, h.sawProgress_eq, h.caughtUp_eq⟩
  · rw [hdelivered, Option.toList_none, List.append_nil]
    exact h.of_settle (some reason)
  · rw [hdelivered, Option.toList_none, List.append_nil]
    exact h.of_settle none
  · rw [hdelivered, Option.toList_none, List.append_nil, h.updateCaughtUp]
    exact h.of_settle none

end

theorem tracks_start (now : ℤ) : Tracks address [] (startWatcher now) := ⟨rfl, rfl, rfl⟩

/-- After every run a watcher tracks the events that were delivered. -/
theorem tracks_of_run {now : ℤ} {events : List SocketEvent} {w : Watcher}
    (h : runAll (handle options address) (startWatcher now) events = .ok w) :
    Tracks address (deliveredEvents events) w := by
  refine runAll_history (fun w events ↦ Tracks address (deliveredEvents events) w) ?_
    (tracks_start now) h
  intro w events event next htracks hhandle
  have hdelivered : deliveredEvents (events ++ [event]) =
      deliveredEvents events ++ event.delivered.toList := by
    rw [deliveredEvents, List.filterMap_append, List.filterMap_cons]
    cases event.delivered <;> rfl
  rw [hdelivered]
  exact htracks.of_handle hhandle

/-! ### Settling -/

/-- An event keeps the outcome of a settled promise. -/
theorem settled_of_handle {event : SocketEvent} {w next : Watcher} {outcome : Settlement}
    (h : handle options address event w = .ok next) (hsettled : w.outcome = some outcome) :
    next.outcome = some outcome := by
  have hw : w.settled = true := by rw [Watcher.settled, hsettled, Option.isSome_some]
  rcases handle_cases h with ⟨folded, now, _, _, rfl⟩ | ⟨_, _, rfl | ⟨text, rfl⟩⟩ |
    ⟨_, _, reason, rfl⟩ | ⟨_, _, rfl | rfl⟩
  · rw [note_outcome, hsettled]
  · exact hsettled
  · exact hsettled
  · rw [settle_of_settled hw, hsettled]
  · rw [settle_of_settled hw, hsettled]
  · have hupdated : w.updateCaughtUp.settled = true := by
      rw [Watcher.settled, updateCaughtUp_outcome, hsettled, Option.isSome_some]
    rw [settle_of_settled hupdated, updateCaughtUp_outcome, hsettled]

/-- No later event changes the outcome of a settled promise. -/
theorem settled_of_run {events : List SocketEvent} {w later : Watcher} {outcome : Settlement}
    (h : runAll (handle options address) w events = .ok later)
    (hsettled : w.outcome = some outcome) : later.outcome = some outcome :=
  runAll_history (fun w _ ↦ w.outcome = some outcome)
    (fun _ _ _ _ houtcome hhandle ↦ settled_of_handle hhandle houtcome) hsettled h

/-- The event that settles an open promise rejects it when it is a failure, and otherwise resolves
it with the answer of that moment. -/
theorem settlement_of_handle {delivered : List UnshieldedEvent} {event : SocketEvent}
    {w next : Watcher} {outcome : Settlement} (htracks : Tracks address delivered w)
    (h : handle options address event w = .ok next) (hopen : w.outcome = none)
    (hsettled : next.outcome = some outcome) :
    (event.isFailure = true ∧ ∃ reason, outcome = .rejected reason) ∨
      (event.isFailure = false ∧
        outcome = .resolved
          (toUnshieldedBalance (foldHistory address delivered) address options.tipHeight
            w.caughtUp)) := by
  rcases handle_cases h with ⟨folded, now, _, _, rfl⟩ | ⟨_, _, rfl | ⟨text, rfl⟩⟩ |
    ⟨_, hfailure, reason, rfl⟩ | ⟨_, hfailure, rfl | rfl⟩
  · rw [note_outcome, hopen] at hsettled
    cases hsettled
  · rw [hopen] at hsettled
    cases hsettled
  · rw [Watcher.send, hopen] at hsettled
    cases hsettled
  · rw [settle_outcome_of_open hopen] at hsettled
    cases hsettled
    exact Or.inl ⟨hfailure, reason, rfl⟩
  · rw [settle_outcome_of_open hopen] at hsettled
    cases hsettled
    exact Or.inr ⟨hfailure, by rw [htracks.state_eq]⟩
  · rw [htracks.updateCaughtUp, settle_outcome_of_open hopen] at hsettled
    cases hsettled
    exact Or.inr ⟨hfailure, by rw [htracks.state_eq]⟩

/-- A message that ends the watch makes the watcher settle its promise. -/
theorem finish_of_endsWatch {received : Option Json} {now : ℤ} {result : Reaction}
    (h : reaction address received = .ok result)
    (hends : (SocketEvent.message received now).endsWatch = true) :
    ∃ error, result = .finish error := by
  rw [SocketEvent.endsWatch, Bool.or_eq_true] at hends
  rcases hends with hrejects | hcomplete
  · have hfailure := (delivered_of_reaction h).2
    rw [hrejects] at hfailure
    cases result with
    | finish error => exact ⟨error, rfl⟩
    | _ => cases hfailure
  · cases received with
    | none => cases hcomplete
    | some message =>
      have hkind : messageKind message = "complete" := by simpa using hcomplete
      have hnull : message ≠ .null := by
        rintro rfl
        cases h
      rw [reaction_of_ne_null hnull, messageReaction, hkind] at h
      cases h
      exact ⟨none, rfl⟩

/-- After an event that ends the watch the promise is settled. -/
theorem settled_of_endsWatch {event : SocketEvent} {w next : Watcher}
    (h : handle options address event w = .ok next) (hends : event.endsWatch = true) :
    next.outcome ≠ none := by
  rw [← Option.isSome_iff_ne_none, ← Watcher.settled]
  cases event with
  | opened => cases hends
  | message received now =>
    rw [handle, onMessage_eq] at h
    obtain ⟨result, hresult, hnext⟩ := bind_eq_ok_iff.mp h
    obtain ⟨error, rfl⟩ := finish_of_endsWatch hresult hends
    cases hnext
    cases error <;> exact settle_settled _ _
  | error reason =>
    cases h
    exact settle_settled _ _
  | closed =>
    cases h
    exact settle_settled _ _
  | poll now => cases hends
  | deadline =>
    cases h
    exact settle_settled _ _

/-- The first settling event of a run: the promise is open before it and settled after it. -/
def SettlesFirst (options : WatchUnshieldedOptions) (address : String) (now : ℤ)
    (before : List SocketEvent) (event : SocketEvent) : Prop :=
  ∃ w next, runAll (handle options address) (startWatcher now) before = .ok w ∧
    w.outcome = none ∧ handle options address event w = .ok next ∧ next.outcome ≠ none

/-- A settled run has a first settling event. The outcome is a rejection when that event is a
failure, and otherwise the answer of that moment. -/
theorem settlement_of_run {now : ℤ} {events : List SocketEvent} {final : Watcher}
    {outcome : Settlement}
    (h : runAll (handle options address) (startWatcher now) events = .ok final)
    (hsettled : final.outcome = some outcome) :
    ∃ before event after, events = before ++ event :: after ∧
      SettlesFirst options address now before event ∧
        ((event.isFailure = true ∧ ∃ reason, outcome = .rejected reason) ∨
          (event.isFailure = false ∧
            outcome = .resolved
              (toUnshieldedBalance (foldHistory address (deliveredEvents before)) address
                options.tipHeight
                ((deliveredEvents before).any (fun event ↦ !event.isTransaction) &&
                  (foldHistory address (deliveredEvents before)).atTip)))) := by
  obtain ⟨before, event, after, w, next, hsplit, hbefore, hopen, hhandle, hnext, hafter⟩ :=
    exists_turn_of_runAll (fun w ↦ w.outcome ≠ none) (by simp [startWatcher]) h
      (by simp [hsettled])
  have hopen : w.outcome = none := not_not.mp hopen
  obtain ⟨settled, hsettlement⟩ := Option.ne_none_iff_exists'.mp hnext
  have hsame : settled = outcome := by
    have hfinal := settled_of_run hafter hsettlement
    rw [hsettled] at hfinal
    exact (Option.some.inj hfinal).symm
  have htracks := tracks_of_run hbefore
  refine ⟨before, event, after, hsplit, ⟨w, next, hbefore, hopen, hhandle, hnext⟩, ?_⟩
  have houtcome := settlement_of_handle htracks hhandle hopen hsettlement
  rwa [hsame, htracks.caughtUp_eq, htracks.sawProgress_eq, htracks.state_eq] at houtcome

/-- While the promise is open no event has been a failure. -/
theorem no_failure_of_open {now : ℤ} {events : List SocketEvent} {w : Watcher}
    (h : runAll (handle options address) (startWatcher now) events = .ok w)
    (hopen : w.outcome = none) : ∀ event ∈ events, event.isFailure = false := by
  refine runAll_history
    (fun w events ↦ w.outcome = none → ∀ event ∈ events, event.isFailure = false) ?_ ?_ h hopen
  · intro w events event next hsofar hhandle hnext
    have hw : w.outcome = none := by
      cases houtcome : w.outcome with
      | none => rfl
      | some outcome =>
        rw [settled_of_handle hhandle houtcome] at hnext
        cases hnext
    intro other hother
    rcases List.mem_append.mp hother with hother | hother
    · exact hsofar hw other hother
    · rw [List.mem_singleton.mp hother]
      rcases handle_cases hhandle with ⟨_, _, _, hfailure, _⟩ | ⟨_, hfailure, _⟩ |
        ⟨_, _, reason, rfl⟩ | ⟨_, hfailure, _⟩
      · exact hfailure
      · exact hfailure
      · rw [settle_outcome_of_open hw] at hnext
        cases hnext
      · exact hfailure
  · intro _ event hevent
    cases hevent

/-- A run rejects exactly when its first settling event is a failure. -/
theorem rejected_iff_of_run {now : ℤ} {events : List SocketEvent} {final : Watcher}
    (h : runAll (handle options address) (startWatcher now) events = .ok final) :
    (∃ reason, final.outcome = some (.rejected reason)) ↔
      ∃ before event after, events = before ++ event :: after ∧
        SettlesFirst options address now before event ∧ event.isFailure = true := by
  constructor
  · rintro ⟨reason, hrejected⟩
    obtain ⟨before, event, after, hsplit, hfirst, ⟨hfailure, _⟩ | ⟨_, hanswer⟩⟩ :=
      settlement_of_run h hrejected
    · exact ⟨before, event, after, hsplit, hfirst, hfailure⟩
    · cases hanswer
  · rintro ⟨before, event, after, rfl, ⟨w, next, hbefore, hopen, hhandle, hnext⟩, hfailure⟩
    obtain ⟨outcome, houtcome⟩ := Option.ne_none_iff_exists'.mp hnext
    obtain ⟨w', hbefore', hrest⟩ := runAll_append_eq_ok_iff.mp h
    obtain rfl : w = w' := Except.ok.inj (hbefore.symm.trans hbefore')
    rw [runAll, hhandle] at hrest
    have hfinal := settled_of_run hrest houtcome
    rcases settlement_of_handle (tracks_of_run hbefore) hhandle hopen houtcome with
      ⟨_, reason, rfl⟩ | ⟨hnot, _⟩
    · exact ⟨reason, hfinal⟩
    · rw [hfailure] at hnot
      cases hnot

end

end SealedBid
