import SealedBid.Funding.ReplayPositions
import SealedBid.Funding.WatcherRuns

/-!
# The funding check

`check-funding.ts`: the decision it takes on the outcome of the watcher (`exitCode`), and two
questions about the answers that the watcher gives before the replay is complete.

A watcher that stops early reports the balance of the part of the history it has seen. That is a
lower bound of the balance after the whole history exactly when the rest of the history spends no
more NIGHT of the address than it creates; an answer that claims to be caught up is not asked
(`lower_bound_iff`). Whether an answer claims so is read off the positions that were received
(`caughtUp_eq_replayedToTip`).

A watcher that waits for funding stops at the first poll at which the address has an unspent output,
and its caller asks whether the balance is positive. The two agree in every run in which every
output that was credited to the address before the poll has a positive value, and no other value
can be allowed (`poll_agrees_of_positive`).
-/

set_option autoImplicit false
set_option relaxedAutoImplicit false

namespace SealedBid

open FailSafeRun KeyedLog

/-- The exit code of the check: 0 funded, 1 not funded, 2 inconclusive. -/
def exitCode (outcome : Settlement) : ℕ :=
  match outcome with
  | .resolved answer =>
    if 0 < answer.balance then 0
    else if answer.caughtUp then 1
    else 2
  | .rejected _ => 2

theorem exitCode_eq_zero_iff (answer : UnshieldedBalance) :
    exitCode (.resolved answer) = 0 ↔ 0 < answer.balance := by
  simp only [exitCode]
  split_ifs <;> simp_all

/-! ### Stopping early -/

section

variable {options : WatchUnshieldedOptions} {address : String}

/-- The balance of the beginning of a history and of the whole history differ by what the rest
creates and spends. -/
theorem totalValue_unspentNight_append {seen rest : List UnshieldedEvent}
    (h : WellFormedHistory address (seen ++ rest)) :
    totalValue (unspentNight address (seen ++ rest)) =
      totalValue (unspentNight address seen) + totalValue (createdNight address rest) -
        totalValue (spentNight address rest) := by
  rw [h.totalValue_unspentNight, h.of_append.totalValue_unspentNight, createdNight, spentNight,
    List.flatMap_append, List.flatMap_append, totalValue, totalValue, List.map_append,
    List.map_append, List.sum_append, List.sum_append]
  simp only [totalValue, createdNight, spentNight]
  ring

/-- The events announce a tip and reach it: there is a marker, and the highest marker is zero or at
most the last transaction. -/
def replayedToTip (events : List UnshieldedEvent) : Bool :=
  let highest :=
    (markersOf events).foldl (fun seen marker ↦ if marker.le seen then seen else marker) .zero
  let last := (transactionIdsOf events).foldl Number.max .zero
  markersOf events ≠ [] ∧ (highest = .zero ∨ highest.le last)

/-- The flag of a watcher is read off the events that were delivered. -/
theorem caughtUp_eq_replayedToTip {events : List UnshieldedEvent} {w : Watcher}
    (h : Tracks address events w) : w.caughtUp = replayedToTip events := by
  rw [h.caughtUp_eq, h.sawProgress_eq, h.state_eq, UnshieldedLedgerState.atTip,
    highestTransactionId_eq_foldl, lastTransactionId_eq_foldl, replayedToTip, Bool.eq_iff_iff,
    Bool.and_eq_true, decide_eq_true_eq, decide_eq_true_eq, markersOf_ne_nil_iff]

/-- When an early answer is a lower bound. Assumes: a well-formed history, of which a run of the
watcher has received a part when an event settles its promise with an answer; `rest` is what it has
not received. If the answer does not claim to be caught up, the reported balance is at most the
balance after the whole history, and the check does not report an address as funded whose whole
history nets to zero. This is so exactly when the events received have reached the tip that they
announce, for then the answer claims to be caught up, or the rest spends no more than it creates. -/
theorem lower_bound_iff {start : ℤ} {events : List SocketEvent} {stop : SocketEvent}
    {w next : Watcher} {answer : UnshieldedBalance} {rest : List UnshieldedEvent}
    (hwellFormed : WellFormedHistory address (deliveredEvents events ++ rest))
    (hrun : runAll (handle options address) (startWatcher start) events = .ok w)
    (hopen : w.outcome = none) (hstop : handle options address stop w = .ok next)
    (hanswer : next.outcome = some (.resolved answer)) :
    let whole := totalValue (unspentNight address (deliveredEvents events ++ rest))
    (answer.caughtUp = false →
      answer.balance ≤ whole ∧ (whole = 0 → exitCode (.resolved answer) ≠ 0)) ↔
      replayedToTip (deliveredEvents events) = true ∨
        totalValue (spentNight address rest) ≤ totalValue (createdNight address rest) := by
  intro whole
  obtain ⟨hbalance, hcaughtUp⟩ :
      answer.balance = totalValue (unspentNight address (deliveredEvents events)) ∧
        answer.caughtUp = replayedToTip (deliveredEvents events) := by
    obtain ⟨_, _, hrejected⟩ | ⟨_, hresolved⟩ :=
      settlement_of_handle (tracks_of_run hrun) hstop hopen hanswer
    · cases hrejected
    · rw [Settlement.resolved.inj hresolved]
      exact ⟨hwellFormed.of_append.balance_eq options.tipHeight _,
        caughtUp_eq_replayedToTip (tracks_of_run hrun)⟩
  have hwhole : whole = answer.balance + totalValue (createdNight address rest) -
      totalValue (spentNight address rest) := by
    rw [hbalance]
    exact totalValue_unspentNight_append hwellFormed
  rw [ne_eq, exitCode_eq_zero_iff, hcaughtUp]
  by_cases htip : replayedToTip (deliveredEvents events) = true
  · exact iff_of_true (fun hstopped ↦ absurd htip (by simp [hstopped])) (Or.inl htip)
  · constructor
    · intro hbound
      have hle := (hbound (by simpa using htip)).1
      exact Or.inr (by omega)
    · rintro (hreached | hflows) _
      · exact absurd hreached htip
      · exact ⟨by omega, fun hzero ↦ by omega⟩

end

/-- The deadline passes between the drip and its dust registration, which spends the drip and
creates its value again: the balance of 1000 is a lower bound, and the check may report it. -/
theorem lower_bound_iff_registered :
    let events : List SocketEvent := [.message dripMessage 0]
    let answer := toUnshieldedBalance (foldHistory sampleAddress [.transaction drip])
      sampleAddress none false
    let whole := totalValue (unspentNight sampleAddress registeredHistory)
    (runAll (handle ⟨false, 5000, none⟩ sampleAddress) (startWatcher 0)
        (events ++ [.deadline])).map Watcher.outcome = .ok (some (.resolved answer)) ∧
      answer.balance = 1000 ∧ exitCode (.resolved answer) = 0 ∧
      answer.balance ≤ whole ∧ (whole = 0 → exitCode (.resolved answer) ≠ 0) := by
  intro events answer whole
  have hwellFormed : WellFormedHistory sampleAddress
      (deliveredEvents events ++ [.transaction registration]) := by
    have hdelivered : deliveredEvents events = [.transaction drip] := by decide +kernel
    rw [hdelivered]
    exact registeredHistory_wellFormed
  have hstopped : (runAll (handle ⟨false, 5000, none⟩ sampleAddress) (startWatcher 0)
      (events ++ [.deadline])).map Watcher.outcome = .ok (some (.resolved answer)) := by
    decide +kernel
  have houtcome : (runAll (handle ⟨false, 5000, none⟩ sampleAddress) (startWatcher 0)
      events).map Watcher.outcome = .ok none := by
    decide +kernel
  obtain ⟨w, hrun, hopen⟩ := map_eq_ok_iff.mp houtcome
  obtain ⟨next, hnext, hanswer⟩ := map_eq_ok_iff.mp hstopped
  obtain ⟨w', hrun', hstop⟩ := runAll_append_eq_ok_iff.mp hnext
  obtain rfl : w = w' := Except.ok.inj (hrun.symm.trans hrun')
  have hdeadline : handle ⟨false, 5000, none⟩ sampleAddress .deadline w = .ok next := hstop
  have hbound := lower_bound_iff hwellFormed hrun hopen hdeadline hanswer
  exact ⟨hstopped, by decide +kernel, by decide +kernel,
    hbound.mpr (Or.inr (by decide +kernel)) rfl⟩

/-- The deadline passes between the drip and the transaction that spends it: the watcher reports a
balance of 1000 as not caught up, and the check reports the address as funded, though nothing is
left of the drip after the whole history. -/
theorem partial_balance_drained :
    let events : List SocketEvent := [.message dripMessage 0, .deadline]
    let answer := toUnshieldedBalance (foldHistory sampleAddress [.transaction drip])
      sampleAddress none false
    WellFormedHistory sampleAddress drainedHistory ∧
      (∀ utxo ∈ createdNight sampleAddress drainedHistory, 0 ≤ utxo.value) ∧
      deliveredEvents events ++ [.transaction drain] = drainedHistory ∧
      (runAll (handle ⟨false, 5000, none⟩ sampleAddress) (startWatcher 0) events).map
        Watcher.outcome = .ok (some (.resolved answer)) ∧
      answer.caughtUp = false ∧
      ¬ answer.balance ≤ totalValue (unspentNight sampleAddress drainedHistory) ∧
      totalValue (unspentNight sampleAddress drainedHistory) = 0 ∧
      exitCode (.resolved answer) = 0 := by
  intro events answer
  exact ⟨drainedHistory_wellFormed, by decide +kernel, by decide +kernel, by decide +kernel, rfl,
    by decide +kernel, by decide +kernel, by decide +kernel⟩

/-! ### Waiting for funding -/

/-- The outputs that the watcher holds as unspent after some events: the outputs of the address that
were created, and were not spent or created again under the same key since. -/
def outstanding (address : String) (events : List UnshieldedEvent) : List UnshieldedUtxo :=
  (pairs (replay (storeLog address events))).map Prod.snd

theorem created_of_outstanding {address : String} {events : List UnshieldedEvent} :
    ∀ utxo ∈ outstanding address events, utxo ∈ createdNight address events := by
  intro utxo hutxo
  obtain ⟨⟨key, value⟩, hpair, rfl⟩ := List.mem_map.mp hutxo
  have hput := mem_puts_of_lookup (mem_pairs_iff.mp hpair)
  rw [puts_storeLog] at hput
  obtain ⟨created, hcreated, hsame⟩ := List.mem_map.mp hput
  cases hsame
  exact hcreated

/-- The unspent map of a fold holds the outstanding outputs. -/
theorem map_value_unspent (address : String) (events : List UnshieldedEvent) :
    ((foldHistory address events).unspent.entries.map fun entry ↦ entry.2.value) =
      (outstanding address events).map UnshieldedUtxo.value := by
  rw [foldHistory_unspent, outstanding, pairs, List.map_map, List.map_map]
  rfl

theorem length_unspent (address : String) (events : List UnshieldedEvent) :
    (foldHistory address events).unspent.entries.length =
      (outstanding address events).length := by
  have hlengths := congrArg List.length (map_value_unspent address events)
  rwa [List.length_map, List.length_map] at hlengths

theorem balance_eq_outstanding (address : String) (events : List UnshieldedEvent)
    (tipHeight : Option Number) (caughtUp : Bool) :
    (toUnshieldedBalance (foldHistory address events) address tipHeight caughtUp).balance =
      totalValue (outstanding address events) := by
  rw [toUnshieldedBalance, map_value_unspent, totalValue]

/-- Outstanding outputs have a positive total when every output created has a positive value. -/
theorem totalValue_outstanding_pos {address : String} {events : List UnshieldedEvent}
    (hpositive : ∀ utxo ∈ createdNight address events, 0 < utxo.value)
    (hne : outstanding address events ≠ []) : 0 < totalValue (outstanding address events) := by
  refine List.sum_pos _ ?_ ?_
  · intro value hvalue
    obtain ⟨utxo, hutxo, rfl⟩ := List.mem_map.mp hvalue
    exact hpositive utxo (created_of_outstanding utxo hutxo)
  · rwa [ne_eq, List.map_eq_nil_iff]

/-- An output that an event credits to the address, and nothing else, is outstanding. -/
theorem outstanding_credit {address : String} {event : UnshieldedEvent} {utxo : UnshieldedUtxo}
    (hcreated : createdBy address event = [utxo]) (hspent : spentBy address event = []) :
    outstanding address [event] = [utxo] := by
  rw [outstanding, storeLog, List.flatMap_singleton, storeLogOf, hcreated, hspent]
  rfl

section

variable {options : WatchUnshieldedOptions} {address : String}

/-- The poll of a watcher that waits for funding settles when an output is outstanding. -/
theorem poll_of_waiting {start : ℤ} {events : List SocketEvent} {w : Watcher}
    (hwaiting : options.waitForFunding = true)
    (hrun : runAll (handle options address) (startWatcher start) events = .ok w)
    (hopen : w.outcome = none) (now : ℤ) :
    handle options address (.poll now) w =
      .ok (if outstanding address (deliveredEvents events) = [] then w
        else settle options address none w) := by
  have hw : w.settled = false := by rw [Watcher.settled, hopen, Option.isSome_none]
  rw [handle, onPoll, hw, hwaiting, (tracks_of_run hrun).state_eq, length_unspent]
  by_cases hempty : outstanding address (deliveredEvents events) = []
  · simp [hempty]
  · simp [hempty, List.length_pos_iff]

/-- A poll that settles resolves the promise with the outstanding outputs, and one is there. -/
theorem answer_of_poll {start now : ℤ} {before : List SocketEvent}
    (hwaiting : options.waitForFunding = true)
    (hfirst : SettlesFirst options address start before (.poll now)) :
    outstanding address (deliveredEvents before) ≠ [] ∧
      ∃ answer, answer.balance = totalValue (outstanding address (deliveredEvents before)) ∧
        ∀ after final, runAll (handle options address) (startWatcher start)
          (before ++ .poll now :: after) = .ok final → final.outcome = some (.resolved answer) := by
  obtain ⟨w, next, hrun, hopen, hpoll, hsettled⟩ := hfirst
  rw [poll_of_waiting hwaiting hrun hopen now] at hpoll
  split_ifs at hpoll with hempty
  · cases hpoll
    exact absurd hopen hsettled
  · refine ⟨hempty, toUnshieldedBalance w.state address options.tipHeight w.caughtUp, ?_,
      fun after final hfinal ↦ ?_⟩
    · rw [(tracks_of_run hrun).state_eq, balance_eq_outstanding]
    · obtain ⟨w', hrun', hrest⟩ := runAll_append_eq_ok_iff.mp hfinal
      obtain rfl : w = w' := Except.ok.inj (hrun.symm.trans hrun')
      rw [runAll, poll_of_waiting hwaiting hrun hopen now, if_neg hempty] at hrest
      exact settled_of_run hrest (settle_outcome_of_open hopen)

/-- A poll agrees with the caller: if it is the first event to settle the promise, then the promise
is resolved with a positive balance and stays so, and the address is reported as funded. -/
def PollAgrees (options : WatchUnshieldedOptions) (address : String) (start : ℤ)
    (before : List SocketEvent) (now : ℤ) : Prop :=
  SettlesFirst options address start before (.poll now) →
    ∃ answer, 0 < answer.balance ∧ exitCode (.resolved answer) = 0 ∧
      ∀ after final, runAll (handle options address) (startWatcher start)
        (before ++ .poll now :: after) = .ok final → final.outcome = some (.resolved answer)

/-- A message that credits an address with one output. -/
def creditMessage (address value : String) : SocketEvent :=
  .message (messageWith "next" (transactionPayload 7 [wireOutputTo address value] [])) 0

/-- After a message that credits the address with one output, a poll settles the promise with the
value of that output. -/
theorem settlesFirst_credit (hwaiting : options.waitForFunding = true) (start now : ℤ)
    (value : String) :
    let credited : UnshieldedUtxo :=
      ⟨address, NIGHT_TOKEN_TYPE, toBigInt (some (.string value)), .zero, "drip"⟩
    createdNight address (deliveredEvents [creditMessage address value]) = [credited] ∧
      outstanding address (deliveredEvents [creditMessage address value]) = [credited] ∧
        SettlesFirst options address start [creditMessage address value] (.poll now) := by
  intro credited
  let event : UnshieldedEvent := .transaction ⟨.ofRat 7, "hash", .zero, [credited], []⟩
  have hdelivered : deliveredEvents [creditMessage address value] = [event] := rfl
  have hcreated : createdBy address event = [credited] := by
    simp [event, credited, createdBy, nightOutputs, isNightUtxo]
  have houtstanding : outstanding address [event] = [credited] := outstanding_credit hcreated rfl
  have hrun : runAll (handle options address) (startWatcher start)
      [creditMessage address value] = .ok ((startWatcher start).note address 0 event) := rfl
  refine ⟨?_, ?_, _, _, hrun, ?_, poll_of_waiting hwaiting hrun ?_ now, ?_⟩
  · rw [hdelivered, createdNight, List.flatMap_singleton, hcreated]
  · rw [hdelivered, houtstanding]
  · exact note_outcome _ _ _ _
  · exact note_outcome _ _ _ _
  · rw [hdelivered, houtstanding, if_neg (List.cons_ne_nil _ _),
      settle_outcome_of_open (note_outcome _ _ _ _)]
    exact Option.some_ne_none _

/-- When the watcher and its caller agree that an address is funded. Assumes: a watcher that waits
for funding. In every run in which every output that was credited to the address before the poll has
a positive value, a poll agrees with the caller. No other value can be allowed: for each there is a
message that credits the address with one output of that value, and after which no poll agrees. -/
theorem poll_agrees_of_positive (hwaiting : options.waitForFunding = true) (start : ℤ) :
    (∀ before now, (∀ utxo ∈ createdNight address (deliveredEvents before), 0 < utxo.value) →
      PollAgrees options address start before now) ∧
    (∀ value ≤ 0, ∃ message,
      (createdNight address (deliveredEvents [message])).map UnshieldedUtxo.value = [value] ∧
        ∀ now, ¬ PollAgrees options address start [message] now) := by
  constructor
  · intro before now hpositive hfirst
    obtain ⟨hne, answer, hbalance, hfinal⟩ := answer_of_poll hwaiting hfirst
    have hanswer : 0 < answer.balance := by
      rw [hbalance]
      exact totalValue_outstanding_pos hpositive hne
    exact ⟨answer, hanswer, (exitCode_eq_zero_iff answer).mpr hanswer, hfinal⟩
  · intro value hvalue
    obtain ⟨text, htext⟩ := exists_toBigInt value
    refine ⟨creditMessage address text, ?_, fun now hagrees ↦ ?_⟩
    · rw [(settlesFirst_credit hwaiting start 0 text).1, ← htext]
      rfl
    · obtain ⟨_, houtstanding, hfirst⟩ := settlesFirst_credit hwaiting start now text
      obtain ⟨_, answer, hbalance, hfinal⟩ := answer_of_poll hwaiting hfirst
      obtain ⟨funded, hpositive, _, hfunded⟩ := hagrees hfirst
      obtain ⟨w, next, hrun, _, hpoll, _⟩ := hfirst
      have hboth : runAll (handle options address) (startWatcher start)
          ([creditMessage address text] ++ [.poll now]) = .ok next :=
        runAll_append_eq_ok_iff.mpr ⟨w, hrun, by rw [runAll, hpoll]; rfl⟩
      have hsame := (hfinal [] next hboth).symm.trans (hfunded [] next hboth)
      cases hsame
      have hvalue' : answer.balance = value := by
        rw [hbalance, houtstanding, totalValue, List.map_singleton, List.sum_singleton, htext]
      omega

end

/-- A drip of 1000 arrives, and the poll after it settles: the promise stays resolved with a balance
that is reported as funded, also when the connection then closes. -/
theorem poll_agrees_of_positive_drip :
    let before : List SocketEvent := [.opened, .message dripMessage 0]
    ∃ answer, 0 < answer.balance ∧ exitCode (.resolved answer) = 0 ∧
      (runAll (handle ⟨true, 5000, none⟩ sampleAddress) (startWatcher 0)
        (before ++ [.poll 250, .closed])).map Watcher.outcome = .ok (some (.resolved answer)) := by
  intro before
  have houtcome : (runAll (handle ⟨true, 5000, none⟩ sampleAddress) (startWatcher 0)
      before).map Watcher.outcome = .ok none := by
    decide +kernel
  have hpolled : (runAll (handle ⟨true, 5000, none⟩ sampleAddress) (startWatcher 0)
      (before ++ [.poll 250])).map Watcher.settled = .ok true := by
    decide +kernel
  have hclosed : (runAll (handle ⟨true, 5000, none⟩ sampleAddress) (startWatcher 0)
      (before ++ [.poll 250, .closed])).map Watcher.settled = .ok true := by
    decide +kernel
  obtain ⟨w, hrun, hopen⟩ := map_eq_ok_iff.mp houtcome
  obtain ⟨next, hnext, hsettled⟩ := map_eq_ok_iff.mp hpolled
  obtain ⟨final, hfinal, _⟩ := map_eq_ok_iff.mp hclosed
  have hfirst : SettlesFirst ⟨true, 5000, none⟩ sampleAddress 0 before (.poll 250) := by
    obtain ⟨w', hrun', hpoll⟩ := runAll_append_eq_ok_iff.mp hnext
    obtain rfl : w = w' := Except.ok.inj (hrun.symm.trans hrun')
    exact ⟨w, next, hrun, hopen, hpoll, Option.isSome_iff_ne_none.mp hsettled⟩
  obtain ⟨answer, hbalance, hexit, hanswer⟩ := (@poll_agrees_of_positive ⟨true, 5000, none⟩
    sampleAddress rfl 0).1 before 250 (by decide +kernel) hfirst
  exact ⟨answer, hbalance, hexit,
    map_eq_ok_iff.mpr ⟨final, hfinal, hanswer [.closed] final hfinal⟩⟩

/-- An output of value zero has arrived: the next poll settles with a balance of zero, and the check
reports an inconclusive answer. -/
theorem poll_settles_empty :
    let before : List SocketEvent := [creditMessage sampleAddress "0"]
    let answer := toUnshieldedBalance (foldHistory sampleAddress (deliveredEvents before))
      sampleAddress none false
    (runAll (handle ⟨true, 5000, none⟩ sampleAddress) (startWatcher 0)
        (before ++ [.poll 250])).map Watcher.outcome = .ok (some (.resolved answer)) ∧
      answer.unspentOutputs = 1 ∧ ¬ 0 < answer.balance ∧
      exitCode (.resolved answer) = 2 ∧
      ¬ PollAgrees ⟨true, 5000, none⟩ sampleAddress 0 before 250 := by
  intro before answer
  have houtcome : (runAll (handle ⟨true, 5000, none⟩ sampleAddress) (startWatcher 0)
      (before ++ [.poll 250])).map Watcher.outcome = .ok (some (.resolved answer)) := by
    decide +kernel
  have hempty : ¬ 0 < answer.balance := by decide +kernel
  refine ⟨houtcome, by decide +kernel, hempty, by decide +kernel, fun hagrees ↦ ?_⟩
  obtain ⟨funded, hpositive, _, hfunded⟩ := hagrees (settlesFirst_credit rfl 0 250 "0").2.2
  obtain ⟨final, hfinal, hanswer⟩ := map_eq_ok_iff.mp houtcome
  have hsame := hanswer.symm.trans (hfunded [] final hfinal)
  cases hsame
  exact hempty hpositive

end SealedBid
