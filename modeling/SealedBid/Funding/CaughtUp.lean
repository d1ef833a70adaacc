import SealedBid.Funding.ReplayPositions
import SealedBid.Funding.WatcherRuns

/-!
# Caught-up answers are sound

What `caughtUp` means for an answer of the watcher. The history of an address is a list of
transactions with positive, increasing identifiers (`AddressHistory`). A feed is faithful to it when
it delivers transactions in order and without gaps and every progress marker carries the identifier
of the latest transaction at some moment of the history, or zero (`FaithfulFeed`).

Then the fold has reached every transaction up to the highest marker (`mem_of_atTip`): the last
transaction replayed is at least the highest marker, and a gap-free replay misses nothing before it.
So an answer that claims to be caught up covers every transaction up to the largest marker and is
the true balance after the part of the history that was replayed (`caughtUp_sound`). The flag
can go back to false when a newer marker arrives; it is read when the promise settles.
-/

set_option autoImplicit false
set_option relaxedAutoImplicit false

namespace SealedBid

open FailSafeRun RunningMaximum

/-! ### Histories and feeds -/

/-- The transactions of an address, oldest first, have positive and increasing identifiers. -/
structure AddressHistory (history : List UnshieldedTransaction) : Prop where
  positive : ∀ transaction ∈ history, Number.zero.lt transaction.transactionId = true
  increasing : history.Pairwise fun earlier later ↦
    earlier.transactionId.lt later.transactionId = true

/-- The identifier of the latest transaction, zero when there is none. -/
def latestId (known : List UnshieldedTransaction) : Number :=
  match known.getLast? with
  | some transaction => transaction.transactionId
  | none => .zero

/-- Transactions are delivered in order and without gaps, and every marker is the identifier of the
latest transaction at some moment of the history. -/
structure FaithfulFeed (history : List UnshieldedTransaction) (events : List UnshieldedEvent) :
    Prop where
  delivered : transactionsOf events <+: history
  marked : ∀ marker ∈ markersOf events, ∃ known, known <+: history ∧ marker = latestId known

/-- The balance of an address after some of its transactions. -/
def trueBalance (address : String) (known : List UnshieldedTransaction) : ℤ :=
  totalValue (unspentNight address (known.map .transaction))

section

variable {history : List UnshieldedTransaction} {events : List UnshieldedEvent}

theorem AddressHistory.nodup (h : AddressHistory history) : history.Nodup := by
  refine h.increasing.imp fun {earlier later} hlt ↦ ?_
  rintro rfl
  have hself := Number.not_le_of_lt hlt
  rw [Number.le_refl (Number.ne_nan_of_lt hlt)] at hself
  cases hself

theorem FaithfulFeed.of_append {more : List UnshieldedEvent}
    (h : FaithfulFeed history (events ++ more)) : FaithfulFeed history events where
  delivered := by
    have hdelivered := h.delivered
    rw [transactionsOf, List.filterMap_append] at hdelivered
    exact (List.prefix_append _ _).trans hdelivered
  marked := by
    intro marker hmarker
    refine h.marked marker ?_
    rw [markersOf, List.filterMap_append]
    exact List.mem_append_left _ hmarker

theorem transactionIdsOf_eq_map (events : List UnshieldedEvent) :
    transactionIdsOf events = (transactionsOf events).map UnshieldedTransaction.transactionId := by
  rw [transactionIdsOf, transactionsOf, List.map_filterMap]
  refine List.filterMap_congr fun event _ ↦ ?_
  cases event <;> rfl

/-- No identifier and no marker of a faithful feed is `NaN`. -/
theorem FaithfulFeed.numbers (h : FaithfulFeed history events) (hhistory : AddressHistory history) :
    .nan ∉ markersOf events ∧ .nan ∉ transactionIdsOf events := by
  have hid : ∀ transaction ∈ history, transaction.transactionId ≠ .nan :=
    fun transaction hmem ↦ Number.ne_nan_of_lt (hhistory.positive transaction hmem)
  constructor
  · intro hmem
    obtain ⟨known, hknown, hlatest⟩ := h.marked .nan hmem
    unfold latestId at hlatest
    cases hlast : known.getLast? with
    | none => simp [hlast, Number.zero] at hlatest
    | some transaction =>
      rw [hlast] at hlatest
      exact hid transaction (hknown.subset (List.mem_of_getLast? hlast)) hlatest.symm
  · intro hmem
    rw [transactionIdsOf_eq_map] at hmem
    obtain ⟨transaction, htransaction, hnan⟩ := List.mem_map.mp hmem
    exact hid transaction (h.delivered.subset htransaction) hnan

/-- A fold that has reached the announced tip has replayed every transaction up to any marker. -/
theorem mem_of_atTip (address : String) (h : FaithfulFeed history events)
    (hhistory : AddressHistory history) (htip : (foldHistory address events).atTip = true)
    {marker : Number} (hmarker : marker ∈ markersOf events)
    {transaction : UnshieldedTransaction} (hmem : transaction ∈ history)
    (hle : transaction.transactionId.le marker = true) : transaction ∈ transactionsOf events := by
  obtain ⟨hmarkers, hids⟩ := h.numbers hhistory
  have hhighest := greatest_highestTransactionId address hmarkers
  have hlast := greatest_lastTransactionId address hids
  have hreached : transaction.transactionId.le
      (foldHistory address events).highestTransactionId = true :=
    Number.le_trans hle (hhighest.2 marker (List.mem_cons_of_mem _ hmarker))
  have hpositive := Number.not_le_of_lt (hhistory.positive transaction hmem)
  have hnonzero : ∀ x : Number, transaction.transactionId.le x = true → x ≠ .zero := by
    rintro x hx rfl
    rw [hpositive] at hx
    cases hx
  unfold UnshieldedLedgerState.atTip at htip
  rw [decide_eq_true_eq] at htip
  rcases htip with hzero | htip
  · exact absurd hzero (hnonzero _ hreached)
  · have hcovered := Number.le_trans hreached htip
    -- the last identifier is that of a replayed transaction, and no later one is below it
    rcases List.mem_cons.mp hlast.1 with hzero | hlastMem
    · exact absurd hzero (hnonzero _ hcovered)
    · rw [transactionIdsOf_eq_map] at hlastMem
      obtain ⟨last, hlastReplayed, hlastId⟩ := List.mem_map.mp hlastMem
      obtain ⟨rest, hrest⟩ := h.delivered
      rw [← hrest, List.mem_append] at hmem
      refine hmem.resolve_right fun hlater ↦ ?_
      have hincreasing := hhistory.increasing
      rw [← hrest] at hincreasing
      have hbelow := Number.not_le_of_lt
        ((List.pairwise_append.mp hincreasing).2.2 last hlastReplayed transaction hlater)
      rw [hlastId, hcovered] at hbelow
      cases hbelow

/-- The reported balance is the true balance after the transactions that were replayed. Assumes: the
history is well formed. -/
theorem FaithfulFeed.balance_eq {address : String} (h : FaithfulFeed history events)
    (hwellFormed : WellFormedHistory address (history.map .transaction))
    (tipHeight : Option Number) (caughtUp : Bool) :
    (toUnshieldedBalance (foldHistory address events) address tipHeight caughtUp).balance =
      trueBalance address (transactionsOf events) := by
  obtain ⟨rest, hrest⟩ := h.delivered
  rw [← hrest, List.map_append] at hwellFormed
  rw [trueBalance, ← hwellFormed.of_append.balance_eq tipHeight caughtUp, toUnshieldedBalance,
    toUnshieldedBalance, foldHistory_unspent_transactionsOf]

end

/-! ### Caught-up answers -/

/-- A caught-up answer is sound. Assumes: readable messages, and a feed that is faithful to the
history of the address. The run of the watcher does not throw. An answer that claims to be caught up
was settled after a progress marker and before any failure; at that moment every transaction up to
any marker received had been folded exactly once; what had been folded is the beginning of the
history, and the balance is the true balance after it when the history is well formed. The promise
settles at most once, no later event changes its outcome, and it is rejected exactly when the first
settling event is a socket error or a message that rejects the subscription. A failure, the end of
the subscription or of the connection, or the deadline settles a promise that is still open. -/
theorem caughtUp_sound {options : WatchUnshieldedOptions} {address : String} {now : ℤ}
    {events : List SocketEvent} {history : List UnshieldedTransaction}
    (hreadable : ∀ event ∈ events, event.readable = true)
    (hhistory : AddressHistory history) (hfeed : FaithfulFeed history (deliveredEvents events)) :
    ∃ final, runAll (handle options address) (startWatcher now) events = .ok final ∧
      (∀ answer, final.outcome = some (.resolved answer) → answer.caughtUp = true →
        ∃ before event after, events = before ++ event :: after ∧
          SettlesFirst options address now before event ∧
            let received := deliveredEvents before
            let folded := transactionsOf received
            markersOf received ≠ [] ∧
            (∀ handled ∈ before ++ [event], handled.isFailure = false) ∧
            (∀ marker ∈ markersOf received, ∀ transaction ∈ history,
              transaction.transactionId.le marker = true → folded.count transaction = 1) ∧
            folded <+: history ∧
            answer = toUnshieldedBalance (foldHistory address received) address options.tipHeight
              true ∧
            (WellFormedHistory address (history.map .transaction) →
              answer.balance = trueBalance address folded)) ∧
      (∀ outcome later last, final.outcome = some outcome →
        runAll (handle options address) final later = .ok last → last.outcome = some outcome) ∧
      ((∃ reason, final.outcome = some (.rejected reason)) ↔
        ∃ before event after, events = before ++ event :: after ∧
          SettlesFirst options address now before event ∧ event.isFailure = true) ∧
      (∀ before event after w, events = before ++ event :: after →
        runAll (handle options address) (startWatcher now) before = .ok w → w.outcome = none →
          event.endsWatch = true → SettlesFirst options address now before event) := by
  obtain ⟨final, h⟩ := (@exists_run_iff options address (startWatcher now) events).mpr hreadable
  refine ⟨final, h, ?_, fun outcome later last houtcome hlater ↦ settled_of_run hlater houtcome,
    rejected_iff_of_run h, ?_⟩
  · intro answer hresolved hcaughtUp
    obtain ⟨before, event, after, hsplit, hfirst, houtcome⟩ := settlement_of_run h hresolved
    obtain ⟨_, _, hrejected⟩ | ⟨hfailure, hanswer⟩ := houtcome
    · cases hrejected
    have hanswer := Settlement.resolved.inj hanswer
    have hreceived : FaithfulFeed history (deliveredEvents before) := by
      rw [hsplit, deliveredEvents, List.filterMap_append] at hfeed
      exact hfeed.of_append
    have hflag : ((deliveredEvents before).any (fun event ↦ !event.isTransaction) &&
        (foldHistory address (deliveredEvents before)).atTip) = true := by
      rw [hanswer] at hcaughtUp
      exact hcaughtUp
    obtain ⟨hprogress, htip⟩ := Bool.and_eq_true_iff.mp hflag
    rw [hflag] at hanswer
    refine ⟨before, event, after, hsplit, hfirst, (markersOf_ne_nil_iff _).mpr hprogress, ?_, ?_,
      hreceived.delivered, hanswer, ?_⟩
    · obtain ⟨w, next, hbefore, hopen, _⟩ := hfirst
      intro handled hhandled
      rcases List.mem_append.mp hhandled with hmem | hmem
      · exact no_failure_of_open hbefore hopen handled hmem
      · rwa [List.mem_singleton.mp hmem]
    · intro marker hmarker transaction hmem hle
      have hfolded := mem_of_atTip address hreceived hhistory htip hmarker hmem hle
      exact List.count_eq_one_of_mem
        (hhistory.nodup.sublist hreceived.delivered.sublist) hfolded
    · intro hwellFormed
      rw [hanswer]
      exact hreceived.balance_eq hwellFormed options.tipHeight true
  · intro before event after w hsplit hbefore hopen hends
    have hevent : event.readable = true := hreadable event (by rw [hsplit]; simp)
    obtain ⟨next, hnext⟩ := (@exists_handle_iff options address w event).mpr hevent
    exact ⟨w, next, hbefore, hopen, hnext, settled_of_endsWatch hnext hends⟩

/-- A watcher sees the drip, a marker of the transaction that spends it, and then that transaction,
and answers at the next poll: the balance is zero and caught up, and the connection that closes
afterwards changes nothing. -/
theorem caughtUp_sound_drained :
    let events : List SocketEvent := [.opened, .message dripMessage 0,
      .message (messageWith "next" (markerPayload (.number (.ofRat 8)))) 0,
      .message drainMessage 0, .poll 5000, .closed]
    let answer := toUnshieldedBalance (foldHistory sampleAddress (deliveredEvents events))
      sampleAddress none true
    (runAll (handle ⟨false, 5000, none⟩ sampleAddress) (startWatcher 0) events).map
        Watcher.outcome = .ok (some (.resolved answer)) ∧
      answer.balance = 0 ∧
      ∃ before event after, events = before ++ event :: after ∧
        (transactionsOf (deliveredEvents before)).count drain = 1 := by
  intro events answer
  have hhistory : AddressHistory [drip, drain] :=
    ⟨by decide +kernel, by decide +kernel⟩
  have hmarkers : markersOf (deliveredEvents events) = [.ofRat 8] := by decide +kernel
  have hfeed : FaithfulFeed [drip, drain] (deliveredEvents events) := by
    refine ⟨by decide +kernel, fun marker hmarker ↦ ⟨[drip, drain], List.prefix_refl _, ?_⟩⟩
    rw [hmarkers] at hmarker
    rw [List.mem_singleton.mp hmarker]
    rfl
  have hreadable : ∀ event ∈ events, event.readable = true :=
    List.all_eq_true.mp (by decide +kernel)
  have houtcome : (runAll (handle ⟨false, 5000, none⟩ sampleAddress) (startWatcher 0) events).map
      Watcher.outcome = .ok (some (.resolved answer)) := by
    decide +kernel
  obtain ⟨reached, hreached, hresolved⟩ := map_eq_ok_iff.mp houtcome
  obtain ⟨final, hrun, hsound, _⟩ :=
    @caughtUp_sound ⟨false, 5000, none⟩ sampleAddress 0 events _ hreadable hhistory hfeed
  obtain rfl : reached = final := Except.ok.inj (hreached.symm.trans hrun)
  obtain ⟨before, event, after, hsplit, _, hreceived, _, hcount, _⟩ := hsound _ hresolved rfl
  have hmarker : Number.ofRat 8 ∈ markersOf (deliveredEvents before) := by
    obtain ⟨marker, hmem⟩ := List.exists_mem_of_ne_nil _ hreceived
    have hevents : marker ∈ markersOf (deliveredEvents events) := by
      rw [hsplit, deliveredEvents, List.filterMap_append, markersOf, List.filterMap_append]
      exact List.mem_append_left _ hmem
    rw [hmarkers] at hevents
    rwa [List.mem_singleton.mp hevents] at hmem
  exact ⟨houtcome, by decide +kernel, before, event, after, hsplit,
    hcount _ hmarker drain (by simp) (by decide +kernel)⟩

end SealedBid
