import SealedBid.Foundation.RunningMaximum
import SealedBid.Funding.WireFormat

/-!
# Replay positions

The two positions of the fold in `applyUnshieldedEvent`: the highest marker announced and the last
transaction replayed. The one is kept by a comparison and the other by a maximum, and both start
at zero.

While no identifier is `NaN` each is the greatest of zero and what was seen
(`greatest_highestTransactionId`, `greatest_lastTransactionId`). A `NaN` marker replaces the highest
marker, and a `NaN` identifier stays. So the positions are the maxima of what was seen, never
decrease and are numbers after every message exactly when no marker and no identifier of the
payloads is `NaN` and the first of each is not negative (`positions_iff`).
-/

set_option autoImplicit false
set_option relaxedAutoImplicit false

namespace SealedBid

open FailSafeRun RunningMaximum

/-! ### The positions of a history -/

/-- The marker of an event. -/
def UnshieldedEvent.marker : UnshieldedEvent → Option Number
  | .transaction _ => none
  | .progress highest => some highest

/-- The transaction identifier of an event. -/
def UnshieldedEvent.transactionId : UnshieldedEvent → Option Number
  | .transaction event => some event.transactionId
  | .progress _ => none

/-- The markers of a history. -/
def markersOf (events : List UnshieldedEvent) : List Number :=
  events.filterMap UnshieldedEvent.marker

/-- The transaction identifiers of a history. -/
def transactionIdsOf (events : List UnshieldedEvent) : List Number :=
  events.filterMap UnshieldedEvent.transactionId

theorem markersOf_concat (events : List UnshieldedEvent) (event : UnshieldedEvent) :
    markersOf (events ++ [event]) = markersOf events ++ event.marker.toList := by
  cases event <;> simp [markersOf, UnshieldedEvent.marker]

theorem transactionIdsOf_concat (events : List UnshieldedEvent) (event : UnshieldedEvent) :
    transactionIdsOf (events ++ [event]) =
      transactionIdsOf events ++ event.transactionId.toList := by
  cases event <;> simp [transactionIdsOf, UnshieldedEvent.transactionId]

/-- A history has markers when some event of it is no transaction. -/
theorem markersOf_ne_nil_iff (events : List UnshieldedEvent) :
    markersOf events ≠ [] ↔ events.any (fun event ↦ !event.isTransaction) = true := by
  rw [List.any_eq_true, ne_eq, markersOf, List.filterMap_eq_nil_iff, not_forall]
  refine exists_congr fun event ↦ ?_
  cases event <;> simp [UnshieldedEvent.marker, UnshieldedEvent.isTransaction]

section

variable (address : String) {events : List UnshieldedEvent}

/-- The highest marker is kept by a comparison. -/
theorem highestTransactionId_eq_foldl (events : List UnshieldedEvent) :
    (foldHistory address events).highestTransactionId =
      (markersOf events).foldl (fun seen marker ↦ if marker.le seen then seen else marker)
        .zero := by
  induction events using List.reverseRecOn with
  | nil => rfl
  | append_singleton events event ih =>
    rw [foldHistory_concat, markersOf_concat, List.foldl_append, ← ih]
    cases event with
    | transaction event =>
      rw [applyUnshieldedEvent_transaction]
      rfl
    | progress highest =>
      rw [applyUnshieldedEvent_progress]
      rfl

/-- The last transaction is kept by a maximum. -/
theorem lastTransactionId_eq_foldl (events : List UnshieldedEvent) :
    (foldHistory address events).lastTransactionId =
      (transactionIdsOf events).foldl Number.max .zero := by
  induction events using List.reverseRecOn with
  | nil => rfl
  | append_singleton events event ih =>
    rw [foldHistory_concat, transactionIdsOf_concat, List.foldl_append, ← ih]
    cases event with
    | transaction event =>
      rw [applyUnshieldedEvent_transaction]
      rfl
    | progress highest =>
      rw [applyUnshieldedEvent_progress]
      rfl

theorem greatest_highestTransactionId (h : .nan ∉ markersOf events) :
    Greatest (.zero :: markersOf events) (foldHistory address events).highestTransactionId := by
  induction events using List.reverseRecOn with
  | nil => exact greatest_zero
  | append_singleton events event ih =>
    rw [markersOf_concat, List.mem_append, not_or] at h
    rw [foldHistory_concat, markersOf_concat]
    cases event with
    | transaction event =>
      rw [applyUnshieldedEvent_transaction, UnshieldedEvent.marker, Option.toList_none,
        List.append_nil]
      exact ih h.1
    | progress highest =>
      rw [applyUnshieldedEvent_progress, ← List.cons_append]
      refine (ih h.1).concat ?_
      rintro rfl
      exact h.2 (List.mem_singleton_self _)

theorem greatest_lastTransactionId (h : .nan ∉ transactionIdsOf events) :
    Greatest (.zero :: transactionIdsOf events) (foldHistory address events).lastTransactionId := by
  induction events using List.reverseRecOn with
  | nil => exact greatest_zero
  | append_singleton events event ih =>
    rw [transactionIdsOf_concat, List.mem_append, not_or] at h
    rw [foldHistory_concat, transactionIdsOf_concat]
    cases event with
    | transaction event =>
      have hid : event.transactionId ≠ .nan := by
        intro hnan
        refine h.2 ?_
        rw [UnshieldedEvent.transactionId, hnan]
        exact List.mem_singleton_self _
      rw [applyUnshieldedEvent_transaction, ← List.cons_append,
        Number.max_eq (ih h.1).ne_nan hid]
      exact (ih h.1).concat hid
    | progress highest =>
      rw [applyUnshieldedEvent_progress, UnshieldedEvent.transactionId, Option.toList_none,
        List.append_nil]
      exact ih h.1

/-- A `NaN` marker replaces the highest marker. -/
theorem highestTransactionId_of_nan :
    (foldHistory address (events ++ [.progress .nan])).highestTransactionId = .nan := by
  rw [foldHistory_concat, applyUnshieldedEvent_progress, Number.nan_le]
  rfl

/-- A `NaN` identifier replaces the last identifier. -/
theorem lastTransactionId_of_nan {event : UnshieldedTransaction}
    (h : event.transactionId = .nan) :
    (foldHistory address (events ++ [.transaction event])).lastTransactionId = .nan := by
  rw [foldHistory_concat, applyUnshieldedEvent_transaction, h, Number.max_nan]

end

/-! ### The positions of a stream of payloads -/

/-- The number that a payload announces as the highest identifier. -/
def markerNumber (payload : Option Json) : Option Number :=
  (markerField payload).bind fun field ↦ field.toNumber.toOption

/-- The identifier of the transaction of a payload, as a number. -/
def transactionIdNumber (payload : Option Json) : Option Number :=
  (transactionIdField payload).bind fun field ↦ field.toNumber.toOption

/-- The fold of a stream of payloads. -/
def foldPayloads (address : String) (payloads : List (Option Json)) : UnshieldedLedgerState :=
  foldHistory address (payloads.filterMap decodedEvent)

/-- What is folded for a payload has the marker and the identifier of its fields. -/
theorem numbers_of_decodedEvent {payload : Option Json}
    (h : ∃ event, parseUnshieldedEvent payload = .ok event) :
    (decodedEvent payload).bind UnshieldedEvent.marker = markerNumber payload ∧
      (decodedEvent payload).bind UnshieldedEvent.transactionId = transactionIdNumber payload := by
  obtain ⟨event, hevent⟩ := h
  have hdecoded : decodedEvent payload = event := by
    rw [decodedEvent, hevent]
  rw [hdecoded, markerNumber, transactionIdNumber]
  rw [parseUnshieldedEvent_eq] at hevent
  cases hmarker : markerField payload with
  | some marker =>
    rw [hmarker] at hevent
    obtain ⟨highest, hhighest, hresult⟩ := bind_eq_ok_iff.mp hevent
    cases hresult
    rw [transactionIdField_of_markerField hmarker]
    simp [UnshieldedEvent.marker, UnshieldedEvent.transactionId, hhighest, Except.toOption]
  | none =>
    rw [hmarker] at hevent
    cases hid : transactionIdField payload with
    | some id =>
      rw [hid] at hevent
      obtain ⟨transactionId, hnumber, hresult⟩ := bind_eq_ok_iff.mp hevent
      obtain ⟨transaction, rfl, rfl⟩ := exists_of_parseTransaction hresult
      simp [UnshieldedEvent.marker, UnshieldedEvent.transactionId, hnumber, Except.toOption]
    | none =>
      rw [hid] at hevent
      cases hevent
      exact ⟨rfl, rfl⟩

/-- The numbers folded are those of the fields. Assumes: every payload is decoded. -/
theorem numbers_of_payloads {payloads : List (Option Json)}
    (h : ∀ payload ∈ payloads, ∃ event, parseUnshieldedEvent payload = .ok event) :
    markersOf (payloads.filterMap decodedEvent) = payloads.filterMap markerNumber ∧
      transactionIdsOf (payloads.filterMap decodedEvent) =
        payloads.filterMap transactionIdNumber := by
  rw [markersOf, transactionIdsOf, List.filterMap_filterMap, List.filterMap_filterMap]
  exact ⟨List.filterMap_congr fun payload hmem ↦ (numbers_of_decodedEvent (h payload hmem)).1,
    List.filterMap_congr fun payload hmem ↦ (numbers_of_decodedEvent (h payload hmem)).2⟩

section

variable (address : String) {payloads : List (Option Json)}

theorem foldPayloads_concat (seen : List (Option Json)) (payload : Option Json) :
    foldPayloads address (seen ++ [payload]) =
      foldHistory address (seen.filterMap decodedEvent ++ (decodedEvent payload).toList) := by
  rw [foldPayloads, List.filterMap_append, List.filterMap_cons]
  cases decodedEvent payload <;> simp

theorem keepsGreatest_highestTransactionId
    (h : ∀ payload ∈ payloads, ∃ event, parseUnshieldedEvent payload = .ok event) :
    KeepsGreatest markerNumber (fun seen ↦ (foldPayloads address seen).highestTransactionId)
      payloads where
  greatest := by
    intro seen hinitial hnumbers
    have hseen := numbers_of_payloads fun payload hmem ↦ h payload (hinitial.subset hmem)
    rw [← hseen.1] at hnumbers ⊢
    exact greatest_highestTransactionId address hnumbers
  nan := by
    intro seen payload hinitial hnumber
    have hpayload := numbers_of_decodedEvent (h payload (hinitial.subset (by simp)))
    rw [← hpayload.1] at hnumber
    obtain ⟨event, hevent, hmarker⟩ := Option.bind_eq_some_iff.mp hnumber
    cases event with
    | transaction event => cases hmarker
    | progress highest =>
      cases hmarker
      rw [foldPayloads_concat, hevent]
      exact highestTransactionId_of_nan address

theorem keepsGreatest_lastTransactionId
    (h : ∀ payload ∈ payloads, ∃ event, parseUnshieldedEvent payload = .ok event) :
    KeepsGreatest transactionIdNumber (fun seen ↦ (foldPayloads address seen).lastTransactionId)
      payloads where
  greatest := by
    intro seen hinitial hnumbers
    have hseen := numbers_of_payloads fun payload hmem ↦ h payload (hinitial.subset hmem)
    rw [← hseen.2] at hnumbers ⊢
    exact greatest_lastTransactionId address hnumbers
  nan := by
    intro seen payload hinitial hnumber
    have hpayload := numbers_of_decodedEvent (h payload (hinitial.subset (by simp)))
    rw [← hpayload.2] at hnumber
    obtain ⟨event, hevent, hid⟩ := Option.bind_eq_some_iff.mp hnumber
    cases event with
    | transaction event =>
      rw [foldPayloads_concat, hevent]
      exact lastTransactionId_of_nan address (Option.some.inj hid)
    | progress highest => cases hid

end

/-- When the replay positions never regress. Assumes: every payload is decoded without an exception.
After every message the highest marker is the maximum of the numeric markers seen so far, the last
transaction the maximum of the numeric identifiers seen so far, both zero when there are none, and
neither decreases or stops being a number, exactly when no marker and no identifier of the stream is
`NaN` and the first marker and the first identifier are not negative. -/
theorem positions_iff (address : String) {payloads : List (Option Json)}
    (h : ∀ payload ∈ payloads, ∃ event, parseUnshieldedEvent payload = .ok event) :
    NeverRegresses markerNumber (fun seen ↦ (foldPayloads address seen).highestTransactionId)
          payloads ∧
        NeverRegresses transactionIdNumber
          (fun seen ↦ (foldPayloads address seen).lastTransactionId) payloads ↔
      (.nan ∉ payloads.filterMap markerNumber ∧
          ∀ x ∈ (payloads.filterMap markerNumber).head?, Number.zero.le x = true) ∧
        (.nan ∉ payloads.filterMap transactionIdNumber ∧
          ∀ x ∈ (payloads.filterMap transactionIdNumber).head?, Number.zero.le x = true) :=
  and_congr (neverRegresses_iff (keepsGreatest_highestTransactionId address h))
    (neverRegresses_iff (keepsGreatest_lastTransactionId address h))

/-! ### Sample payloads -/

/-- A late marker and a transaction leave the positions at their maxima. -/
theorem positions_iff_late :
    let payloads := [some (markerPayload (.number (.ofRat 9))), some (markerPayload (.string "4")),
      some (payloadWith [("transaction", .object [("id", .number (.ofRat 8))])])]
    NeverRegresses markerNumber
      (fun seen ↦ (foldPayloads sampleAddress seen).highestTransactionId) payloads := by
  intro payloads
  have hdecoded : ∀ payload ∈ payloads, ∃ event, parseUnshieldedEvent payload = .ok event :=
    fun payload hmem ↦ (exists_parseUnshieldedEvent_iff payload).mpr
      (List.all_eq_true.mp (by decide +kernel : payloads.all payloadReadable = true) payload hmem)
  exact ((positions_iff sampleAddress hdecoded).mpr
    ⟨⟨by decide +kernel, by decide +kernel⟩, by decide +kernel, by decide +kernel⟩).1

/-- A malformed marker makes the highest marker `NaN`, and the next marker lowers the announced
tip. -/
theorem positions_regress_malformed :
    let payloads := [some (markerPayload (.number (.ofRat 9))),
      some (markerPayload (.string "abc")), some (markerPayload (.number (.ofRat 4)))]
    (∀ payload ∈ payloads, ∃ event, parseUnshieldedEvent payload = .ok event) ∧
      (foldPayloads sampleAddress (payloads.take 1)).highestTransactionId = .ofRat 9 ∧
      (foldPayloads sampleAddress (payloads.take 2)).highestTransactionId = .nan ∧
      (foldPayloads sampleAddress payloads).highestTransactionId = .ofRat 4 ∧
      ¬ NeverRegresses markerNumber
        (fun seen ↦ (foldPayloads sampleAddress seen).highestTransactionId) payloads := by
  intro payloads
  have hnan : (foldPayloads sampleAddress (payloads.take 2)).highestTransactionId = .nan := by
    decide +kernel
  refine ⟨fun payload hmem ↦ ?_, by decide +kernel, hnan, by decide +kernel, fun hnever ↦ ?_⟩
  · exact (exists_parseUnshieldedEvent_iff payload).mpr
      (List.all_eq_true.mp (by decide +kernel : payloads.all payloadReadable = true) payload hmem)
  · have hkept := hnever (payloads.take 1) (some (markerPayload (.string "abc")))
      (payloads.drop 2) rfl
    exact hkept.2.1 hnan

end SealedBid
