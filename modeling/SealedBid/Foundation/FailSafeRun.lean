import Mathlib.Data.List.Basic

/-!
# Runs of calls that may fail

A component that executes calls one at a time, each of which either succeeds with a next state or
fails and leaves the state as it was. `step` and `run` execute one call and a list of calls, and
`successes` is the list of the calls that succeeded, in order. `runAll` is the strict execution that
stops at the first failure; `runAll_eq_ok_iff` says that it is the run in which every call succeeds.

`bind_eq_ok_iff` takes apart a sequence of fallible computations.

The rules that carry a property along a run are stated once. `run_invariant_along` and
`run_invariant` are for a property of the state, `run_relation` for a relation between the first
state and the last, `run_history` for a property of the state and the calls that succeeded so far,
`coupled_run` for a relation between two runs that proceed side by side, and `run_map` for a second
component that executes the same calls on images of the states. Each asks for one step only.
`runAll_history` is the history rule for strict executions, `exists_runAll_iff` says when one of
calls that do not depend on the state succeeds, `exists_turn_of_runAll` finds the call that turned a
condition on, and `nodup_of_runAll` is for calls that succeed once at most. `runAll_of_path` and
`path_of_runAll` compare a component with a transition relation (`Path`) that takes the same steps
on images of the states. `observed` is what an observer sees of the calls that succeed, and
`observed_eq_map` compares what is seen of two runs.

Scope. The calls are executed in the order of the list; interleavings of several callers are
lists whose calls carry their caller.
-/

set_option autoImplicit false
set_option relaxedAutoImplicit false

namespace SealedBid.FailSafeRun

/-! ### Fallible computations in sequence -/

theorem bind_eq_ok_iff {ε α β : Type} {first : Except ε α} {rest : α → Except ε β} {result : β} :
    (first >>= rest) = .ok result ↔ ∃ value, first = .ok value ∧ rest value = .ok result := by
  cases first with
  | error error => simp [bind, Except.bind]
  | ok value => simp [bind, Except.bind]

theorem map_eq_ok_iff {ε α β : Type*} {f : α → β} {first : Except ε α} {result : β} :
    first.map f = .ok result ↔ ∃ value, first = .ok value ∧ f value = result := by
  cases first with
  | error error => simp [Except.map]
  | ok value => simp [Except.map]

@[simp] theorem ok_bind {ε α β : Type} (value : α) (rest : α → Except ε β) :
    (Except.ok value >>= rest) = rest value := rfl

/-- A sequence succeeds when its first part does and, whatever that yields, its second part does. -/
theorem exists_bind_eq_ok_iff {ε α β : Type} {first : Except ε α} {rest : α → Except ε β}
    {SecondSucceeds : Prop}
    (h : ∀ value, (∃ result, rest value = .ok result) ↔ SecondSucceeds) :
    (∃ result, (first >>= rest) = .ok result) ↔
      (∃ value, first = .ok value) ∧ SecondSucceeds := by
  simp only [bind_eq_ok_iff]
  constructor
  · rintro ⟨result, value, hvalue, hresult⟩
    exact ⟨⟨value, hvalue⟩, (h value).mp ⟨result, hresult⟩⟩
  · rintro ⟨⟨value, hvalue⟩, hsecond⟩
    obtain ⟨result, hresult⟩ := (h value).mpr hsecond
    exact ⟨result, value, hvalue, hresult⟩

/-- A list is converted when each of its elements is. -/
theorem exists_mapM_eq_ok_iff {ε α β : Type} (convert : α → Except ε β) (items : List α) :
    (∃ results, items.mapM convert = .ok results) ↔
      ∀ item ∈ items, ∃ result, convert item = .ok result := by
  induction items with
  | nil => simp [pure, Except.pure]
  | cons item items ih =>
    rw [List.mapM_cons, List.forall_mem_cons, ← ih]
    refine exists_bind_eq_ok_iff fun value ↦ ?_
    simp only [bind_eq_ok_iff, pure, Except.pure, Except.ok.injEq]
    constructor
    · rintro ⟨_, results, hresults, _⟩
      exact ⟨results, hresults⟩
    · rintro ⟨results, hresults⟩
      exact ⟨value :: results, results, hresults, rfl⟩

variable {State Call Error : Type*} {exec : Call → State → Except Error State}

/-! ### Steps and runs -/

/-- The state after one call: the next state when the call succeeds, the same state when it
fails. -/
def step (exec : Call → State → Except Error State) (state : State) (call : Call) : State :=
  match exec call state with
  | .ok next => next
  | .error _ => state

/-- The state after a list of calls, oldest first. -/
def run (exec : Call → State → Except Error State) (state : State) (calls : List Call) : State :=
  calls.foldl (step exec) state

/-- A call succeeds in a state. -/
def Succeeds (exec : Call → State → Except Error State) (state : State) (call : Call) : Prop :=
  ∃ next, exec call state = .ok next

instance decidableSucceeds (exec : Call → State → Except Error State) (state : State)
    (call : Call) : Decidable (Succeeds exec state call) :=
  match hcall : exec call state with
  | .ok next => isTrue ⟨next, hcall⟩
  | .error error => isFalse (by rintro ⟨next, hnext⟩; rw [hcall] at hnext; cases hnext)

/-- The calls of a list that succeed, in order, when the list is run from a state. -/
def successes (exec : Call → State → Except Error State) : State → List Call → List Call
  | _, [] => []
  | state, call :: rest =>
    match exec call state with
    | .ok next => call :: successes exec next rest
    | .error _ => successes exec state rest

/-- Strict execution: the state after a list of calls all of which succeed, or the first error. -/
def runAll (exec : Call → State → Except Error State) : State → List Call → Except Error State
  | state, [] => .ok state
  | state, call :: rest =>
    match exec call state with
    | .ok next => runAll exec next rest
    | .error error => .error error

theorem step_of_ok {state next : State} {call : Call} (h : exec call state = .ok next) :
    step exec state call = next := by
  simp only [step, h]

theorem step_of_not_succeeds {state : State} {call : Call} (h : ¬ Succeeds exec state call) :
    step exec state call = state := by
  unfold step
  cases hcall : exec call state with
  | ok next => exact absurd ⟨next, hcall⟩ h
  | error error => rfl

/-- A call that succeeds takes the step its result names. -/
theorem Succeeds.exec_eq {state : State} {call : Call} (h : Succeeds exec state call) :
    exec call state = .ok (step exec state call) := by
  obtain ⟨next, hnext⟩ := h
  rw [step_of_ok hnext, hnext]

@[simp] theorem run_nil (state : State) : run exec state [] = state := rfl

theorem run_cons (state : State) (call : Call) (rest : List Call) :
    run exec state (call :: rest) = run exec (step exec state call) rest := rfl

theorem run_append (state : State) (first second : List Call) :
    run exec state (first ++ second) = run exec (run exec state first) second :=
  List.foldl_append

theorem run_concat (state : State) (calls : List Call) (call : Call) :
    run exec state (calls ++ [call]) = step exec (run exec state calls) call := by
  rw [run_append]
  rfl

/-- A state in which every call fails is the state of every later run. -/
theorem run_of_frozen {state : State} (h : ∀ call, ¬ Succeeds exec state call)
    (calls : List Call) : run exec state calls = state := by
  induction calls with
  | nil => rfl
  | cons call rest ih => rw [run_cons, step_of_not_succeeds (h call), ih]

/-- A condition on every position of a list with one call more. -/
theorem forall_split_concat_iff {Call : Type*} (Good : List Call → Call → Prop)
    {calls : List Call} {call : Call} :
    (∀ before other after, calls ++ [call] = before ++ other :: after → Good before other) ↔
      (∀ before other after, calls = before ++ other :: after → Good before other) ∧
        Good calls call := by
  constructor
  · intro h
    exact ⟨fun before other after hsplit ↦ h before other (after ++ [call]) (by simp [hsplit]),
      h calls call [] rfl⟩
  · rintro ⟨hcalls, hcall⟩ before other after hsplit
    rcases List.eq_nil_or_concat after with rfl | ⟨rest, last, rfl⟩
    · obtain ⟨rfl, hother⟩ := List.append_inj' hsplit rfl
      cases hother
      exact hcall
    · rw [List.concat_eq_append, ← List.cons_append, ← List.append_assoc] at hsplit
      exact hcalls before other rest (List.append_inj' hsplit rfl).1

/-! ### The calls that succeeded -/

theorem successes_cons_of_ok {state next : State} {call : Call} (h : exec call state = .ok next)
    (rest : List Call) :
    successes exec state (call :: rest) = call :: successes exec next rest := by
  simp only [successes, h]

theorem successes_cons_of_not_succeeds {state : State} {call : Call}
    (h : ¬ Succeeds exec state call) (rest : List Call) :
    successes exec state (call :: rest) = successes exec state rest := by
  cases hcall : exec call state with
  | ok next => exact absurd ⟨next, hcall⟩ h
  | error error => simp only [successes, hcall]

theorem successes_append (state : State) (first second : List Call) :
    successes exec state (first ++ second) =
      successes exec state first ++ successes exec (run exec state first) second := by
  induction first generalizing state with
  | nil => rfl
  | cons call rest ih =>
    rw [List.cons_append, run_cons]
    by_cases hcall : Succeeds exec state call
    · obtain ⟨next, hnext⟩ := hcall
      rw [successes_cons_of_ok hnext, successes_cons_of_ok hnext, step_of_ok hnext, ih next,
        List.cons_append]
    · rw [successes_cons_of_not_succeeds hcall, successes_cons_of_not_succeeds hcall,
        step_of_not_succeeds hcall, ih state]

/-- Calls that all fail in a state. -/
theorem successes_of_frozen {state : State} {calls : List Call}
    (h : ∀ call ∈ calls, ¬ Succeeds exec state call) : successes exec state calls = [] := by
  induction calls with
  | nil => rfl
  | cons call rest ih =>
    rw [successes_cons_of_not_succeeds (h call List.mem_cons_self)]
    exact ih fun other hother ↦ h other (List.mem_cons_of_mem call hother)

/-- A call that succeeds after calls that all succeed. -/
theorem successes_concat_eq_self {state : State} {calls : List Call} {call : Call}
    (hcalls : successes exec state calls = calls)
    (hcall : Succeeds exec (run exec state calls) call) :
    successes exec state (calls ++ [call]) = calls ++ [call] := by
  obtain ⟨next, hnext⟩ := hcall
  rw [successes_append, hcalls, successes_cons_of_ok hnext]
  rfl

/-- A call is among the successes of a list exactly when it succeeds at one of its positions. -/
theorem mem_successes_iff {state : State} {calls : List Call} {call : Call} :
    call ∈ successes exec state calls ↔
      ∃ before after, calls = before ++ call :: after ∧
        Succeeds exec (run exec state before) call := by
  induction calls generalizing state with
  | nil => simp [successes]
  | cons head rest ih =>
    constructor
    · intro hmem
      by_cases hhead : Succeeds exec state head
      · obtain ⟨next, hnext⟩ := hhead
        rw [successes_cons_of_ok hnext] at hmem
        rcases List.mem_cons.mp hmem with rfl | hrest
        · exact ⟨[], rest, rfl, next, hnext⟩
        · obtain ⟨before, after, hsplit, hsucceeds⟩ := ih.mp hrest
          refine ⟨head :: before, after, by rw [hsplit, List.cons_append], ?_⟩
          rwa [run_cons, step_of_ok hnext]
      · rw [successes_cons_of_not_succeeds hhead] at hmem
        obtain ⟨before, after, hsplit, hsucceeds⟩ := ih.mp hmem
        refine ⟨head :: before, after, by rw [hsplit, List.cons_append], ?_⟩
        rwa [run_cons, step_of_not_succeeds hhead]
    · rintro ⟨before, after, hsplit, hsucceeds⟩
      rw [hsplit, successes_append]
      obtain ⟨next, hnext⟩ := hsucceeds
      rw [successes_cons_of_ok hnext]
      exact List.mem_append_right _ List.mem_cons_self

/-- The successes of a list are some of its calls, in the same order. -/
theorem successes_sublist (exec : Call → State → Except Error State) (state : State)
    (calls : List Call) :
    (successes exec state calls).Sublist calls := by
  induction calls generalizing state with
  | nil => exact List.Sublist.refl []
  | cons call rest ih =>
    by_cases hcall : Succeeds exec state call
    · obtain ⟨next, hnext⟩ := hcall
      rw [successes_cons_of_ok hnext]
      exact (ih next).cons_cons call
    · rw [successes_cons_of_not_succeeds hcall]
      exact (ih state).cons call

/-- Strict execution is the run in which every call succeeds. -/
theorem runAll_eq_ok_iff {state final : State} {calls : List Call} :
    runAll exec state calls = .ok final ↔
      successes exec state calls = calls ∧ run exec state calls = final := by
  induction calls generalizing state with
  | nil => simp [runAll, successes]
  | cons call rest ih =>
    cases hcall : exec call state with
    | ok next =>
      rw [successes_cons_of_ok hcall, run_cons, step_of_ok hcall]
      simp only [runAll, hcall, ih, List.cons.injEq, true_and]
    | error error =>
      have hfails : ¬ Succeeds exec state call := by
        rintro ⟨next, hnext⟩
        rw [hcall] at hnext
        cases hnext
      -- the successes after a failed call cannot make up for it
      have hlength := (successes_sublist exec state rest).length_le
      rw [successes_cons_of_not_succeeds hfails]
      simp only [runAll, hcall, reduceCtorEq, false_iff, not_and]
      intro hall
      rw [hall, List.length_cons] at hlength
      omega

/-! ### Rules for runs -/

/-- The invariant rule with a condition on every step: a property kept by every successful call that
is executed in a state that meets `Good` holds after every run of such steps. Assumes: the property
holds at the start, and every call of the run meets `Good` in the state it is executed in. -/
theorem run_invariant_along (Holds : State → Prop) (Good : State → Call → Prop)
    (hstep : ∀ state call next, Good state call → Holds state → exec call state = .ok next →
      Holds next)
    {state : State} {calls : List Call}
    (hgood : ∀ before call after, calls = before ++ call :: after →
      Good (run exec state before) call)
    (hstart : Holds state) : Holds (run exec state calls) := by
  induction calls generalizing state with
  | nil => exact hstart
  | cons call rest ih =>
    have hfirst := hgood [] call rest rfl
    rw [run_cons]
    refine ih (fun before other after hsplit ↦ ?_) ?_
    · rw [← run_cons]
      exact hgood (call :: before) other after (by rw [hsplit, List.cons_append])
    · by_cases hcall : Succeeds exec state call
      · exact hstep state call _ hfirst hstart hcall.exec_eq
      · rwa [step_of_not_succeeds hcall]

/-- The invariant rule: a property kept by every successful call that meets `Allowed` holds after
every run of such calls. Assumes: the property holds at the start, and the calls meet
`Allowed`. -/
theorem run_invariant (Holds : State → Prop) (Allowed : Call → Prop)
    (hstep : ∀ state call next, Allowed call → Holds state → exec call state = .ok next →
      Holds next)
    {state : State} {calls : List Call} (hallowed : ∀ call ∈ calls, Allowed call)
    (hstart : Holds state) : Holds (run exec state calls) :=
  run_invariant_along Holds (fun _ call ↦ Allowed call) hstep
    (fun before call after hsplit ↦ hallowed call (by simp [hsplit])) hstart

/-- The relation rule: a reflexive and transitive relation that holds across every successful call
holds between the first and the last state of every run. -/
theorem run_relation (Related : State → State → Prop) (hrefl : ∀ state, Related state state)
    (htrans : ∀ first middle last, Related first middle → Related middle last →
      Related first last)
    (hstep : ∀ state call next, exec call state = .ok next → Related state next)
    (state : State) (calls : List Call) : Related state (run exec state calls) :=
  run_invariant (Related state) (fun _ ↦ True)
    (fun middle call next _ hmiddle hcall ↦
      htrans state middle next hmiddle (hstep middle call next hcall))
    (fun _ _ ↦ trivial) (hrefl state)

/-- The history rule: a relation between the state and the list of calls that succeeded so far is
kept along every run. Assumes: it holds at the start of the empty history, and every successful
call extends it by that call. -/
theorem run_history (Explains : State → List Call → Prop)
    (hstep : ∀ state history call next, Explains state history → exec call state = .ok next →
      Explains next (history ++ [call]))
    {state : State} (hstart : Explains state []) (calls : List Call) :
    Explains (run exec state calls) (successes exec state calls) := by
  have hgeneral : ∀ (rest : List Call) (middle : State) (history : List Call),
      Explains middle history →
        Explains (run exec middle rest) (history ++ successes exec middle rest) := by
    intro rest
    induction rest with
    | nil =>
      intro middle history hmiddle
      rwa [successes, List.append_nil]
    | cons call rest ih =>
      intro middle history hmiddle
      rw [run_cons]
      by_cases hcall : Succeeds exec middle call
      · rw [successes_cons_of_ok hcall.exec_eq, List.append_cons]
        exact ih _ _ (hstep middle history call _ hmiddle hcall.exec_eq)
      · rw [successes_cons_of_not_succeeds hcall, step_of_not_succeeds hcall]
        exact ih middle history hmiddle
  exact hgeneral calls state [] hstart

/-- A run in which no call succeeds ends where it started. -/
theorem run_of_successes_eq_nil {state : State} {calls : List Call}
    (h : successes exec state calls = []) : run exec state calls = state := by
  have hstep : ∀ (middle : State) (history : List Call) (call : Call) (next : State),
      (history = [] → middle = state) → exec call middle = .ok next →
        (history ++ [call] = [] → next = state) :=
    fun _ history call _ _ _ hempty ↦ absurd hempty (List.concat_ne_nil call history)
  exact run_history _ hstep (fun _ ↦ rfl) calls h

/-! ### Strict executions -/

theorem runAll_append_eq_ok_iff {state final : State} {first second : List Call} :
    runAll exec state (first ++ second) = .ok final ↔
      ∃ middle, runAll exec state first = .ok middle ∧
        runAll exec middle second = .ok final := by
  induction first generalizing state with
  | nil => simp [runAll]
  | cons call rest ih =>
    rw [List.cons_append, runAll, runAll]
    cases exec call state with
    | ok next => exact ih
    | error error => simp

/-- When a call succeeds in every state or in none, a strict execution succeeds when each of its
calls does. -/
theorem exists_runAll_iff {Ready : Call → Prop}
    (hready : ∀ state call, (∃ next, exec call state = .ok next) ↔ Ready call) (state : State)
    (calls : List Call) :
    (∃ final, runAll exec state calls = .ok final) ↔ ∀ call ∈ calls, Ready call := by
  induction calls generalizing state with
  | nil => simp [runAll]
  | cons call rest ih =>
    rw [List.forall_mem_cons, ← hready state call, runAll]
    cases exec call state with
    | ok next => simp [ih next]
    | error error => simp

/-- The history rule for strict executions, whose history is the list of all their calls. -/
theorem runAll_history (Explains : State → List Call → Prop)
    (hstep : ∀ state history call next, Explains state history → exec call state = .ok next →
      Explains next (history ++ [call]))
    {state final : State} (hstart : Explains state []) {calls : List Call}
    (hrun : runAll exec state calls = .ok final) : Explains final calls := by
  obtain ⟨hsuccesses, hfinal⟩ := runAll_eq_ok_iff.mp hrun
  rw [← hsuccesses, ← hfinal]
  exact run_history Explains hstep hstart calls

/-- A strict execution into a condition that does not hold at the start has a call that turns it
on. -/
theorem exists_turn_of_runAll (Turned : State → Prop) {state final : State} {calls : List Call}
    (hstart : ¬ Turned state) (hrun : runAll exec state calls = .ok final)
    (hfinal : Turned final) :
    ∃ before call after middle next, calls = before ++ call :: after ∧
      runAll exec state before = .ok middle ∧ ¬ Turned middle ∧
        exec call middle = .ok next ∧ Turned next ∧ runAll exec next after = .ok final := by
  induction calls generalizing state with
  | nil =>
    cases hrun
    exact absurd hfinal hstart
  | cons call rest ih =>
    rw [runAll] at hrun
    cases hcall : exec call state with
    | error error => simp [hcall] at hrun
    | ok next =>
      rw [hcall] at hrun
      by_cases hturned : Turned next
      · exact ⟨[], call, rest, state, next, rfl, rfl, hstart, hcall, hturned, hrun⟩
      · obtain ⟨before, other, after, middle, turned, rfl, hbefore, hmiddle, hother, hnext,
          hafter⟩ := ih hturned hrun
        refine ⟨call :: before, other, after, middle, turned, rfl, ?_, hmiddle, hother, hnext,
          hafter⟩
        rw [runAll, hcall]
        exact hbefore

/-- When a call that succeeded never succeeds again, the calls of a strict execution differ from
each other. -/
theorem nodup_of_runAll
    (honce : ∀ state call next calls, exec call state = .ok next →
      ¬ Succeeds exec (run exec next calls) call)
    {state final : State} {calls : List Call} (hrun : runAll exec state calls = .ok final) :
    calls.Nodup := by
  induction calls generalizing state with
  | nil => exact List.nodup_nil
  | cons call rest ih =>
    rw [runAll] at hrun
    split at hrun
    case h_2 => cases hrun
    case h_1 next hcall =>
      refine List.nodup_cons.mpr ⟨fun hmem ↦ ?_, ih hrun⟩
      obtain ⟨before, after, rfl⟩ := List.append_of_mem hmem
      obtain ⟨middle, hbefore, hafter⟩ := runAll_append_eq_ok_iff.mp hrun
      refine honce state call next before hcall ?_
      rw [(runAll_eq_ok_iff.mp hbefore).2]
      rw [runAll] at hafter
      split at hafter
      case h_2 => cases hafter
      case h_1 again hagain => exact ⟨again, hagain⟩

/-! ### Two runs side by side -/

/-- The two calls at every position of a list of pairs are matched at the two states in which they
are executed. -/
def Coupled (exec : Call → State → Except Error State)
    (Matched : State → State → Call → Call → Prop) : State → State → List (Call × Call) → Prop
  | _, _, [] => True
  | first, second, (call, other) :: rest =>
    Matched first second call other ∧
      Coupled exec Matched (step exec first call) (step exec second other) rest

/-- A prefix of coupled calls is coupled. -/
theorem Coupled.of_append {Matched : State → State → Call → Call → Prop}
    {before after : List (Call × Call)} :
    ∀ {first second : State}, Coupled exec Matched first second (before ++ after) →
      Coupled exec Matched first second before := by
  induction before with
  | nil => intro first second _; trivial
  | cons pair rest ih =>
    intro first second hcoupled
    exact ⟨hcoupled.1, ih hcoupled.2⟩

/-- The simulation rule: a relation between two states that matched calls keep holds between the
ends of two coupled runs. -/
theorem coupled_run {Matched : State → State → Call → Call → Prop}
    (Simulates : State → State → Prop)
    (hstep : ∀ first second call other, Simulates first second →
      Matched first second call other → Simulates (step exec first call) (step exec second other))
    {pairs : List (Call × Call)} :
    ∀ {first second : State}, Simulates first second →
      Coupled exec Matched first second pairs →
        Simulates (run exec first (pairs.map Prod.fst)) (run exec second (pairs.map Prod.snd)) := by
  induction pairs with
  | nil => intro first second hstart _; exact hstart
  | cons pair rest ih =>
    intro first second hstart hcoupled
    exact ih (hstep first second pair.1 pair.2 hstart hcoupled.1) hcoupled.2

/-- The two calls at a position of coupled runs are matched. -/
theorem Coupled.matched_of_append {Matched : State → State → Call → Call → Prop}
    {before after : List (Call × Call)} {call other : Call} :
    ∀ {first second : State}, Coupled exec Matched first second (before ++ (call, other) :: after) →
      Matched (run exec first (before.map Prod.fst)) (run exec second (before.map Prod.snd))
        call other := by
  induction before with
  | nil => intro first second hcoupled; exact hcoupled.1
  | cons pair rest ih => intro first second hcoupled; exact ih hcoupled.2

/-! ### What is observed of a run -/

section Observed

variable {Observation : Type*}

/-- What is observed of the calls of a list that succeed, in order, when the list is run from a
state. A call is observed in the state in which it is executed. -/
def observed (exec : Call → State → Except Error State) (observe : Call → State → Observation) :
    State → List Call → List Observation
  | _, [] => []
  | state, call :: rest =>
    match exec call state with
    | .ok next => observe call state :: observed exec observe next rest
    | .error _ => observed exec observe state rest

variable {observe : Call → State → Observation}

theorem observed_cons_of_ok {state next : State} {call : Call} (h : exec call state = .ok next)
    (rest : List Call) :
    observed exec observe state (call :: rest) =
      observe call state :: observed exec observe next rest := by
  simp only [observed, h]

theorem observed_cons_of_not_succeeds {state : State} {call : Call}
    (h : ¬ Succeeds exec state call) (rest : List Call) :
    observed exec observe state (call :: rest) = observed exec observe state rest := by
  cases hcall : exec call state with
  | ok next => exact absurd ⟨next, hcall⟩ h
  | error error => simp only [observed, hcall]

/-- Less is observed through a function of the observations. -/
theorem observed_map {Coarser : Type*} (forget : Observation → Coarser) (state : State)
    (calls : List Call) :
    observed exec (fun call state ↦ forget (observe call state)) state calls =
      (observed exec observe state calls).map forget := by
  induction calls generalizing state with
  | nil => rfl
  | cons call rest ih =>
    by_cases hcall : Succeeds exec state call
    · rw [observed_cons_of_ok hcall.exec_eq, observed_cons_of_ok hcall.exec_eq, ih, List.map_cons]
    · rw [observed_cons_of_not_succeeds hcall, observed_cons_of_not_succeeds hcall, ih]

/-- Two runs side by side whose calls succeed at the same positions, and are observed there up to a
renaming, are observed up to that renaming. -/
theorem observed_eq_map {rename : Observation → Observation} {first second : State}
    {pairs : List (Call × Call)}
    (h : ∀ before call other after, pairs = before ++ (call, other) :: after →
      (Succeeds exec (run exec first (before.map Prod.fst)) call ↔
        Succeeds exec (run exec second (before.map Prod.snd)) other) ∧
      (Succeeds exec (run exec first (before.map Prod.fst)) call →
        observe other (run exec second (before.map Prod.snd)) =
          rename (observe call (run exec first (before.map Prod.fst))))) :
    observed exec observe second (pairs.map Prod.snd) =
      (observed exec observe first (pairs.map Prod.fst)).map rename := by
  induction pairs generalizing first second with
  | nil => rfl
  | cons pair rest ih =>
    obtain ⟨call, other⟩ := pair
    obtain ⟨hsucceeds, hobserve⟩ : (Succeeds exec first call ↔ Succeeds exec second other) ∧
        (Succeeds exec first call → observe other second = rename (observe call first)) :=
      h [] call other rest rfl
    have hrest := @ih (step exec first call) (step exec second other)
      fun before call' other' after hsplit ↦
        h ((call, other) :: before) call' other' after (by rw [hsplit, List.cons_append])
    simp only [List.map_cons]
    by_cases hcall : Succeeds exec first call
    · rw [observed_cons_of_ok hcall.exec_eq,
        observed_cons_of_ok (hsucceeds.mp hcall).exec_eq, List.map_cons]
      exact congrArg₂ List.cons (hobserve hcall) hrest
    · have hother : ¬ Succeeds exec second other := mt hsucceeds.mpr hcall
      rw [observed_cons_of_not_succeeds hcall, observed_cons_of_not_succeeds hother]
      rwa [step_of_not_succeeds hcall, step_of_not_succeeds hother] at hrest

end Observed

/-! ### A component on images of the states -/

/-- A call that runs on the image of a state as it runs on the state takes the same step. -/
theorem step_map {Image : Type*} {execImage : Call → Image → Except Error Image}
    {image : State → Image} {state : State} {call : Call}
    (h : execImage call (image state) = (exec call state).map image) :
    step execImage (image state) call = image (step exec state call) := by
  unfold step
  rw [h]
  cases exec call state with
  | ok next => rfl
  | error error => rfl

/-- The refinement rule: a component that executes calls on images of states as another executes
them on the states has the image of its runs, as long as there is room for the calls. `Room n` says
of a state that it has room for `n` more calls. -/
theorem run_map {Image : Type*} {execImage : Call → Image → Except Error Image}
    {image : State → Image} (Room : ℕ → State → Prop)
    (hroom : ∀ n state call, Room (n + 1) state → Room n (step exec state call))
    (hexec : ∀ n state call, Room (n + 1) state →
      execImage call (image state) = (exec call state).map image)
    {state : State} {calls : List Call} {n : ℕ} (hstart : Room (n + calls.length) state) :
    run execImage (image state) calls = image (run exec state calls) ∧
      Room n (run exec state calls) := by
  induction calls generalizing state with
  | nil => exact ⟨rfl, hstart⟩
  | cons call rest ih =>
    rw [run_cons, run_cons, step_map (hexec _ state call hstart)]
    exact ih (hroom _ state call hstart)

/-! ### A transition relation on images of the states -/

/-- A path of a transition relation: actions that lead from the first state to the last, one after
the other. -/
def Path {Image Action : Type*} (Takes : Action → Image → Image → Prop) :
    List Action → Image → Image → Prop
  | [], first, last => last = first
  | action :: rest, first, last => ∃ next, Takes action first next ∧ Path Takes rest next last

section Paths

variable {Image Action Label : Type*} {Takes : Action → Image → Image → Prop}
  {image : State → Image} {actionLabel : Action → Label} {callLabel : Call → Label}

theorem path_append_iff {first last : Image} {before after : List Action} :
    Path Takes (before ++ after) first last ↔
      ∃ middle, Path Takes before first middle ∧ Path Takes after middle last := by
  induction before generalizing first with
  | nil => simp [Path]
  | cons action rest ih =>
    simp only [List.cons_append, Path, ih]
    constructor
    · rintro ⟨next, htakes, middle, hrest, hafter⟩
      exact ⟨middle, ⟨next, htakes, hrest⟩, hafter⟩
    · rintro ⟨middle, ⟨next, htakes, hrest⟩, hafter⟩
      exact ⟨next, htakes, middle, hrest, hafter⟩

/-- The simulation rule: where every step from the image of a state is that of a call that succeeds
there, a path is that of calls that succeed one after the other. Actions and calls are compared by
their labels. Assumes: the first state has room for the steps, where `Room n` says of a state that
it has room for `n` more. -/
theorem runAll_of_path (Room : ℕ → State → Prop)
    (hroom : ∀ n state call, Room (n + 1) state → Room n (step exec state call))
    (hsound : ∀ n state action reached, Room (n + 1) state → Takes action (image state) reached →
      ∃ call next, callLabel call = actionLabel action ∧ exec call state = .ok next ∧
        reached = image next)
    {state : State} {actions : List Action} {reached : Image} (hstart : Room actions.length state)
    (hpath : Path Takes actions (image state) reached) :
    ∃ calls final, calls.map callLabel = actions.map actionLabel ∧
      runAll exec state calls = .ok final ∧ reached = image final := by
  induction actions generalizing state with
  | nil => exact ⟨[], state, rfl, rfl, hpath⟩
  | cons action rest ih =>
    obtain ⟨middle, htakes, hrest⟩ := hpath
    obtain ⟨call, next, hlabel, hcall, rfl⟩ := hsound _ state action middle hstart htakes
    have hnext : Room rest.length next := by
      rw [← step_of_ok hcall]
      exact hroom _ state call hstart
    obtain ⟨calls, final, hcalls, hrun, rfl⟩ := ih hnext hrest
    refine ⟨call :: calls, final, ?_, ?_, rfl⟩
    · rw [List.map_cons, List.map_cons, hlabel, hcalls]
    · simp only [runAll, hcall, hrun]

/-- The converse rule: where every call that succeeds in a state is a step from its image, calls
that succeed one after the other are a path. Assumes: the first state has room for the calls. -/
theorem path_of_runAll (Room : ℕ → State → Prop)
    (hroom : ∀ n state call, Room (n + 1) state → Room n (step exec state call))
    (hcomplete : ∀ n state call next, Room (n + 1) state → exec call state = .ok next →
      ∃ action, actionLabel action = callLabel call ∧ Takes action (image state) (image next))
    {state final : State} {calls : List Call} (hstart : Room calls.length state)
    (hrun : runAll exec state calls = .ok final) :
    ∃ actions, actions.map actionLabel = calls.map callLabel ∧
      Path Takes actions (image state) (image final) := by
  induction calls generalizing state with
  | nil =>
    cases hrun
    exact ⟨[], rfl, rfl⟩
  | cons call rest ih =>
    rw [runAll] at hrun
    split at hrun
    case h_2 => cases hrun
    case h_1 next hcall =>
      have hnext : Room rest.length next := by
        rw [← step_of_ok hcall]
        exact hroom _ state call hstart
      obtain ⟨action, hlabel, htakes⟩ := hcomplete _ state call next hstart hcall
      obtain ⟨actions, hactions, hpath⟩ := ih hnext hrun
      refine ⟨action :: actions, ?_, image next, htakes, hpath⟩
      rw [List.map_cons, List.map_cons, hlabel, hactions]

end Paths

end SealedBid.FailSafeRun
