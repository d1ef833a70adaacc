import SealedBid.Foundation.FailSafeRun

/-!
# Stack programs whose reads are recorded

A stack machine with instructions that read values. An instruction that has read a value can be
rewritten to carry it (`record`); the rewritten instruction then succeeds only where it would read
that value again. Every instruction removes a fixed number of cells from the top of the stack and
puts a fixed number there (`effect`), so the height of the stack after a program is known without
running it (`heightAfter`), and a program that starts and ends at height one keeps the cells beneath
(`run_frame`).

A circuit (`Circuit`) is a computation that runs programs on a state, the top of the stack, and
appends each program to a transcript with its reads filled in (`query`). What it does between two
programs may depend on what it read. `Faithful` says of a circuit that its transcript stands for it:
replayed on the state the circuit started from, the transcript succeeds and leads to the state the
circuit ended in; and on any other state on which the replay succeeds, the circuit itself would have
succeeded, with the same value, the same transcript and the state that the replay leads to. Circuits
built from programs of height one are faithful (`faithful_query`, `Faithful.bind`). `Reads` says of
a circuit that it returns a value of the state and leaves the state as it was.

Scope. A machine has no jumps: a program is a list of instructions.
-/

set_option autoImplicit false
set_option relaxedAutoImplicit false

namespace SealedBid.RecordedPrograms

open FailSafeRun

/-- A stack machine whose instructions may read values. -/
structure Machine (Op Cell Value Error : Type) where
  /-- One instruction: the next stack and the values read. -/
  step : Op → List Cell → Except Error (List Cell × List Value)
  /-- The instruction with the values that it read. -/
  record : Op → List Value → Op
  /-- The number of cells removed from the top of the stack, and the number put there. -/
  effect : Op → ℕ × ℕ
  /-- The error of a program that ends with an empty stack. -/
  emptyStack : Error
  step_effect : ∀ {op stack next values}, step op stack = .ok (next, values) →
    (effect op).1 ≤ stack.length ∧
      ∃ top, top.length = (effect op).2 ∧ next = top ++ stack.drop (effect op).1
  effect_record : ∀ op values, effect (record op values) = effect op
  step_record : ∀ {op stack next values}, step op stack = .ok (next, values) →
    ∃ seen, step (record op values) stack = .ok (next, seen)
  step_of_step_record : ∀ {op stack next values other otherNext seen},
    step op stack = .ok (next, values) →
      step (record op values) other = .ok (otherNext, seen) →
        step op other = .ok (otherNext, values)

variable {Op Cell Value Error Local : Type} (machine : Machine Op Cell Value Error)

namespace Machine

/-- A program: the stack after its instructions and what each of them read. -/
def run : List Op → List Cell → Except Error (List Cell × List (List Value))
  | [], stack => .ok (stack, [])
  | op :: program, stack => do
    let (next, values) ← machine.step op stack
    let (last, reads) ← run program next
    return (last, values :: reads)

/-- A program with its reads filled in. -/
def recorded (program : List Op) (reads : List (List Value)) : List Op :=
  List.zipWith machine.record program reads

/-- The height of the stack after a program, or nothing when the program would reach below the
given height. -/
def heightAfter : ℕ → List Op → Option ℕ
  | height, [] => some height
  | height, op :: program =>
    if (machine.effect op).1 ≤ height then
      heightAfter (height - (machine.effect op).1 + (machine.effect op).2) program
    else none

/-- The top of the stack that a program ends with. -/
def top : List Cell → Except Error Cell
  | [] => .error machine.emptyStack
  | cell :: _ => .ok cell

/-- A transcript replayed on a state that has the cells `beneath` under it. -/
def replay (beneath : List Cell) (program : List Op) (state : Cell) : Except Error Cell := do
  let (stack, _) ← machine.run program (state :: beneath)
  machine.top stack

variable {machine}

/-! ### Programs in sequence -/

@[simp] theorem run_nil (stack : List Cell) : machine.run [] stack = .ok (stack, []) := rfl

theorem run_cons_eq_ok_iff {op : Op} {program : List Op} {stack last : List Cell}
    {reads : List (List Value)} :
    machine.run (op :: program) stack = .ok (last, reads) ↔
      ∃ next values rest, machine.step op stack = .ok (next, values) ∧
        machine.run program next = .ok (last, rest) ∧ reads = values :: rest := by
  rw [run, bind_eq_ok_iff]
  constructor
  · rintro ⟨⟨next, values⟩, hstep, hrest⟩
    obtain ⟨⟨last', rest⟩, hrun, hok⟩ := bind_eq_ok_iff.mp hrest
    cases hok
    exact ⟨next, values, rest, hstep, hrun, rfl⟩
  · rintro ⟨next, values, rest, hstep, hrun, rfl⟩
    refine ⟨(next, values), hstep, bind_eq_ok_iff.mpr ⟨(last, rest), hrun, rfl⟩⟩

theorem run_append_eq_ok_iff {first second : List Op} {stack last : List Cell}
    {reads : List (List Value)} :
    machine.run (first ++ second) stack = .ok (last, reads) ↔
      ∃ middle readsFirst readsSecond, machine.run first stack = .ok (middle, readsFirst) ∧
        machine.run second middle = .ok (last, readsSecond) ∧
          reads = readsFirst ++ readsSecond := by
  induction first generalizing stack reads with
  | nil => simp
  | cons op first ih =>
    simp only [List.cons_append, run_cons_eq_ok_iff, ih]
    constructor
    · rintro ⟨next, values, rest, hstep, ⟨middle, reads₁, reads₂, hfirst, hsecond, rfl⟩, rfl⟩
      exact ⟨middle, values :: reads₁, reads₂, ⟨next, values, reads₁, hstep, hfirst, rfl⟩,
        hsecond, rfl⟩
    · rintro ⟨middle, _, reads₂, ⟨next, values, reads₁, hstep, hfirst, rfl⟩, hsecond, rfl⟩
      exact ⟨next, values, reads₁ ++ reads₂, hstep, ⟨middle, reads₁, reads₂, hfirst, hsecond, rfl⟩,
        rfl⟩

/-! ### The height of the stack -/

theorem heightAfter_append (first second : List Op) (height : ℕ) :
    machine.heightAfter height (first ++ second) =
      (machine.heightAfter height first).bind fun middle ↦ machine.heightAfter middle second := by
  induction first generalizing height with
  | nil => rfl
  | cons op first ih =>
    rw [List.cons_append, heightAfter, heightAfter]
    split_ifs with hheight
    · exact ih _
    · rfl

/-- A program that does not reach below a height leaves the cells beneath as they are. Assumes: a
height that the program does not reach below, and a run on a stack with that many cells on top. -/
theorem run_frame {program : List Op} {tops beneath last : List Cell} {reads : List (List Value)}
    {height : ℕ} (hheight : machine.heightAfter tops.length program = some height)
    (hrun : machine.run program (tops ++ beneath) = .ok (last, reads)) :
    ∃ final, final.length = height ∧ last = final ++ beneath := by
  induction program generalizing tops reads with
  | nil =>
    rw [heightAfter, Option.some.injEq] at hheight
    rw [run_nil, Except.ok.injEq, Prod.mk.injEq] at hrun
    exact ⟨tops, hheight, hrun.1.symm⟩
  | cons op program ih =>
    rw [heightAfter] at hheight
    split_ifs at hheight with hpop
    obtain ⟨next, values, rest, hstep, hprogram, -⟩ := run_cons_eq_ok_iff.mp hrun
    obtain ⟨-, pushed, hpushed, rfl⟩ := machine.step_effect hstep
    rw [List.drop_append_of_le_length hpop, ← List.append_assoc] at hprogram
    refine ih ?_ hprogram
    rw [List.length_append, List.length_drop, hpushed, Nat.add_comm]
    exact hheight

/-- A program of height one, run on a state, ends with a state over the same cells. -/
theorem run_single_frame {program : List Op} {state : Cell} {beneath last : List Cell}
    {reads : List (List Value)} (hheight : machine.heightAfter 1 program = some 1)
    (hrun : machine.run program (state :: beneath) = .ok (last, reads)) :
    ∃ next, last = next :: beneath := by
  have hrun' : machine.run program ([state] ++ beneath) = .ok (last, reads) := hrun
  obtain ⟨final, hfinal, rfl⟩ := run_frame hheight hrun'
  obtain ⟨next, rfl⟩ := List.length_eq_one_iff.mp hfinal
  exact ⟨next, rfl⟩

/-- A replay of a program of height one is a run that ends with a state over the same cells. -/
theorem replay_eq_ok_iff {program : List Op} {beneath : List Cell} {state next : Cell}
    (hheight : machine.heightAfter 1 program = some 1) :
    machine.replay beneath program state = .ok next ↔
      ∃ reads, machine.run program (state :: beneath) = .ok (next :: beneath, reads) := by
  rw [replay, bind_eq_ok_iff]
  constructor
  · rintro ⟨⟨stack, reads⟩, hrun, htop⟩
    obtain ⟨final, rfl⟩ := run_single_frame hheight hrun
    cases htop
    exact ⟨reads, hrun⟩
  · rintro ⟨reads, hrun⟩
    exact ⟨(next :: beneath, reads), hrun, rfl⟩

theorem heightAfter_append_one {first second : List Op}
    (hfirst : machine.heightAfter 1 first = some 1)
    (hsecond : machine.heightAfter 1 second = some 1) :
    machine.heightAfter 1 (first ++ second) = some 1 := by
  rw [heightAfter_append, hfirst]
  exact hsecond

/-- A program of height one and another program are replayed one after the other. -/
theorem replay_append_eq_ok_iff {first second : List Op} {beneath : List Cell} {state last : Cell}
    (hfirst : machine.heightAfter 1 first = some 1) :
    machine.replay beneath (first ++ second) state = .ok last ↔
      ∃ middle, machine.replay beneath first state = .ok middle ∧
        machine.replay beneath second middle = .ok last := by
  simp only [replay_eq_ok_iff hfirst]
  simp only [replay, bind_eq_ok_iff]
  constructor
  · rintro ⟨⟨stack, reads⟩, hrun, htop⟩
    obtain ⟨_, reads₁, reads₂, hrun₁, hrun₂, -⟩ := run_append_eq_ok_iff.mp hrun
    obtain ⟨middle, rfl⟩ := run_single_frame hfirst hrun₁
    exact ⟨middle, ⟨reads₁, hrun₁⟩, (stack, reads₂), hrun₂, htop⟩
  · rintro ⟨middle, ⟨reads₁, hrun₁⟩, ⟨stack, reads₂⟩, hrun₂, htop⟩
    exact ⟨(stack, reads₁ ++ reads₂),
      run_append_eq_ok_iff.mpr ⟨_, reads₁, reads₂, hrun₁, hrun₂, rfl⟩, htop⟩

/-- Instructions that leave every stack as it is can be left out of a program. -/
theorem run_filter_iff {keep : Op → Bool} {program : List Op} {stack last : List Cell}
    (hskip : ∀ op stack, keep op = false → ∃ values, machine.step op stack = .ok (stack, values)) :
    (∃ reads, machine.run (program.filter keep) stack = .ok (last, reads)) ↔
      ∃ reads, machine.run program stack = .ok (last, reads) := by
  induction program generalizing stack with
  | nil => rfl
  | cons op program ih =>
    cases hkeep : keep op with
    | false =>
      obtain ⟨values, hstep⟩ := hskip op stack hkeep
      rw [List.filter_cons_of_neg (by simp [hkeep]), ih]
      constructor
      · rintro ⟨reads, hrun⟩
        exact ⟨_, run_cons_eq_ok_iff.mpr ⟨stack, values, reads, hstep, hrun, rfl⟩⟩
      · rintro ⟨_, hrun⟩
        obtain ⟨next, values', rest, hstep', hrest, -⟩ := run_cons_eq_ok_iff.mp hrun
        rw [hstep] at hstep'
        cases hstep'
        exact ⟨rest, hrest⟩
    | true =>
      rw [List.filter_cons_of_pos (by simp [hkeep])]
      constructor
      · rintro ⟨_, hrun⟩
        obtain ⟨next, values, rest, hstep, hrest, -⟩ := run_cons_eq_ok_iff.mp hrun
        obtain ⟨reads, hprogram⟩ := ih.mp ⟨rest, hrest⟩
        exact ⟨_, run_cons_eq_ok_iff.mpr ⟨next, values, reads, hstep, hprogram, rfl⟩⟩
      · rintro ⟨_, hrun⟩
        obtain ⟨next, values, rest, hstep, hrest, -⟩ := run_cons_eq_ok_iff.mp hrun
        obtain ⟨reads, hprogram⟩ := ih.mpr ⟨rest, hrest⟩
        exact ⟨_, run_cons_eq_ok_iff.mpr ⟨next, values, reads, hstep, hprogram, rfl⟩⟩

/-! ### Recorded programs -/

theorem run_reads_length {program : List Op} {stack last : List Cell} {reads : List (List Value)}
    (hrun : machine.run program stack = .ok (last, reads)) : reads.length = program.length := by
  induction program generalizing stack reads with
  | nil =>
    cases hrun
    rfl
  | cons op program ih =>
    obtain ⟨next, values, rest, -, hprogram, rfl⟩ := run_cons_eq_ok_iff.mp hrun
    rw [List.length_cons, List.length_cons, ih hprogram]

theorem heightAfter_recorded {program : List Op} {reads : List (List Value)} (height : ℕ)
    (hlength : reads.length = program.length) :
    machine.heightAfter height (machine.recorded program reads) =
      machine.heightAfter height program := by
  induction program generalizing reads height with
  | nil => rfl
  | cons op program ih =>
    obtain _ | ⟨values, reads⟩ := reads
    · simp at hlength
    · show machine.heightAfter height
        (machine.record op values :: machine.recorded program reads) = _
      rw [heightAfter, heightAfter, machine.effect_record]
      split_ifs with hpop
      · exact ih _ (by simpa using hlength)
      · rfl

/-- A recorded program succeeds where it was recorded, with the same result. -/
theorem run_recorded {program : List Op} {stack last : List Cell} {reads : List (List Value)}
    (hrun : machine.run program stack = .ok (last, reads)) :
    ∃ seen, machine.run (machine.recorded program reads) stack = .ok (last, seen) := by
  induction program generalizing stack reads with
  | nil =>
    cases hrun
    exact ⟨[], rfl⟩
  | cons op program ih =>
    obtain ⟨next, values, rest, hstep, hprogram, rfl⟩ := run_cons_eq_ok_iff.mp hrun
    obtain ⟨seenFirst, hfirst⟩ := machine.step_record hstep
    obtain ⟨seenRest, hrest⟩ := ih hprogram
    exact ⟨seenFirst :: seenRest,
      run_cons_eq_ok_iff.mpr ⟨next, seenFirst, seenRest, hfirst, hrest, rfl⟩⟩

/-- Where a recorded program succeeds, the program reads what was recorded and leads to the same
stack. -/
theorem run_of_run_recorded {program : List Op} {stack last other otherLast : List Cell}
    {reads seen : List (List Value)} (hrun : machine.run program stack = .ok (last, reads))
    (hother : machine.run (machine.recorded program reads) other = .ok (otherLast, seen)) :
    machine.run program other = .ok (otherLast, reads) := by
  induction program generalizing stack reads other seen with
  | nil =>
    cases hrun
    cases hother
    rfl
  | cons op program ih =>
    obtain ⟨next, values, rest, hstep, hprogram, rfl⟩ := run_cons_eq_ok_iff.mp hrun
    obtain ⟨otherNext, seenFirst, seenRest, hotherStep, hotherProgram, -⟩ :=
      run_cons_eq_ok_iff.mp hother
    exact run_cons_eq_ok_iff.mpr ⟨otherNext, values, rest,
      machine.step_of_step_record hstep hotherStep, ih hprogram hotherProgram, rfl⟩

end Machine

/-! ### Circuits -/

/-- What a circuit works on: the state, data that no program sees, and the transcript so far. -/
structure Context (Op Cell Local : Type) where
  state : Cell
  localState : Local
  transcript : List Op

/-- A computation that runs programs on the state and records them. -/
abbrev Circuit (Op Cell Local Error α : Type) := StateT (Context Op Cell Local) (Except Error) α

/-- A program run by a circuit: its reads, with the state it leads to and the transcript extended by
the recorded program. -/
def query (beneath : List Cell) (program : List Op) :
    Circuit Op Cell Local Error (List Value) := fun context ↦ do
  let (stack, reads) ← machine.run program (context.state :: beneath)
  let next ← machine.top stack
  return (reads.flatten,
    { context with
      state := next
      transcript := context.transcript ++ machine.recorded program reads })

/-- What a transcript says about the call of a circuit that recorded it. -/
structure Recording {α : Type} (beneath : List Cell) (circuit : Circuit Op Cell Local Error α)
    (before after : Context Op Cell Local) (value : α) (added : List Op) : Prop where
  transcript_eq : after.transcript = before.transcript ++ added
  height : machine.heightAfter 1 added = some 1
  replay_self : machine.replay beneath added before.state = .ok after.state
  /-- Wherever the transcript is accepted, the circuit would have recorded the same one. -/
  rerun : ∀ {other next}, machine.replay beneath added other = .ok next →
    circuit { before with state := other } = .ok (value, { after with state := next })

/-- The transcript of a circuit stands for it. -/
def Faithful {α : Type} (beneath : List Cell) (circuit : Circuit Op Cell Local Error α) : Prop :=
  ∀ ⦃before after value⦄, circuit before = .ok (value, after) →
    ∃ added, Recording machine beneath circuit before after value added

variable {machine} {beneath : List Cell}

theorem circuit_bind_eq_ok_iff {α β : Type} {first : Circuit Op Cell Local Error α}
    {rest : α → Circuit Op Cell Local Error β} {before after : Context Op Cell Local} {value : β} :
    (first >>= rest) before = .ok (value, after) ↔
      ∃ middle seen, first before = .ok (seen, middle) ∧
        rest seen middle = .ok (value, after) := by
  show (first before >>= fun result ↦ rest result.1 result.2) = _ ↔ _
  rw [bind_eq_ok_iff]
  exact ⟨fun ⟨⟨seen, middle⟩, hfirst, hrest⟩ ↦ ⟨middle, seen, hfirst, hrest⟩,
    fun ⟨middle, seen, hfirst, hrest⟩ ↦ ⟨(seen, middle), hfirst, hrest⟩⟩

@[simp] theorem replay_nil (state : Cell) : machine.replay beneath [] state = .ok state := rfl

/-- A computation that runs no program and does not look at the state is faithful. -/
theorem faithful_of_local {α : Type} {circuit : Circuit Op Cell Local Error α}
    (h : ∀ {before after value}, circuit before = .ok (value, after) →
      after.state = before.state ∧ after.transcript = before.transcript ∧
        ∀ other, circuit { before with state := other } =
          .ok (value, { after with state := other })) :
    Faithful machine beneath circuit := by
  intro before after value hcall
  obtain ⟨hstate, htranscript, hother⟩ := h hcall
  refine ⟨[], by rw [htranscript, List.append_nil], rfl, by rw [hstate, replay_nil], ?_⟩
  intro other next hreplay
  cases hreplay
  exact hother other

theorem faithful_pure {α : Type} (value : α) :
    Faithful machine beneath (pure value : Circuit Op Cell Local Error α) := by
  refine faithful_of_local fun {before after seen} hcall ↦ ?_
  cases hcall
  exact ⟨rfl, rfl, fun _ ↦ rfl⟩

/-- A fallible computation outside the machine is faithful. -/
theorem faithful_lift {α : Type} (computation : Except Error α) :
    Faithful machine beneath (liftM computation : Circuit Op Cell Local Error α) := by
  refine faithful_of_local fun {before after seen} hcall ↦ ?_
  cases computation with
  | error error => cases hcall
  | ok value =>
    cases hcall
    exact ⟨rfl, rfl, fun _ ↦ rfl⟩

/-- A program of height one is faithful. -/
theorem faithful_query {program : List Op} (hheight : machine.heightAfter 1 program = some 1) :
    Faithful machine beneath
      (query machine beneath program : Circuit Op Cell Local Error (List Value)) := by
  intro before after value hcall
  obtain ⟨⟨stack, reads⟩, hrun, hrest⟩ := bind_eq_ok_iff.mp hcall
  obtain ⟨next, rfl⟩ := Machine.run_single_frame hheight hrun
  cases hrest
  have hlength := Machine.run_reads_length hrun
  have hrecorded : machine.heightAfter 1 (machine.recorded program reads) = some 1 := by
    rw [Machine.heightAfter_recorded 1 hlength, hheight]
  refine ⟨machine.recorded program reads, rfl, hrecorded,
    (Machine.replay_eq_ok_iff hrecorded).mpr (Machine.run_recorded hrun), ?_⟩
  intro other last hreplay
  obtain ⟨seen, hother⟩ := (Machine.replay_eq_ok_iff hrecorded).mp hreplay
  have hrerun := Machine.run_of_run_recorded hrun hother
  show (machine.run program (other :: beneath) >>= _) = _
  rw [hrerun]
  rfl

/-- Faithful circuits in sequence. -/
theorem Faithful.bind {α β : Type} {first : Circuit Op Cell Local Error α}
    {rest : α → Circuit Op Cell Local Error β} (hfirst : Faithful machine beneath first)
    (hrest : ∀ seen, Faithful machine beneath (rest seen)) :
    Faithful machine beneath (first >>= rest) := by
  intro before after value hcall
  obtain ⟨middle, seen, hcallFirst, hcallRest⟩ := circuit_bind_eq_ok_iff.mp hcall
  obtain ⟨added₁, recording₁⟩ := hfirst hcallFirst
  obtain ⟨added₂, recording₂⟩ := hrest seen hcallRest
  refine ⟨added₁ ++ added₂, ?_, Machine.heightAfter_append_one recording₁.height recording₂.height,
    ?_, ?_⟩
  · rw [recording₂.transcript_eq, recording₁.transcript_eq, List.append_assoc]
  · exact (Machine.replay_append_eq_ok_iff recording₁.height).mpr
      ⟨middle.state, recording₁.replay_self, recording₂.replay_self⟩
  · intro other next hreplay
    obtain ⟨between, hreplay₁, hreplay₂⟩ :=
      (Machine.replay_append_eq_ok_iff recording₁.height).mp hreplay
    exact circuit_bind_eq_ok_iff.mpr
      ⟨{ middle with state := between }, seen, recording₁.rerun hreplay₁,
        recording₂.rerun hreplay₂⟩

/-! ### Circuits that only read -/

/-- A circuit reads a value off a state: in every context with that state it returns the value and
changes nothing but the transcript. -/
def Reads {α : Type} (circuit : Circuit Op Cell Local Error α) (state : Cell) (value : α) : Prop :=
  ∀ context : Context Op Cell Local, context.state = state →
    ∃ added, circuit context =
      .ok (value, { context with transcript := context.transcript ++ added })

theorem Reads.pure {α : Type} (state : Cell) (value : α) :
    Reads (pure value : Circuit Op Cell Local Error α) state value :=
  fun context _ ↦ ⟨[], by rw [List.append_nil]; rfl⟩

/-- Circuits that only read, in sequence. -/
theorem Reads.bind {α β : Type} {first : Circuit Op Cell Local Error α}
    {rest : α → Circuit Op Cell Local Error β} {state : Cell} {value : α} {result : β}
    (hfirst : Reads first state value) (hrest : Reads (rest value) state result) :
    Reads (first >>= rest) state result := by
  intro context hstate
  obtain ⟨added, hcall⟩ := hfirst context hstate
  obtain ⟨added', hcall'⟩ := hrest { context with transcript := context.transcript ++ added } hstate
  refine ⟨added ++ added', ?_⟩
  rw [← List.append_assoc]
  exact circuit_bind_eq_ok_iff.mpr ⟨_, value, hcall, hcall'⟩

end SealedBid.RecordedPrograms
