import SealedBid.Foundation.FailSafeRun

/-!
# Calls prepared on one state and applied to another

The participants of a component do not execute their calls on its current state. A participant takes
a state that the component had at some time, runs a call there and keeps a receipt of what the run
did, and the component applies the receipts that it is sent, when they arrive. A receipt may be sent
late, never, or more than once.

`DelayedCalls` states what a receipt must be worth: where it is accepted it does what its call would
do afresh, and it is accepted exactly where the call succeeds and would leave the same receipt. Then
any interleaving of preparations and applications is explained by one sequence of calls, executed
one after the other on current states (`run_explained`): the calls whose receipts were applied, in
the order of their application.

Scope. The component has images of states instead of the states; a state must have room for the
calls to come, as in the refinement rule for runs.
-/

set_option autoImplicit false
set_option relaxedAutoImplicit false

namespace SealedBid

open FailSafeRun

/-- A component that executes calls on images of states by applying receipts of them. -/
structure DelayedCalls (State Call Image Receipt Error : Type) where
  exec : Call → State → Except Error State
  image : State → Image
  /-- What a call that succeeds leaves behind. -/
  receipt : Call → State → Receipt
  prepare : Call → Image → Except Error Receipt
  apply : Receipt → Image → Except Error Image
  /-- A state has room for a number of further calls. -/
  Room : ℕ → State → Prop
  room_mono : ∀ {n m state}, n ≤ m → Room m state → Room n state
  room_step : ∀ n state call, Room (n + 1) state → Room n (step exec state call)
  prepare_image : ∀ {call state}, Room 1 state →
    prepare call (image state) = (exec call state).map fun _ ↦ receipt call state
  apply_image : ∀ {call state later prepared reached}, Room 1 state → Room 1 later →
    exec call state = .ok prepared →
      (apply (receipt call state) (image later) = .ok reached ↔
        ∃ next, exec call later = .ok next ∧ receipt call later = receipt call state ∧
          reached = image next)

namespace DelayedCalls

variable {State Call Image Receipt Error : Type}

/-- A call that a participant has prepared, with the number of calls that had been applied to the
state on which it was prepared. -/
structure Prepared (Call Receipt : Type) where
  call : Call
  receipt : Receipt
  height : ℕ

/-- The component and what its participants have prepared. -/
structure Site (Call Image Receipt : Type) where
  /-- The images before the current one, oldest first. -/
  past : List Image
  current : Image
  /-- The calls whose receipts have been applied, oldest first. -/
  applied : List Call
  prepared : List (Prepared Call Receipt)

/-- What happens at a component: a participant prepares a call on the image at some height, or the
component applies one of the receipts that were prepared. -/
inductive Action (Call : Type)
  | prepare (call : Call) (height : ℕ)
  | apply (index : ℕ)

/-- The image at a height. -/
def Site.imageAt (site : Site Call Image Receipt) (height : ℕ) : Option Image :=
  (site.past ++ [site.current])[height]?

/-- A component before the first action. -/
def Site.start (image : Image) : Site Call Image Receipt where
  past := []
  current := image
  applied := []
  prepared := []

variable (component : DelayedCalls State Call Image Receipt Error) (missing : Error)

/-- One action. `missing` is the error for a height or an index that does not exist. -/
def act : Action Call → Site Call Image Receipt → Except Error (Site Call Image Receipt)
  | .prepare call height, site =>
    match site.imageAt height with
    | none => .error missing
    | some image => (component.prepare call image).map fun receipt ↦
        { site with prepared := site.prepared ++ [⟨call, receipt, height⟩] }
  | .apply index, site =>
    match site.prepared[index]? with
    | none => .error missing
    | some prepared => (component.apply prepared.receipt site.current).map fun next ↦
        { site with
          past := site.past ++ [site.current]
          current := next
          applied := site.applied ++ [prepared.call] }

/-- The state after the first calls that were applied. -/
def stateAt (initial : State) (site : Site Call Image Receipt) (height : ℕ) : State :=
  run component.exec initial (site.applied.take height)

/-- A site is explained by the calls that were applied: they succeed one after the other from the
initial state, the images are those of the states in between, and a call that is prepared succeeded
on the state at its height and left its receipt there. -/
structure Explained (initial : State) (site : Site Call Image Receipt) : Prop where
  applied_ok : runAll component.exec initial site.applied =
    .ok (run component.exec initial site.applied)
  past_eq : site.past = (List.range site.applied.length).map fun height ↦
    component.image (component.stateAt initial site height)
  current_eq : site.current = component.image (run component.exec initial site.applied)
  prepared_ok : ∀ prepared ∈ site.prepared, prepared.height ≤ site.applied.length ∧
    Succeeds component.exec (component.stateAt initial site prepared.height) prepared.call ∧
      prepared.receipt =
        component.receipt prepared.call (component.stateAt initial site prepared.height)

variable {component missing} {initial : State} {site next : Site Call Image Receipt}

theorem explained_start (component : DelayedCalls State Call Image Receipt Error)
    (initial : State) :
    component.Explained initial (Site.start (component.image initial)) where
  applied_ok := rfl
  past_eq := rfl
  current_eq := rfl
  prepared_ok := fun _ hprepared ↦ absurd hprepared List.not_mem_nil

/-- A run uses up room for its calls. -/
theorem room_run {n : ℕ} {state : State} {calls : List Call}
    (hroom : component.Room (n + calls.length) state) :
    component.Room n (run component.exec state calls) := by
  induction calls generalizing state with
  | nil => exact hroom
  | cons call rest ih =>
    rw [run_cons]
    exact ih (component.room_step _ state call hroom)

/-- There is room for a call at every height. -/
theorem room_stateAt {n : ℕ} (hroom : component.Room (n + site.applied.length) initial)
    (height : ℕ) : component.Room n (component.stateAt initial site height) := by
  refine room_run (component.room_mono ?_ hroom)
  rw [List.length_take]
  omega

/-- The images at the heights are those of the states at the heights. -/
theorem Explained.imageAt_eq (h : component.Explained initial site) {height : ℕ} {image : Image}
    (himage : site.imageAt height = some image) :
    height ≤ site.applied.length ∧
      image = component.image (component.stateAt initial site height) := by
  have hlength : site.past.length = site.applied.length := by
    rw [h.past_eq, List.length_map, List.length_range]
  rw [Site.imageAt, List.getElem?_append] at himage
  split_ifs at himage with hpast
  · rw [h.past_eq, List.getElem?_map, List.getElem?_range (by omega)] at himage
    exact ⟨by omega, (Option.some.inj himage).symm⟩
  · obtain ⟨hindex, himage⟩ := List.getElem?_eq_some_iff.mp himage
    rw [List.length_singleton] at hindex
    obtain rfl : height = site.applied.length := by omega
    refine ⟨Nat.le_refl _, ?_⟩
    rw [stateAt, List.take_length, ← h.current_eq, ← himage, List.getElem_singleton]

/-- A receipt that is applied to the current image does what its call does on the current state,
and is accepted when the call succeeds there and would leave the same receipt. Assumes: the initial
state has room for the calls that were applied and one more. -/
theorem Explained.apply_iff (h : component.Explained initial site)
    (hroom : component.Room (1 + site.applied.length) initial)
    {prepared : Prepared Call Receipt} (hprepared : prepared ∈ site.prepared) {reached : Image} :
    component.apply prepared.receipt site.current = .ok reached ↔
      ∃ next, component.exec prepared.call (run component.exec initial site.applied) = .ok next ∧
        component.receipt prepared.call (run component.exec initial site.applied) =
            component.receipt prepared.call
              (component.stateAt initial site prepared.height) ∧
          reached = component.image next := by
  obtain ⟨_, ⟨_, hcall⟩, hreceipt⟩ := h.prepared_ok prepared hprepared
  rw [hreceipt, h.current_eq]
  exact component.apply_image (room_stateAt hroom _) (room_run hroom) hcall

/-- The states at the heights stay the same when further calls are applied. -/
theorem stateAt_append {calls : List Call} (hnext : next.applied = site.applied ++ calls)
    {height : ℕ} (hheight : height ≤ site.applied.length) :
    component.stateAt initial next height = component.stateAt initial site height := by
  rw [stateAt, stateAt, hnext, List.take_append_of_le_length hheight]

/-- An action keeps a site explained, and applies at most one call. -/
theorem Explained.act (h : component.Explained initial site) {action : Action Call}
    (hroom : component.Room (1 + site.applied.length) initial)
    (hact : component.act missing action site = .ok next) :
    component.Explained initial next ∧ next.applied.length ≤ site.applied.length + 1 := by
  cases action with
  | prepare call height =>
    rw [DelayedCalls.act] at hact
    cases himage : site.imageAt height with
    | none => simp [himage] at hact
    | some image =>
      rw [himage] at hact
      obtain ⟨hheight, rfl⟩ := h.imageAt_eq himage
      obtain ⟨receipt, hprepare, rfl⟩ := map_eq_ok_iff.mp hact
      rw [component.prepare_image (room_stateAt hroom _)] at hprepare
      obtain ⟨state, hcall, rfl⟩ := map_eq_ok_iff.mp hprepare
      refine ⟨⟨h.applied_ok, h.past_eq, h.current_eq, fun prepared hprepared ↦ ?_⟩, Nat.le_succ _⟩
      rcases List.mem_append.mp hprepared with hprepared | hprepared
      · exact h.prepared_ok prepared hprepared
      · obtain rfl := List.mem_singleton.mp hprepared
        exact ⟨hheight, ⟨state, hcall⟩, rfl⟩
  | apply index =>
    rw [DelayedCalls.act] at hact
    cases hindex : site.prepared[index]? with
    | none => simp [hindex] at hact
    | some prepared =>
      rw [hindex] at hact
      obtain ⟨reached, happly, rfl⟩ := map_eq_ok_iff.mp hact
      have hprepared : prepared ∈ site.prepared := List.mem_of_getElem? hindex
      obtain ⟨state, hcall, -, rfl⟩ := (h.apply_iff hroom hprepared).mp happly
      have hrun : run component.exec initial (site.applied ++ [prepared.call]) = state := by
        rw [run_concat, step_of_ok hcall]
      refine ⟨⟨?_, ?_, ?_, ?_⟩, by simp⟩
      · refine runAll_append_eq_ok_iff.mpr ⟨_, h.applied_ok, ?_⟩
        simp only [runAll, hcall, hrun]
      · -- the image that was current joins the past
        simp only [List.length_append, List.length_singleton, List.range_succ, List.map_append,
          List.map_singleton]
        refine congrArg₂ _ ?_ ?_
        · rw [h.past_eq]
          refine List.map_congr_left fun height hheight ↦ ?_
          exact congrArg component.image
            (stateAt_append rfl (Nat.le_of_lt (List.mem_range.mp hheight))).symm
        · rw [stateAt_append rfl (Nat.le_refl _), stateAt, List.take_length, h.current_eq]
      · rw [hrun]
      · intro other hother
        obtain ⟨hheight, hsucceeds, hreceipt⟩ := h.prepared_ok other hother
        rw [stateAt_append rfl hheight]
        exact ⟨by rw [List.length_append]; omega, hsucceeds, hreceipt⟩

/-- Actions keep a site explained. -/
theorem Explained.run (h : component.Explained initial site) (missing : Error)
    {actions : List (Action Call)}
    (hroom : component.Room (1 + (site.applied.length + actions.length)) initial) :
    component.Explained initial (FailSafeRun.run (component.act missing) site actions) ∧
      (FailSafeRun.run (component.act missing) site actions).applied.length ≤
        site.applied.length + actions.length := by
  induction actions generalizing site with
  | nil => exact ⟨h, Nat.le_add_right _ _⟩
  | cons action rest ih =>
    rw [List.length_cons] at hroom ⊢
    rw [run_cons]
    by_cases hact : Succeeds (component.act missing) site action
    · obtain ⟨hnext, hlength⟩ :=
        h.act (component.room_mono (by omega) hroom) hact.exec_eq
      obtain ⟨hlast, hle⟩ := ih hnext (component.room_mono (by omega) hroom)
      exact ⟨hlast, by omega⟩
    · rw [step_of_not_succeeds hact]
      obtain ⟨hlast, hle⟩ := ih h (component.room_mono (by omega) hroom)
      exact ⟨hlast, by omega⟩

/-- Any interleaving of preparations and applications is explained by the calls that were applied.
Assumes: the initial state has room for the actions. -/
theorem run_explained (missing : Error) {actions : List (Action Call)}
    (hroom : component.Room (1 + actions.length) initial) :
    component.Explained initial
        (FailSafeRun.run (component.act missing) (Site.start (component.image initial)) actions) ∧
      (FailSafeRun.run (component.act missing) (Site.start (component.image initial))
        actions).applied.length ≤ actions.length := by
  have hroom' : component.Room (1 + (0 + actions.length)) initial := by rwa [Nat.zero_add]
  obtain ⟨hexplained, hlength⟩ := (explained_start component initial).run missing hroom'
  exact ⟨hexplained, by rwa [Site.start, List.length_nil, Nat.zero_add] at hlength⟩

end DelayedCalls

end SealedBid
