import SealedBid.Foundation.NumberValues

/-!
# Running maxima

A position that is updated with every item of a stream and is meant to be the maximum of the numbers
seen so far, zero when there are none (`IsMaximum`). It regresses when it decreases, stops being a
number or is not that maximum (`NeverRegresses`).

`neverRegresses_iff` is for a position that starts at zero, is the greatest of zero and the numbers
seen as long as none is `NaN`, and becomes `NaN` with a `NaN` (`KeepsGreatest`): it never regresses
exactly when no number is `NaN` and the first one is not negative.
-/

set_option autoImplicit false
set_option relaxedAutoImplicit false

namespace SealedBid.RunningMaximum

/-- The greatest of some numbers. -/
def Greatest (xs : List Number) (m : Number) : Prop := m ∈ xs ∧ ∀ x ∈ xs, x.le m = true

/-- The maximum of some numbers, zero when there are none. -/
def IsMaximum (xs : List Number) (m : Number) : Prop := (xs = [] ∧ m = .zero) ∨ Greatest xs m

theorem Greatest.ne_nan {xs : List Number} {m : Number} (h : Greatest xs m) : m ≠ .nan := by
  rintro rfl
  have hself := h.2 _ h.1
  cases hself

theorem greatest_zero : Greatest [.zero] .zero :=
  ⟨List.mem_cons_self, fun x hx ↦ by rw [List.mem_singleton.mp hx]; rfl⟩

/-- The greatest number when one more is seen. -/
theorem Greatest.concat {xs : List Number} {m x : Number} (h : Greatest xs m) (hx : x ≠ .nan) :
    Greatest (xs ++ [x]) (if x.le m then m else x) := by
  split_ifs with hle
  · refine ⟨List.mem_append_left _ h.1, fun y hy ↦ ?_⟩
    rcases List.mem_append.mp hy with hy | hy
    · exact h.2 y hy
    · rwa [List.mem_singleton.mp hy]
  · have hge : m.le x = true := (Number.le_total h.ne_nan hx).resolve_right hle
    refine ⟨List.mem_append_right _ (List.mem_singleton_self x), fun y hy ↦ ?_⟩
    rcases List.mem_append.mp hy with hy | hy
    · exact Number.le_trans (h.2 y hy) hge
    · rw [List.mem_singleton.mp hy]
      exact Number.le_refl hx

/-- Zero makes no difference to the maximum when the first number is not negative. -/
theorem Greatest.isMaximum {xs : List Number} {m : Number} (h : Greatest (.zero :: xs) m)
    (hfirst : ∀ x ∈ xs.head?, Number.zero.le x = true) : IsMaximum xs m := by
  cases xs with
  | nil => exact Or.inl ⟨rfl, List.mem_singleton.mp h.1⟩
  | cons x xs =>
    refine Or.inr ⟨?_, fun y hy ↦ h.2 y (List.mem_cons_of_mem _ hy)⟩
    rcases List.mem_cons.mp h.1 with hzero | hmem
    · -- then the first number is zero as well
      have hle : x.le m = true := h.2 x (by simp)
      rw [hzero] at hle ⊢
      rw [Number.le_antisymm (hfirst x rfl) hle]
      exact List.mem_cons_self
    · exact hmem

section

variable {Item : Type} (number : Item → Option Number) (position : List Item → Number)

/-- After every item of a stream the position has not decreased, is a number, and is the maximum of
the numbers seen so far that are not `NaN`. -/
def NeverRegresses (items : List Item) : Prop :=
  ∀ seen item rest, items = seen ++ item :: rest →
    (position seen).le (position (seen ++ [item])) = true ∧
      position (seen ++ [item]) ≠ .nan ∧
        IsMaximum (((seen ++ [item]).filterMap number).filter (· ≠ .nan))
          (position (seen ++ [item]))

/-- A position that is the greatest of zero and the numbers seen until a `NaN` makes it `NaN`. -/
structure KeepsGreatest (items : List Item) : Prop where
  greatest : ∀ seen, seen <+: items → .nan ∉ seen.filterMap number →
    Greatest (.zero :: seen.filterMap number) (position seen)
  nan : ∀ seen item, seen ++ [item] <+: items → number item = some .nan →
    position (seen ++ [item]) = .nan

variable {number position} {items : List Item}

theorem prefix_of_split {seen rest : List Item} {item : Item}
    (h : items = seen ++ item :: rest) : seen ++ [item] <+: items :=
  ⟨rest, by rw [h, List.append_assoc, List.singleton_append]⟩

/-- A position that never regresses has seen no `NaN`, which would make it `NaN`. -/
theorem NeverRegresses.nan_notMem (h : NeverRegresses number position items)
    (hkeeps : KeepsGreatest number position items) : .nan ∉ items.filterMap number := by
  intro hmem
  obtain ⟨item, hitem, hnumber⟩ := List.mem_filterMap.mp hmem
  obtain ⟨seen, rest, hsplit⟩ := List.append_of_mem hitem
  exact (h seen item rest hsplit).2.1 (hkeeps.nan seen item (prefix_of_split hsplit) hnumber)

/-- The position after the first number is that number, and it is at least zero. -/
theorem NeverRegresses.head_nonneg (h : NeverRegresses number position items)
    (hkeeps : KeepsGreatest number position items) :
    ∀ x ∈ (items.filterMap number).head?, Number.zero.le x = true := by
  intro x hx
  obtain ⟨others, hothers⟩ := List.head?_eq_some_iff.mp hx
  obtain ⟨seen, item, rest, hsplit, hseen, hnumber, _⟩ := List.filterMap_eq_cons_iff.mp hothers
  have hone : (seen ++ [item]).filterMap number = [x] := by
    rw [List.filterMap_append, List.filterMap_eq_nil_iff.mpr hseen]
    simp [hnumber]
  have hx : x ≠ .nan := by
    rintro rfl
    exact h.nan_notMem hkeeps (hothers ▸ List.mem_cons_self)
  have hzero := hkeeps.greatest _ (prefix_of_split hsplit) (by rw [hone]; simpa using hx.symm)
  have hmaximum := (h seen item rest hsplit).2.2
  rw [hone] at hzero hmaximum
  rw [List.filter_cons_of_pos (by simpa using hx), List.filter_nil] at hmaximum
  rcases hmaximum with ⟨hempty, _⟩ | hmaximum
  · cases hempty
  · rw [← List.mem_singleton.mp hmaximum.1]
    exact hzero.2 _ List.mem_cons_self

/-- Without a `NaN`, and with a first number that is not negative, the position is the maximum of
the numbers seen after every item. -/
theorem KeepsGreatest.neverRegresses (h : KeepsGreatest number position items)
    (hnumbers : .nan ∉ items.filterMap number)
    (hfirst : ∀ x ∈ (items.filterMap number).head?, Number.zero.le x = true) :
    NeverRegresses number position items := by
  intro seen item rest hsplit
  have happend : items.filterMap number =
      (seen ++ [item]).filterMap number ++ rest.filterMap number := by
    rw [hsplit, List.append_cons, List.filterMap_append]
  rw [happend, List.mem_append, not_or] at hnumbers
  have hbefore : .nan ∉ seen.filterMap number := by
    intro hmem
    rw [List.filterMap_append] at hnumbers
    exact hnumbers.1 (List.mem_append_left _ hmem)
  have hseen := h.greatest seen ⟨item :: rest, hsplit.symm⟩ hbefore
  have hafter := h.greatest _ (prefix_of_split hsplit) hnumbers.1
  refine ⟨hafter.2 _ ?_, hafter.ne_nan, ?_⟩
  · rw [List.filterMap_append, ← List.cons_append]
    exact List.mem_append_left _ hseen.1
  · have hfilter : ((seen ++ [item]).filterMap number).filter (· ≠ .nan) =
        (seen ++ [item]).filterMap number := by
      rw [List.filter_eq_self]
      intro x hx
      rw [decide_eq_true_eq]
      rintro rfl
      exact hnumbers.1 hx
    rw [hfilter]
    refine hafter.isMaximum fun x hx ↦ hfirst x ?_
    rw [happend, List.head?_append]
    rw [Option.mem_def] at hx ⊢
    rw [hx]
    rfl

/-- When a running maximum that starts at zero never regresses. -/
theorem neverRegresses_iff (h : KeepsGreatest number position items) :
    NeverRegresses number position items ↔
      .nan ∉ items.filterMap number ∧
        ∀ x ∈ (items.filterMap number).head?, Number.zero.le x = true :=
  ⟨fun hnever ↦ ⟨hnever.nan_notMem h, hnever.head_nonneg h⟩,
    fun hnumbers ↦ h.neverRegresses hnumbers.1 hnumbers.2⟩

end

end SealedBid.RunningMaximum
