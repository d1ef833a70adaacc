import Mathlib.Data.List.MinMax
import Mathlib.Data.List.Perm.Basic

/-!
# The first entry with the largest value

`List.argmax` picks the first of the items of a list whose value is largest.
`argmax_eq_some_iff_split` says so in terms of the list alone: the items before the leading one have
smaller values and the items after it values at most as large. A permutation of the list keeps the
largest value (`argmax_map_value_of_perm`), and keeps any label that all items with the largest
value share (`argmax_map_label_of_perm`); among items with the largest value that carry different
labels the order of the list decides.
-/

set_option autoImplicit false
set_option relaxedAutoImplicit false

namespace SealedBid.LeadingEntry

variable {Item Value : Type*} [LinearOrder Value] {value : Item → Value}

/-- The first item with the largest value splits the list: smaller values before it, values at most
as large after it. -/
theorem argmax_eq_some_iff_split {items : List Item} {leader : Item} :
    items.argmax value = some leader ↔
      ∃ before after, items = before ++ leader :: after ∧
        (∀ item ∈ before, value item < value leader) ∧
        ∀ item ∈ after, value item ≤ value leader := by
  constructor
  · intro hleader
    induction items generalizing leader with
    | nil => simp at hleader
    | cons item rest ih =>
      rw [List.argmax_cons] at hleader
      cases hrest : rest.argmax value with
      | none =>
        rw [List.argmax_eq_none] at hrest
        subst hrest
        simp only [List.argmax_nil, Option.some.injEq] at hleader
        exact ⟨[], [], by rw [hleader, List.nil_append], by simp, by simp⟩
      | some best =>
        simp only [hrest] at hleader
        split_ifs at hleader with hlt
        · obtain rfl : best = leader := Option.some.inj hleader
          obtain ⟨before, after, hsplit, hbefore, hafter⟩ := ih hrest
          refine ⟨item :: before, after, by rw [hsplit, List.cons_append], ?_, hafter⟩
          intro other hother
          rcases List.mem_cons.mp hother with rfl | hother
          · exact hlt
          · exact hbefore other hother
        · obtain rfl : item = leader := Option.some.inj hleader
          refine ⟨[], rest, rfl, by simp, fun other hother ↦ ?_⟩
          exact (List.le_of_mem_argmax hother hrest).trans (not_lt.mp hlt)
  · rintro ⟨before, after, rfl, hbefore, hafter⟩
    induction before with
    | nil =>
      rw [List.nil_append, List.argmax_cons]
      cases hrest : after.argmax value with
      | none => rfl
      | some best =>
        have hle := hafter best (List.argmax_mem hrest)
        simp only [if_neg (not_lt.mpr hle)]
    | cons item rest ih =>
      have hlt := hbefore item List.mem_cons_self
      rw [List.cons_append, List.argmax_cons,
        ih fun other hother ↦ hbefore other (List.mem_cons_of_mem item hother)]
      simp only [if_pos hlt]

/-- When all items with the largest value carry one label, the label of the leader does not depend
on the order of the list. Assumes: any two items of the list whose value no item exceeds carry the
same label. -/
theorem argmax_map_label_of_perm {Label : Type*} {label : Item → Label}
    {items reordered : List Item} (hperm : items.Perm reordered)
    (hunique : ∀ first ∈ items, ∀ second ∈ items, (∀ item ∈ items, value item ≤ value first) →
      (∀ item ∈ items, value item ≤ value second) → label first = label second) :
    (items.argmax value).map label = (reordered.argmax value).map label := by
  cases hleader : items.argmax value with
  | none =>
    have hreordered : reordered = [] :=
      List.perm_nil.mp ((List.argmax_eq_none.mp hleader) ▸ hperm.symm)
    rw [hreordered, List.argmax_nil]
  | some leader =>
    cases hother : reordered.argmax value with
    | none =>
      have hitems : items = [] := List.perm_nil.mp ((List.argmax_eq_none.mp hother) ▸ hperm)
      rw [hitems, List.argmax_nil] at hleader
      cases hleader
    | some other =>
      rw [Option.map_some, Option.map_some]
      refine congrArg some (hunique leader (List.argmax_mem hleader) other
        (hperm.mem_iff.mpr (List.argmax_mem hother)) ?_ ?_)
      · exact fun item hitem ↦ List.le_of_mem_argmax hitem hleader
      · exact fun item hitem ↦ List.le_of_mem_argmax (hperm.mem_iff.mp hitem) hother

/-- The largest value of a list does not depend on its order. -/
theorem argmax_map_value_of_perm {items reordered : List Item} (hperm : items.Perm reordered) :
    (items.argmax value).map value = (reordered.argmax value).map value :=
  argmax_map_label_of_perm hperm fun first hfirst second hsecond hfirstMax hsecondMax ↦
    le_antisymm (hsecondMax first hfirst) (hfirstMax second hsecond)

end SealedBid.LeadingEntry
