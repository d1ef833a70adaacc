import Mathlib.Algebra.BigOperators.Group.List.Basic
import Mathlib.Data.List.AList
import Mathlib.Data.List.Induction

/-!
# Stores kept by a log of puts and removals

A keyed store that is filled and emptied by a log of puts and removals (`replay`). A log is orderly
when no key is put twice and only keys already put are removed (`Orderly`). The store of an orderly
log holds exactly what was put and not removed (`Orderly.lookup_replay`), so its pairs are a
rearrangement of the remaining puts (`Orderly.pairs_perm`).

`append_separator_inj` is for composite keys, texts joined by a separator. `sum_map_split` is the
accounting behind a store of amounts: a total over a list without repetitions is the total over a
part of it and the total over the rest.
-/

set_option autoImplicit false
set_option relaxedAutoImplicit false

namespace SealedBid.KeyedLog

variable {Key Value : Type*} [DecidableEq Key]

/-- A put or a removal. -/
inductive Op (Key Value : Type*)
  | put (key : Key) (value : Value)
  | remove (key : Key)

/-- The store after one operation. -/
def apply (store : AList fun _ : Key ↦ Value) : Op Key Value → AList fun _ : Key ↦ Value
  | .put key value => store.insert key value
  | .remove key => store.erase key

/-- The store after a log, from the empty store. -/
def replay (log : List (Op Key Value)) : AList fun _ : Key ↦ Value := log.foldl apply ∅

/-- What a log puts, oldest first. -/
def puts (log : List (Op Key Value)) : List (Key × Value) :=
  log.filterMap fun
    | .put key value => some (key, value)
    | .remove _ => none

/-- The keys that a log removes, oldest first. -/
def removed (log : List (Op Key Value)) : List Key :=
  log.filterMap fun
    | .put _ _ => none
    | .remove key => some key

/-- No key is put twice, and a key is removed only after it was put. -/
inductive Orderly : List (Op Key Value) → Prop
  | nil : Orderly []
  | put {log : List (Op Key Value)} {key : Key} {value : Value} (horderly : Orderly log)
      (hfresh : key ∉ (puts log).map Prod.fst) : Orderly (log ++ [.put key value])
  | remove {log : List (Op Key Value)} {key : Key} (horderly : Orderly log)
      (hput : key ∈ (puts log).map Prod.fst) : Orderly (log ++ [.remove key])

omit [DecidableEq Key] in
theorem puts_append (first second : List (Op Key Value)) :
    puts (first ++ second) = puts first ++ puts second :=
  List.filterMap_append

omit [DecidableEq Key] in
theorem removed_append (first second : List (Op Key Value)) :
    removed (first ++ second) = removed first ++ removed second :=
  List.filterMap_append

omit [DecidableEq Key] in
theorem puts_concat_put (log : List (Op Key Value)) (key : Key) (value : Value) :
    puts (log ++ [.put key value]) = puts log ++ [(key, value)] :=
  puts_append log _

omit [DecidableEq Key] in
theorem puts_concat_remove (log : List (Op Key Value)) (key : Key) :
    puts (log ++ [.remove key]) = puts log := by
  rw [puts_append]
  exact List.append_nil _

omit [DecidableEq Key] in
theorem removed_concat_put (log : List (Op Key Value)) (key : Key) (value : Value) :
    removed (log ++ [.put key value]) = removed log := by
  rw [removed_append]
  exact List.append_nil _

omit [DecidableEq Key] in
theorem removed_concat_remove (log : List (Op Key Value)) (key : Key) :
    removed (log ++ [.remove key]) = removed log ++ [key] :=
  removed_append log _

omit [DecidableEq Key] in
@[simp] theorem puts_map_put {α : Type*} (key : α → Key) (value : α → Value) (items : List α) :
    puts (items.map fun item ↦ .put (key item) (value item)) =
      items.map fun item ↦ (key item, value item) := by
  simp [puts, List.filterMap_map]

omit [DecidableEq Key] in
@[simp] theorem puts_map_remove {α : Type*} (key : α → Key) (items : List α) :
    puts (items.map fun item ↦ .remove (key item) : List (Op Key Value)) = [] := by
  simp [puts, List.filterMap_map]

omit [DecidableEq Key] in
@[simp] theorem removed_map_put {α : Type*} (key : α → Key) (value : α → Value) (items : List α) :
    removed (items.map fun item ↦ .put (key item) (value item)) = [] := by
  simp [removed, List.filterMap_map]

omit [DecidableEq Key] in
@[simp] theorem removed_map_remove {α : Type*} (key : α → Key) (items : List α) :
    removed (items.map fun item ↦ .remove (key item) : List (Op Key Value)) = items.map key := by
  simp [removed, List.filterMap_map]

theorem replay_concat (log : List (Op Key Value)) (op : Op Key Value) :
    replay (log ++ [op]) = apply (replay log) op := by
  unfold replay
  rw [List.foldl_append]
  rfl

/-- What a store holds was put. -/
theorem mem_puts_of_lookup {log : List (Op Key Value)} {key : Key} {value : Value}
    (h : (replay log).lookup key = some value) : (key, value) ∈ puts log := by
  induction log using List.reverseRecOn with
  | nil => cases h
  | append_singleton log op ih =>
    rw [replay_concat] at h
    cases op with
    | put added item =>
      rw [puts_concat_put, List.mem_append]
      by_cases hkey : key = added
      · subst hkey
        rw [apply, AList.lookup_insert, Option.some.injEq] at h
        exact Or.inr (List.mem_singleton.mpr (by rw [h]))
      · rw [apply, AList.lookup_insert_ne hkey] at h
        exact Or.inl (ih h)
    | remove gone =>
      rw [puts_concat_remove]
      by_cases hkey : key = gone
      · subst hkey
        rw [apply, AList.lookup_erase] at h
        cases h
      · rw [apply, AList.lookup_erase_ne hkey] at h
        exact ih h

/-! ### The store of an orderly log -/

section

variable {log : List (Op Key Value)}

omit [DecidableEq Key]

/-- An orderly log stays orderly when fresh keys are put. -/
theorem Orderly.append_puts {α : Type*} {key : α → Key} {value : α → Value}
    (h : Orderly log) (items : List α)
    (hnodup : ((puts log).map Prod.fst ++ items.map key).Nodup) :
    Orderly (log ++ items.map fun item ↦ .put (key item) (value item)) := by
  induction items using List.reverseRecOn with
  | nil => simpa using h
  | append_singleton items item ih =>
    rw [List.map_append, List.map_singleton, ← List.append_assoc] at hnodup ⊢
    obtain ⟨hbefore, _, hdisjoint⟩ := List.nodup_append.mp hnodup
    refine Orderly.put (ih hbefore) ?_
    rw [puts_append, puts_map_put, List.map_append, List.map_map]
    exact fun hmem ↦ hdisjoint _ hmem _ (List.mem_singleton_self _) rfl

/-- An orderly log stays orderly when keys already put are removed. -/
theorem Orderly.append_removals {α : Type*} {key : α → Key} (h : Orderly log) (items : List α)
    (hput : ∀ item ∈ items, key item ∈ (puts log).map Prod.fst) :
    Orderly (log ++ items.map fun item ↦ .remove (key item)) := by
  induction items using List.reverseRecOn with
  | nil => simpa using h
  | append_singleton items item ih =>
    rw [List.map_append, List.map_singleton, ← List.append_assoc]
    refine Orderly.remove (ih fun other hother ↦ hput other (List.mem_append_left _ hother)) ?_
    rw [puts_append, puts_map_remove, List.append_nil]
    exact hput item (List.mem_append_right _ (List.mem_singleton_self item))

theorem Orderly.nodup_keys (h : Orderly log) : ((puts log).map Prod.fst).Nodup := by
  induction h with
  | nil => exact List.nodup_nil
  | put _ hfresh ih =>
    rw [puts_concat_put, List.map_append, List.map_singleton, ← List.concat_eq_append]
    exact List.Nodup.concat hfresh ih
  | remove _ _ ih => rwa [puts_concat_remove]

theorem Orderly.put_of_removed (h : Orderly log) :
    ∀ key ∈ removed log, key ∈ (puts log).map Prod.fst := by
  induction h with
  | nil => simp [removed]
  | put _ _ ih =>
    intro key hkey
    rw [removed_concat_put] at hkey
    rw [puts_concat_put, List.map_append]
    exact List.mem_append_left _ (ih key hkey)
  | remove _ hput ih =>
    intro key hkey
    rw [removed_concat_remove, List.mem_append] at hkey
    rw [puts_concat_remove]
    rcases hkey with hkey | hkey
    · exact ih key hkey
    · rwa [List.mem_singleton.mp hkey]

end

/-- The store of an orderly log holds what was put and not removed. -/
theorem Orderly.lookup_replay {log : List (Op Key Value)} (h : Orderly log) (key : Key)
    (value : Value) :
    (replay log).lookup key = some value ↔ (key, value) ∈ puts log ∧ key ∉ removed log := by
  induction h with
  | nil => simp [replay, puts]
  | @put log put added horderly hfresh ih =>
    have hunremoved : put ∉ removed log := fun hmem ↦ hfresh (horderly.put_of_removed put hmem)
    have hunput : ∀ value, (put, value) ∉ puts log :=
      fun value hmem ↦ hfresh (List.mem_map.mpr ⟨_, hmem, rfl⟩)
    rw [replay_concat, puts_concat_put, removed_concat_put, List.mem_append, List.mem_singleton,
      Prod.mk.injEq, apply]
    by_cases hkey : key = put
    · subst hkey
      rw [AList.lookup_insert, Option.some.injEq]
      simp only [hunput, hunremoved, not_false_iff, and_true, true_and, false_or]
      exact eq_comm
    · rw [AList.lookup_insert_ne hkey, ih]
      simp only [hkey, false_and, or_false]
  | @remove log gone horderly hput ih =>
    rw [replay_concat, puts_concat_remove, removed_concat_remove, List.mem_append,
      List.mem_singleton, apply]
    by_cases hkey : key = gone
    · subst hkey
      simp only [AList.lookup_erase, or_true, not_true_eq_false, and_false, reduceCtorEq]
    · rw [AList.lookup_erase_ne hkey, ih]
      simp only [hkey, or_false]

/-- The pairs of a store. -/
def pairs (store : AList fun _ : Key ↦ Value) : List (Key × Value) :=
  store.entries.map fun entry ↦ (entry.1, entry.2)

theorem mem_pairs_iff {store : AList fun _ : Key ↦ Value} {key : Key} {value : Value} :
    (key, value) ∈ pairs store ↔ store.lookup key = some value := by
  rw [← Option.mem_def, AList.mem_lookup_iff, pairs, List.mem_map]
  constructor
  · rintro ⟨entry, hmem, hentry⟩
    cases hentry
    exact hmem
  · exact fun hmem ↦ ⟨⟨key, value⟩, hmem, rfl⟩

/-- The pairs of the store of an orderly log are the puts that were not removed. -/
theorem Orderly.pairs_perm {log : List (Op Key Value)} (h : Orderly log) :
    (pairs (replay log)).Perm ((puts log).filter fun entry ↦ entry.1 ∉ removed log) := by
  have hnodup : (pairs (replay log)).Nodup := by
    refine List.Nodup.of_map Prod.fst ?_
    rw [pairs, List.map_map]
    exact (replay log).nodupKeys
  refine (List.perm_ext_iff_of_nodup hnodup (h.nodup_keys.of_map.filter _)).mpr ?_
  rintro ⟨key, value⟩
  rw [mem_pairs_iff, h.lookup_replay, List.mem_filter, decide_eq_true_eq]

/-! ### Composite keys -/

/-- A separator that does not occur in the part after it splits a text in one way. -/
theorem append_separator_inj {α : Type*} {separator : α} {first second after other : List α}
    (hafter : separator ∉ after) (hother : separator ∉ other)
    (h : first ++ separator :: after = second ++ separator :: other) :
    first = second ∧ after = other := by
  induction first generalizing second with
  | nil =>
    cases second with
    | nil => exact ⟨rfl, (List.cons.inj h).2⟩
    | cons head second =>
      refine absurd ?_ hafter
      rw [(List.cons.inj h).2]
      exact List.mem_append_right _ List.mem_cons_self
  | cons head first ih =>
    cases second with
    | nil =>
      refine absurd ?_ hother
      rw [← (List.cons.inj h).2]
      exact List.mem_append_right _ List.mem_cons_self
    | cons head' second =>
      obtain ⟨rfl, htail⟩ := List.cons.inj h
      obtain ⟨rfl, hrest⟩ := ih htail
      exact ⟨rfl, hrest⟩

/-! ### Totals -/

/-- A total over a list without repetitions is the total over the rest of the list when a part of
it is left out, and the total over the part. -/
theorem sum_map_split {α M : Type*} [DecidableEq α] [AddCommMonoid M] {whole part : List α}
    (hwhole : whole.Nodup) (hpart : part.Nodup) (hsubset : ∀ item ∈ part, item ∈ whole)
    (f : α → M) :
    (whole.map f).sum = ((whole.filter (· ∉ part)).map f).sum + (part.map f).sum := by
  have hsame : (whole.filter (· ∈ part)).Perm part := by
    refine (List.perm_ext_iff_of_nodup (hwhole.filter _) hpart).mpr fun item ↦ ?_
    rw [List.mem_filter, decide_eq_true_eq]
    exact ⟨fun hmem ↦ hmem.2, fun hmem ↦ ⟨hsubset item hmem, hmem⟩⟩
  have hsplit := (List.filter_append_perm (· ∈ part) whole).map f
  rw [← hsplit.sum_eq, List.map_append, List.sum_append, (hsame.map f).sum_eq, add_comm]
  simp

end SealedBid.KeyedLog
