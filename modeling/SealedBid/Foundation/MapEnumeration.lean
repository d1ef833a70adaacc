import Mathlib.Data.Finmap

/-!
# Finite maps listed by their insertions

A finite map that is only ever extended at fresh keys is the list of its insertions, read as a set
of pairs. `Enumerates` says that a list of key-value pairs with distinct keys lists a finite map.
Inserting at a fresh key appends a pair (`Enumerates.insert`), the number of keys is the length of
the list (`Enumerates.card_keys`), the keys in any order list the map with what it has there
(`enumerates_map`), and two maps listed by permutations of one list are equal
(`Enumerates.eq_of_perm`), so a map filled at distinct keys does not depend on the order of filling.

`Enumerates.lookup_eq_some_iff_swap` is the two-way form: a map and a second map listed by the
swapped pairs are inverse to each other.
-/

set_option autoImplicit false
set_option relaxedAutoImplicit false

namespace SealedBid.MapEnumeration

variable {Key Value : Type*} [DecidableEq Key]

/-! ### Lists of pairs -/

theorem lookup_cons_eq_ite (key : Key) (entry : Key × Value) (entries : List (Key × Value)) :
    (entry :: entries).lookup key =
      if key = entry.1 then some entry.2 else entries.lookup key := by
  rw [List.lookup_cons]
  split_ifs with hkey
  · rw [beq_iff_eq.mpr hkey]
  · rw [beq_eq_false_iff_ne.mpr hkey]

theorem lookup_cons_eq_or (key : Key) (entry : Key × Value) (entries : List (Key × Value)) :
    (entry :: entries).lookup key = ([entry].lookup key).or (entries.lookup key) := by
  rw [← List.singleton_append, List.lookup_append]

theorem lookup_eq_none_iff_notMem {entries : List (Key × Value)} {key : Key} :
    entries.lookup key = none ↔ key ∉ entries.map Prod.fst := by
  rw [List.lookup_eq_none_iff]
  constructor
  · rintro hnone hmem
    obtain ⟨entry, hentry, rfl⟩ := List.mem_map.mp hmem
    simpa using hnone entry hentry
  · intro hmem entry hentry
    rw [bne_iff_ne]
    rintro rfl
    exact hmem (List.mem_map_of_mem hentry)

/-- A pair of a list with distinct keys is found by its key. -/
theorem lookup_eq_some_iff_mem {entries : List (Key × Value)}
    (h : (entries.map Prod.fst).Nodup) (key : Key) (value : Value) :
    entries.lookup key = some value ↔ (key, value) ∈ entries := by
  induction entries with
  | nil => simp
  | cons entry entries ih =>
    rw [List.map_cons, List.nodup_cons] at h
    rw [lookup_cons_eq_ite, List.mem_cons, ← ih h.2]
    split_ifs with hkey
    · subst hkey
      have hfresh : entries.lookup entry.1 ≠ some value := by
        rw [ne_eq, ih h.2]
        exact fun hmem ↦ h.1 (List.mem_map.mpr ⟨_, hmem, rfl⟩)
      rw [or_iff_left hfresh, Option.some.injEq, Prod.ext_iff]
      exact ⟨fun hvalue ↦ ⟨rfl, hvalue.symm⟩, fun hentry ↦ hentry.2.symm⟩
    · rw [or_iff_right fun hentry ↦ hkey (congrArg Prod.fst hentry)]

/-- The order of a list with distinct keys does not matter. -/
theorem lookup_eq_of_perm {entries other : List (Key × Value)}
    (h : (other.map Prod.fst).Nodup) (hperm : entries.Perm other) (key : Key) :
    entries.lookup key = other.lookup key := by
  have hnodup : (entries.map Prod.fst).Nodup := (hperm.map Prod.fst).nodup_iff.mpr h
  ext value
  rw [lookup_eq_some_iff_mem hnodup, lookup_eq_some_iff_mem h, hperm.mem_iff]

/-! ### Finite maps -/

/-- The pairs of a finite map after an insertion: the inserted pair, and the old pairs at the other
keys. -/
theorem lookup_insert_eq_some_iff (m : Finmap fun _ : Key ↦ Value) (key other : Key)
    (value found : Value) :
    (m.insert key value).lookup other = some found ↔
      (other = key ∧ value = found) ∨ (other ≠ key ∧ m.lookup other = some found) := by
  by_cases hkey : other = key
  · subst hkey
    simp [Finmap.lookup_insert]
  · simp [Finmap.lookup_insert_of_ne _ hkey, hkey]

/-- A list of key-value pairs lists a finite map: its keys are distinct, and its members are the
pairs of the map. -/
structure Enumerates (m : Finmap fun _ : Key ↦ Value) (entries : List (Key × Value)) : Prop where
  nodup_keys : (entries.map Prod.fst).Nodup
  lookup_eq_some_iff : ∀ key value, m.lookup key = some value ↔ (key, value) ∈ entries

theorem enumerates_empty : Enumerates (∅ : Finmap fun _ : Key ↦ Value) [] where
  nodup_keys := List.nodup_nil
  lookup_eq_some_iff := by simp

/-- The keys of a map, in any order, with what the map has there, list the map. -/
theorem enumerates_map {m : Finmap fun _ : Key ↦ Value} {keys : List Key} {value : Key → Value}
    (hnodup : keys.Nodup) (hkeys : ∀ key, key ∈ m ↔ key ∈ keys)
    (hvalue : ∀ key ∈ keys, m.lookup key = some (value key)) :
    Enumerates m (keys.map fun key ↦ (key, value key)) where
  nodup_keys := by
    rw [List.map_map]
    simpa [Function.comp_def] using hnodup
  lookup_eq_some_iff key found := by
    rw [List.mem_map]
    constructor
    · intro hfound
      have hmem := (hkeys key).mp (Finmap.mem_of_lookup_eq_some hfound)
      rw [hvalue key hmem, Option.some.injEq] at hfound
      exact ⟨key, hmem, by rw [hfound]⟩
    · rintro ⟨other, hmem, hentry⟩
      cases hentry
      exact hvalue key hmem

namespace Enumerates

variable {m : Finmap fun _ : Key ↦ Value} {entries : List (Key × Value)}

/-- The keys of a listed map are the keys of the list. -/
theorem mem_iff (h : Enumerates m entries) (key : Key) : key ∈ m ↔ key ∈ entries.map Prod.fst := by
  rw [Finmap.mem_iff, List.mem_map]
  constructor
  · rintro ⟨value, hvalue⟩
    exact ⟨(key, value), (h.lookup_eq_some_iff key value).mp hvalue, rfl⟩
  · rintro ⟨⟨_, value⟩, hmem, rfl⟩
    exact ⟨value, (h.lookup_eq_some_iff _ value).mpr hmem⟩

/-- Inserting at a fresh key appends a pair to the list. Assumes: a key that is not in the map. -/
theorem insert (h : Enumerates m entries) {key : Key} (hfresh : key ∉ m) (value : Value) :
    Enumerates (m.insert key value) (entries ++ [(key, value)]) where
  nodup_keys := by
    rw [h.mem_iff] at hfresh
    rw [List.map_append, List.map_singleton, ← List.concat_eq_append]
    exact List.Nodup.concat hfresh h.nodup_keys
  lookup_eq_some_iff := by
    intro other found
    rw [lookup_insert_eq_some_iff, h.lookup_eq_some_iff, List.mem_append, List.mem_singleton,
      Prod.mk.injEq]
    constructor
    · rintro (⟨hkey, hvalue⟩ | ⟨_, hmem⟩)
      · exact Or.inr ⟨hkey, hvalue.symm⟩
      · exact Or.inl hmem
    · rintro (hmem | ⟨hkey, hvalue⟩)
      · refine Or.inr ⟨fun hkey ↦ hfresh ?_, hmem⟩
        rw [← hkey, h.mem_iff]
        exact List.mem_map.mpr ⟨_, hmem, rfl⟩
      · exact Or.inl ⟨hkey, hvalue.symm⟩

/-- A listed map has as many keys as its list has pairs. -/
theorem card_keys (h : Enumerates m entries) : m.keys.card = entries.length := by
  have hkeys : m.keys = (entries.map Prod.fst).toFinset := by
    ext key
    rw [Finmap.mem_keys, h.mem_iff, List.mem_toFinset]
  rw [hkeys, List.toFinset_card_of_nodup h.nodup_keys, List.length_map]

/-- Two maps listed by permutations of one list are equal. -/
theorem eq_of_perm {other : Finmap fun _ : Key ↦ Value} {reordered : List (Key × Value)}
    (h : Enumerates m entries) (hother : Enumerates other reordered)
    (hperm : entries.Perm reordered) : m = other := by
  apply Finmap.ext_lookup
  intro key
  apply Option.ext
  intro value
  rw [h.lookup_eq_some_iff, hother.lookup_eq_some_iff, hperm.mem_iff]

/-- A map listed by pairs and a map listed by the swapped pairs are inverse to each other. -/
theorem lookup_eq_some_iff_swap [DecidableEq Value] {inverse : Finmap fun _ : Value ↦ Key}
    (h : Enumerates m entries) (hinverse : Enumerates inverse (entries.map Prod.swap))
    (key : Key) (value : Value) :
    m.lookup key = some value ↔ inverse.lookup value = some key := by
  rw [h.lookup_eq_some_iff, hinverse.lookup_eq_some_iff, List.mem_map_swap]

end Enumerates

end SealedBid.MapEnumeration
