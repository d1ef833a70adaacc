import SealedBid.Foundation.MapEnumeration

/-!
# Maps filled from layers

A finite map that is completed from layers of defaults, one layer after the other: an entry of a
layer is inserted when its key is not defined yet (`fill`), so what is defined stays and the first
layer that defines a key decides. `fill` also lists the keys that it inserted.

After any sequence of layers a key has its initial value, or else that of the first layer that has
the key (`lookup_fillLayers`). The keys inserted by the layers are disjoint
(`pairwise_disjoint_fillLayers`) and are together the keys that were not defined before and are now
(`mem_fillLayers_iff`). A layer that was used before inserts nothing (`fill_of_mem`).
-/

set_option autoImplicit false
set_option relaxedAutoImplicit false

namespace SealedBid.LayeredMap

open MapEnumeration

variable {Key Value : Type*} [DecidableEq Key]

/-- Insert an entry unless its key is defined, and note the key. -/
def addMissing (state : (Finmap fun _ : Key ↦ Value) × List Key) (entry : Key × Value) :
    (Finmap fun _ : Key ↦ Value) × List Key :=
  match state.1.lookup entry.1 with
  | none => (state.1.insert entry.1 entry.2, state.2 ++ [entry.1])
  | some _ => state

/-- The map with the missing entries of a layer, and the keys that were missing. -/
def fill (m : Finmap fun _ : Key ↦ Value) (layer : List (Key × Value)) :
    (Finmap fun _ : Key ↦ Value) × List Key :=
  layer.foldl addMissing (m, [])

/-- The map filled from one layer after the other, and the keys that each layer inserted. -/
def fillLayers (m : Finmap fun _ : Key ↦ Value) :
    List (List (Key × Value)) → (Finmap fun _ : Key ↦ Value) × List (List Key)
  | [] => (m, [])
  | layer :: layers =>
    let filled := fill m layer
    let rest := fillLayers filled.1 layers
    (rest.1, filled.2 :: rest.2)

/-! ### One entry -/

section Entries

variable (state : (Finmap fun _ : Key ↦ Value) × List Key)

theorem lookup_addMissing (entry : Key × Value) (key : Key) :
    (addMissing state entry).1.lookup key = (state.1.lookup key).or ([entry].lookup key) := by
  obtain ⟨name, value⟩ := entry
  unfold addMissing
  rw [lookup_cons_eq_ite]
  cases hname : state.1.lookup name with
  | some found =>
    split_ifs with hkey
    · obtain rfl : key = name := hkey
      simp [hname]
    · simp
  | none =>
    split_ifs with hkey
    · obtain rfl : key = name := hkey
      simp [hname]
    · simp [Finmap.lookup_insert_of_ne _ hkey]

theorem mem_addMissing (entry : Key × Value) (key : Key) :
    key ∈ (addMissing state entry).2 ↔
      key ∈ state.2 ∨ (state.1.lookup key = none ∧ [entry].lookup key ≠ none) := by
  obtain ⟨name, value⟩ := entry
  unfold addMissing
  rw [lookup_cons_eq_ite]
  cases hname : state.1.lookup name with
  | some found =>
    split_ifs with hkey
    · obtain rfl : key = name := hkey
      simp [hname]
    · simp
  | none =>
    split_ifs with hkey
    · obtain rfl : key = name := hkey
      simp [hname]
    · have hne : key ≠ name := hkey
      simp [hne]

theorem lookup_foldl_addMissing (layer : List (Key × Value)) (key : Key) :
    (layer.foldl addMissing state).1.lookup key =
      (state.1.lookup key).or (layer.lookup key) := by
  induction layer generalizing state with
  | nil => simp
  | cons entry layer ih =>
    rw [List.foldl_cons, ih, lookup_addMissing, lookup_cons_eq_or key entry layer,
      Option.or_assoc]

theorem mem_foldl_addMissing (layer : List (Key × Value)) (key : Key) :
    key ∈ (layer.foldl addMissing state).2 ↔
      key ∈ state.2 ∨ (state.1.lookup key = none ∧ layer.lookup key ≠ none) := by
  induction layer generalizing state with
  | nil => simp
  | cons entry layer ih =>
    rw [List.foldl_cons, ih, mem_addMissing, lookup_addMissing, lookup_cons_eq_or key entry layer]
    -- a key of the entry is noted with the entry, and is defined from then on
    cases state.1.lookup key <;> cases [entry].lookup key <;> simp

end Entries

/-! ### One layer -/

variable (m : Finmap fun _ : Key ↦ Value) (layer : List (Key × Value))
  (layers : List (List (Key × Value)))

/-- A key keeps its value, and a key without one has that of the layer. -/
theorem lookup_fill (key : Key) :
    (fill m layer).1.lookup key = (m.lookup key).or (layer.lookup key) :=
  lookup_foldl_addMissing (m, []) layer key

/-- The keys inserted are those of the layer that were missing. -/
theorem mem_fill_iff (key : Key) :
    key ∈ (fill m layer).2 ↔ m.lookup key = none ∧ layer.lookup key ≠ none := by
  rw [fill, mem_foldl_addMissing]
  exact or_iff_right List.not_mem_nil

/-- A layer whose keys are all defined changes nothing. -/
theorem fill_of_defined (h : ∀ key, layer.lookup key ≠ none → m.lookup key ≠ none) :
    fill m layer = (m, []) := by
  refine Prod.ext (Finmap.ext_lookup fun key ↦ ?_) ?_
  · rw [lookup_fill]
    cases hkey : m.lookup key with
    | some value => rfl
    | none =>
      rw [Option.none_or]
      exact not_not.mp fun hlayer ↦ h key hlayer hkey
  · refine List.eq_nil_iff_forall_not_mem.mpr fun key hmem ↦ ?_
    rw [mem_fill_iff] at hmem
    exact h key hmem.2 hmem.1

/-! ### Sequences of layers -/

/-- A key keeps its value, and a key without one has that of the first layer that has the key. -/
theorem lookup_fillLayers (key : Key) :
    (fillLayers m layers).1.lookup key =
      (m.lookup key).or (layers.findSome? fun layer ↦ layer.lookup key) := by
  induction layers generalizing m with
  | nil => simp [fillLayers]
  | cons layer layers ih =>
    rw [fillLayers, ih, lookup_fill, List.findSome?_cons, Option.or_assoc]
    cases layer.lookup key <;> rfl

/-- The keys inserted by some layer are the keys that were not defined and are now. -/
theorem mem_fillLayers_iff (key : Key) :
    (∃ keys ∈ (fillLayers m layers).2, key ∈ keys) ↔
      m.lookup key = none ∧ (fillLayers m layers).1.lookup key ≠ none := by
  induction layers generalizing m with
  | nil => simp [fillLayers]
  | cons layer layers ih =>
    have hlookup := lookup_fillLayers (fill m layer).1 layers key
    rw [lookup_fill] at hlookup
    simp only [fillLayers, List.exists_mem_cons_iff, ih, mem_fill_iff, lookup_fill]
    rw [hlookup]
    cases m.lookup key <;> cases layer.lookup key <;> simp

/-- No key is inserted by two layers. -/
theorem pairwise_disjoint_fillLayers : (fillLayers m layers).2.Pairwise List.Disjoint := by
  induction layers generalizing m with
  | nil => exact List.Pairwise.nil
  | cons layer layers ih =>
    refine List.pairwise_cons.mpr ⟨fun keys hkeys key hfirst hlater ↦ ?_, ih _⟩
    have hmissing := ((mem_fillLayers_iff _ layers key).mp ⟨keys, hkeys, hlater⟩).1
    rw [lookup_fill, Option.or_eq_none_iff] at hmissing
    exact ((mem_fill_iff m layer key).mp hfirst).2 hmissing.2

variable {layer layers}

/-- A layer that was used before inserts nothing. -/
theorem fill_of_mem (h : layer ∈ layers) :
    fill (fillLayers m layers).1 layer = ((fillLayers m layers).1, []) := by
  refine fill_of_defined _ _ fun key hkey ↦ ?_
  rw [lookup_fillLayers, ne_eq, Option.or_eq_none_iff, List.findSome?_eq_none_iff]
  exact fun hnone ↦ hkey (hnone.2 layer h)

end SealedBid.LayeredMap
