import SealedBid.Foundation.MapEnumeration

/-!
# Finite maps under an injection of their keys

A finite map carried to another type of keys and values: the keys by an injection, the values by any
function (`transport`), and a finite set carried to a map that holds one value at the images of its
members (`transportSet`). Nothing is lost: a lookup at an image is the image of the lookup
(`lookup_transport`), there is nothing at other keys, the number of keys stays, and inserting before
and after is the same (`transport_insert`, `transportSet_insert`).
-/

set_option autoImplicit false
set_option relaxedAutoImplicit false

namespace SealedBid.MapTransport

open MapEnumeration

variable {Key Value Key' Value' : Type*}

/-- A finite map with its keys and its values carried to other types. -/
def transport (onKeys : Key ↪ Key') (onValues : Value → Value')
    (m : Finmap fun _ : Key ↦ Value) : Finmap fun _ : Key' ↦ Value' where
  entries := m.entries.map fun entry ↦ ⟨onKeys entry.1, onValues entry.2⟩
  nodupKeys := by
    rw [← Multiset.nodup_keys, Multiset.keys, Multiset.map_map]
    show (m.entries.map (onKeys ∘ Sigma.fst)).Nodup
    rw [← Multiset.map_map]
    exact m.nodupKeys.nodup_keys.map onKeys.injective

/-- The map that holds one value at the images of the members of a set. -/
def transportSet (onKeys : Key ↪ Key') (value : Value') (s : Finset Key) :
    Finmap fun _ : Key' ↦ Value' where
  entries := s.val.map fun key ↦ ⟨onKeys key, value⟩
  nodupKeys := by
    rw [← Multiset.nodup_keys, Multiset.keys, Multiset.map_map]
    exact s.nodup.map onKeys.injective

variable {onKeys : Key ↪ Key'} {onValues : Value → Value'} {value : Value'}

@[simp] theorem transport_empty :
    transport onKeys onValues (∅ : Finmap fun _ : Key ↦ Value) = ∅ := rfl

@[simp] theorem card_keys_transport (m : Finmap fun _ : Key ↦ Value) :
    (transport onKeys onValues m).keys.card = m.keys.card := by
  show ((m.entries.map _).map _).card = (m.entries.map _).card
  rw [Multiset.card_map, Multiset.card_map, Multiset.card_map]

@[simp] theorem transportSet_empty :
    transportSet onKeys value (∅ : Finset Key) = ∅ := rfl

@[simp] theorem card_keys_transportSet (s : Finset Key) :
    (transportSet onKeys value s).keys.card = s.card := by
  show ((s.val.map _).map _).card = s.val.card
  rw [Multiset.card_map, Multiset.card_map]

variable [DecidableEq Key']

theorem lookup_transportSet_eq_some_iff {s : Finset Key} {key' : Key'} {value' : Value'} :
    (transportSet onKeys value s).lookup key' = some value' ↔
      (∃ key ∈ s, onKeys key = key') ∧ value = value' := by
  rw [Finmap.lookup_eq_some_iff]
  show _ ∈ s.val.map _ ↔ _
  rw [Multiset.mem_map]
  constructor
  · rintro ⟨key, hkey, h⟩
    cases h
    exact ⟨⟨key, hkey, rfl⟩, rfl⟩
  · rintro ⟨⟨key, hkey, rfl⟩, rfl⟩
    exact ⟨key, hkey, rfl⟩

@[simp] theorem mem_transportSet (s : Finset Key) (key : Key) :
    onKeys key ∈ transportSet onKeys value s ↔ key ∈ s := by
  rw [Finmap.mem_iff]
  simp only [lookup_transportSet_eq_some_iff]
  constructor
  · rintro ⟨_, ⟨other, hmem, hkey⟩, -⟩
    rwa [onKeys.injective hkey] at hmem
  · exact fun hmem ↦ ⟨value, ⟨key, hmem, rfl⟩, rfl⟩

theorem transportSet_injective : Function.Injective (transportSet onKeys value) := by
  intro s other heq
  ext key
  have hmem : onKeys key ∈ transportSet onKeys value s ↔
      onKeys key ∈ transportSet onKeys value other := by rw [heq]
  rwa [mem_transportSet, mem_transportSet] at hmem

variable [DecidableEq Key]

theorem lookup_transport_eq_some_iff {m : Finmap fun _ : Key ↦ Value} {key' : Key'}
    {value' : Value'} :
    (transport onKeys onValues m).lookup key' = some value' ↔
      ∃ key value, m.lookup key = some value ∧ onKeys key = key' ∧ onValues value = value' := by
  rw [Finmap.lookup_eq_some_iff]
  show _ ∈ m.entries.map _ ↔ _
  rw [Multiset.mem_map]
  constructor
  · rintro ⟨⟨key, value⟩, hentry, h⟩
    cases h
    exact ⟨key, value, Finmap.lookup_eq_some_iff.mpr hentry, rfl, rfl⟩
  · rintro ⟨key, value, hlookup, rfl, rfl⟩
    exact ⟨⟨key, value⟩, Finmap.lookup_eq_some_iff.mp hlookup, rfl⟩

/-- A lookup at the image of a key is the image of the lookup. -/
@[simp] theorem lookup_transport (m : Finmap fun _ : Key ↦ Value) (key : Key) :
    (transport onKeys onValues m).lookup (onKeys key) = (m.lookup key).map onValues := by
  ext value'
  rw [lookup_transport_eq_some_iff, Option.map_eq_some_iff]
  constructor
  · rintro ⟨other, value, hlookup, hkey, hvalue⟩
    rw [onKeys.injective hkey] at hlookup
    exact ⟨value, hlookup, hvalue⟩
  · rintro ⟨value, hlookup, hvalue⟩
    exact ⟨key, value, hlookup, rfl, hvalue⟩

@[simp] theorem mem_transport (m : Finmap fun _ : Key ↦ Value) (key : Key) :
    onKeys key ∈ transport onKeys onValues m ↔ key ∈ m := by
  rw [← Finmap.lookup_isSome, ← Finmap.lookup_isSome, lookup_transport, Option.isSome_map]

/-- Inserting and carrying over, in either order. -/
theorem transport_insert (m : Finmap fun _ : Key ↦ Value) (key : Key) (value : Value) :
    transport onKeys onValues (m.insert key value) =
      (transport onKeys onValues m).insert (onKeys key) (onValues value) := by
  apply Finmap.ext_lookup
  intro key'
  ext value'
  simp only [lookup_transport_eq_some_iff, lookup_insert_eq_some_iff]
  constructor
  · rintro ⟨other, found, ⟨rfl, rfl⟩ | ⟨hne, hlookup⟩, rfl, rfl⟩
    · exact Or.inl ⟨rfl, rfl⟩
    · exact Or.inr ⟨fun heq ↦ hne (onKeys.injective heq), other, found, hlookup, rfl, rfl⟩
  · rintro (⟨rfl, rfl⟩ | ⟨hne, other, found, hlookup, rfl, rfl⟩)
    · exact ⟨key, value, Or.inl ⟨rfl, rfl⟩, rfl, rfl⟩
    · exact ⟨other, found, Or.inr ⟨fun heq ↦ hne (congrArg onKeys heq), hlookup⟩, rfl, rfl⟩

/-- Nothing is lost by carrying a map over. Assumes: an injective function on the values. -/
theorem transport_injective (h : Function.Injective onValues) :
    Function.Injective (transport onKeys onValues) := by
  intro m other heq
  apply Finmap.ext_lookup
  intro key
  have hlookup := congrArg (fun m' ↦ m'.lookup (onKeys key)) heq
  simp only [lookup_transport] at hlookup
  exact Option.map_injective h hlookup

theorem transportSet_insert (s : Finset Key) (key : Key) :
    transportSet onKeys value (insert key s) =
      (transportSet onKeys value s).insert (onKeys key) value := by
  apply Finmap.ext_lookup
  intro key'
  ext value'
  simp only [lookup_transportSet_eq_some_iff, lookup_insert_eq_some_iff, Finset.mem_insert]
  constructor
  · rintro ⟨⟨other, rfl | hmem, rfl⟩, rfl⟩
    · exact Or.inl ⟨rfl, rfl⟩
    · by_cases hkey : onKeys other = onKeys key
      · exact Or.inl ⟨hkey, rfl⟩
      · exact Or.inr ⟨hkey, ⟨other, hmem, rfl⟩, rfl⟩
  · rintro (⟨rfl, rfl⟩ | ⟨-, ⟨other, hmem, rfl⟩, rfl⟩)
    · exact ⟨⟨key, Or.inl rfl, rfl⟩, rfl⟩
    · exact ⟨⟨other, Or.inr hmem, rfl⟩, rfl⟩

end SealedBid.MapTransport
