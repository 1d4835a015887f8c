import Mathlib

/-! A hash map with a fixed number of slots. An insertion overwrites the entry of its key; under a new
    key it takes a free slot, and fails without effect when there is none. -/

/-- A map of at most `maxEntries` entries. -/
structure BoundedMap (K V : Type) [DecidableEq K] where
  entries : AList fun _ : K => V
  maxEntries : Nat
  fits : entries.entries.length ≤ maxEntries

namespace BoundedMap
variable {K V : Type} [DecidableEq K]

def empty (maxEntries : Nat) : BoundedMap K V := ⟨∅, maxEntries, Nat.zero_le _⟩

def get (m : BoundedMap K V) (k : K) : Option V := m.entries.lookup k

/-- There is a slot for an entry under `k`: its own, or a free one. -/
def HasSlot (m : BoundedMap K V) (k : K) : Prop :=
  k ∈ m.entries ∨ m.entries.entries.length < m.maxEntries

instance (m : BoundedMap K V) (k : K) : Decidable (m.HasSlot k) := inferInstanceAs (Decidable (_ ∨ _))

theorem insert_fits {m : BoundedMap K V} {k : K} (v : V) (h : m.HasSlot k) :
    (m.entries.insert k v).entries.length ≤ m.maxEntries := by
  by_cases hk : k ∈ m.entries
  · have hlen : (m.entries.entries.kerase k).length + 1 = m.entries.entries.length := by
      have := List.Perm.length_eq (List.perm_cons_erase (AList.mem_keys.mp hk))
      have hkeys := congrArg List.length (List.keys_kerase (a := k) (l := m.entries.entries))
      simp only [List.length_cons, List.keys, List.length_map, AList.keys] at this hkeys
      omega
    rw [AList.entries_insert, List.length_cons, hlen]
    exact m.fits
  · rw [AList.entries_insert_of_notMem hk, List.length_cons]
    exact h.resolve_left hk

/-- The insertion as the map reports it: `none` is the failure. -/
def insert (m : BoundedMap K V) (k : K) (v : V) : Option (BoundedMap K V) :=
  if h : m.HasSlot k then some ⟨m.entries.insert k v, m.maxEntries, insert_fits v h⟩ else none

/-- An insertion whose result is ignored. -/
def put (m : BoundedMap K V) (k : K) (v : V) : BoundedMap K V := (m.insert k v).getD m

def remove (m : BoundedMap K V) (k : K) : BoundedMap K V :=
  ⟨m.entries.erase k, m.maxEntries, (List.Sublist.length_le (List.kerase_sublist k _)).trans m.fits⟩

/-! ### Lookups -/

theorem get_isSome_iff {m : BoundedMap K V} {k : K} : (m.get k).isSome ↔ k ∈ m.entries := AList.lookup_isSome

theorem insert_eq_some {m : BoundedMap K V} {k : K} {v : V} (h : m.HasSlot k) :
    m.insert k v = some ⟨m.entries.insert k v, m.maxEntries, insert_fits v h⟩ := dif_pos h

theorem put_of_not_hasSlot {m : BoundedMap K V} {k : K} {v : V} (h : ¬m.HasSlot k) : m.put k v = m := by
  simp [put, insert, h]

theorem get_put_self {m : BoundedMap K V} {k : K} {v : V} (h : m.HasSlot k) : (m.put k v).get k = some v := by
  rw [put, insert_eq_some h]
  exact AList.lookup_insert _

theorem get_put_of_ne {m : BoundedMap K V} {k k' : K} {v : V} (h : k' ≠ k) : (m.put k v).get k' = m.get k' := by
  by_cases hs : m.HasSlot k
  · rw [put, insert_eq_some hs]
    exact AList.lookup_insert_ne h
  · rw [put_of_not_hasSlot hs]

@[simp] theorem get_remove_self (m : BoundedMap K V) (k : K) : (m.remove k).get k = none := AList.lookup_erase k _

theorem get_remove_of_ne {m : BoundedMap K V} {k k' : K} (h : k' ≠ k) : (m.remove k).get k' = m.get k' :=
  AList.lookup_erase_ne h

theorem remove_of_get_none {m : BoundedMap K V} {k : K} (h : m.get k = none) : m.remove k = m := by
  have hk : k ∉ m.entries := fun hm => by simpa [h] using get_isSome_iff.mpr hm
  have he : m.entries.erase k = m.entries := AList.ext (List.kerase_of_notMem_keys hk)
  cases m
  simp only [remove, he]

@[simp] theorem maxEntries_put (m : BoundedMap K V) (k : K) (v : V) : (m.put k v).maxEntries = m.maxEntries := by
  by_cases hs : m.HasSlot k
  · rw [put, insert_eq_some hs]
    rfl
  · rw [put_of_not_hasSlot hs]

@[simp] theorem maxEntries_remove (m : BoundedMap K V) (k : K) : (m.remove k).maxEntries = m.maxEntries := rfl

theorem keys_put_of_notMem {m : BoundedMap K V} {k : K} {v : V} (hk : k ∉ m.entries)
    (h : m.entries.keys.length < m.maxEntries) : (m.put k v).entries.keys = k :: m.entries.keys := by
  have hlen : m.entries.entries.length < m.maxEntries := by
    rw [← List.length_map (f := Sigma.fst)]
    exact h
  rw [put, insert_eq_some (Or.inr hlen)]
  simp only [Option.getD_some, AList.keys, AList.entries_insert_of_notMem hk, List.keys_cons]

/-- A map whose keys are among fewer than there are slots has a free one. -/
theorem hasSlot_of_keys_subset {m : BoundedMap K V} (k : K) {s : Finset K} (hsub : ∀ k' ∈ m.entries, k' ∈ s)
    (hcard : s.card < m.maxEntries) : m.HasSlot k := by
  right
  have hkeys : m.entries.keys.toFinset ⊆ s := by
    intro k' hk'
    exact hsub k' (AList.mem_keys.mpr (List.mem_toFinset.mp hk'))
  have hlen : m.entries.keys.toFinset.card = m.entries.entries.length := by
    rw [List.toFinset_card_of_nodup m.entries.keys_nodup]
    exact List.length_map _
  have := Finset.card_le_card hkeys
  omega

theorem get_put_cases {m : BoundedMap K V} {k k' : K} {v v' : V} (h : (m.put k v).get k' = some v') :
    (k' = k ∧ v' = v ∧ m.HasSlot k) ∨ m.get k' = some v' := by
  by_cases hk : k' = k
  · subst hk
    by_cases hs : m.HasSlot k'
    · rw [get_put_self hs] at h
      exact Or.inl ⟨rfl, (Option.some.inj h).symm, hs⟩
    · rw [put_of_not_hasSlot hs] at h
      exact Or.inr h
  · exact Or.inr (get_put_of_ne hk ▸ h)

theorem get_remove_cases {m : BoundedMap K V} {k k' : K} {v' : V} (h : (m.remove k).get k' = some v') :
    k' ≠ k ∧ m.get k' = some v' := by
  have hk : k' ≠ k := by
    rintro rfl
    simp at h
  exact ⟨hk, get_remove_of_ne hk ▸ h⟩

end BoundedMap
