import Mathlib.Data.List.AList

/-!
# Maps of records under their own keys

A finite map in which every record stands under the key it carries.
-/

/-- A finite map from keys to records, each under the key that `key` reads from it. -/
structure Keyed {K V : Type*} [DecidableEq K] (key : V → K) where
  entries : AList (fun _ : K => V)
  keyed : ∀ k v, entries.lookup k = some v → key v = k

namespace Keyed

variable {K V : Type*} [DecidableEq K] {key : V → K} (m : Keyed key)

instance : EmptyCollection (Keyed key) := ⟨⟨∅, by simp⟩⟩

/-- The record under a key. -/
def lookup (k : K) : Option V := m.entries.lookup k

/-- The keys in use. -/
def keys : List K := m.entries.keys

/-- The records. -/
def values : List V := m.entries.entries.map (·.2)

/-- Write a record, in place of any other under its key. -/
def put (v : V) : Keyed key where
  entries := m.entries.insert (key v) v
  keyed := by
    intro k w eq
    by_cases self : k = key v
    · subst self
      rw [AList.lookup_insert] at eq
      rw [Option.some.inj eq]
    · rw [AList.lookup_insert_ne self] at eq
      apply m.keyed k w eq

/-- Remove what is under a key. -/
def erase (k : K) : Keyed key where
  entries := m.entries.erase k
  keyed := by
    intro k' w eq
    by_cases self : k' = k
    · subst self
      rw [AList.lookup_erase] at eq
      cases eq
    · rw [AList.lookup_erase_ne self] at eq
      apply m.keyed k' w eq

variable {m}

theorem key_of_lookup {k : K} {v : V} (h : m.lookup k = some v) : key v = k
  := m.keyed k v h

theorem lookup_put (k : K) (v : V) :
  (m.put v).lookup k = if k = key v then some v else m.lookup k
  := by
  split
  case isTrue self =>
    subst self
    apply AList.lookup_insert
  case isFalse ne => apply AList.lookup_insert_ne ne

theorem lookup_erase (k a : K) :
  (m.erase a).lookup k = if k = a then none else m.lookup k
  := by
  split
  case isTrue self =>
    subst self
    apply AList.lookup_erase
  case isFalse ne => apply AList.lookup_erase_ne ne

theorem mem_values {v : V} : v ∈ m.values ↔ m.lookup (key v) = some v
  := by
  constructor
  · intro mem
    obtain ⟨⟨k, w⟩, entry, rfl⟩ := List.mem_map.mp mem
    have found : m.entries.lookup k = some w := AList.mem_lookup_iff.mpr entry
    rwa [← m.keyed k w found] at found
  · intro found
    exact List.mem_map.mpr ⟨⟨key v, v⟩, AList.mem_lookup_iff.mp found, rfl⟩

theorem nodup_values : (m.values.map key).Nodup
  := by
  have same : m.values.map key = m.entries.entries.map Sigma.fst := by
    rw [values, List.map_map]
    refine List.map_congr_left fun entry mem => ?_
    exact m.keyed entry.1 entry.2 (AList.mem_lookup_iff.mpr mem)
  rw [same]
  exact m.entries.nodupKeys

end Keyed
