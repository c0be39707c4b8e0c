import Mathlib.Data.List.AList
import Mathlib.Data.List.Sort

/-!
# Finite tables

A table maps finitely many keys to values.  Besides reading and writing at a key there are the
operations on all entries: keeping some, changing the values, counting, and walking through them in
the order of a rank of the keys.
-/

/-- A finite map from `K` to `V`. -/
structure Table (K V : Type*) where
  entries : AList (fun _ : K => V)

namespace Table

open List AList

variable {K V : Type*}

instance : EmptyCollection (Table K V) := ⟨⟨∅⟩⟩

/-- How many keys have a value. -/
def size (m : Table K V) : Nat := m.entries.entries.length

/-- How many entries satisfy `p`. -/
def count (p : K → V → Bool) (m : Table K V) : Nat :=
  m.entries.entries.countP (fun entry => p entry.1 entry.2)

/-- Some entry satisfies `p`. -/
def any (p : K → V → Bool) (m : Table K V) : Bool :=
  m.entries.entries.any (fun entry => p entry.1 entry.2)

/-- The entries that satisfy `p`. -/
def filter (p : K → V → Bool) (m : Table K V) : Table K V where
  entries := ⟨m.entries.entries.filter (fun entry => p entry.1 entry.2),
    m.entries.nodupKeys.sublist List.filter_sublist⟩

/-- The table with each value changed by `f`. -/
def adjust (f : K → V → V) (m : Table K V) : Table K V where
  entries := ⟨m.entries.entries.map (fun entry => ⟨entry.1, f entry.1 entry.2⟩),
    m.entries.nodupKeys.map₂ f⟩

/-- The entries in the order of a rank of their keys. -/
def walk (rank : K → Nat) (m : Table K V) : List (K × V) :=
  (m.entries.entries.map (fun entry => (entry.1, entry.2))).insertionSort
    (fun a b => rank a.1 ≤ rank b.1)

variable [DecidableEq K]

/-- The value at a key. -/
def get (m : Table K V) (k : K) : Option V := m.entries.lookup k

/-- Write a value at a key. -/
def put (m : Table K V) (k : K) (v : V) : Table K V := ⟨m.entries.insert k v⟩

/-- Remove what is at a key. -/
def drop (m : Table K V) (k : K) : Table K V := ⟨m.entries.erase k⟩

variable {m : Table K V} {v : V}

@[simp]
theorem get_empty (k : K) : (∅ : Table K V).get k = none
  := lookup_empty k

@[grind =]
theorem get_put (k j : K) (v : V) :
  (m.put k v).get j = if j = k then some v else m.get j
  := by
  split
  case isTrue self =>
    subst self
    apply lookup_insert
  case isFalse ne => apply lookup_insert_ne ne

@[simp]
theorem get_put_self (k : K) (v : V) : (m.put k v).get k = some v
  := lookup_insert m.entries

theorem get_put_ne {k j : K} (v : V) (ne : j ≠ k) : (m.put k v).get j = m.get j
  := lookup_insert_ne ne

@[grind =]
theorem get_drop (k j : K) :
  (m.drop k).get j = if j = k then none else m.get j
  := by
  split
  case isTrue self =>
    subst self
    apply lookup_erase
  case isFalse ne => apply lookup_erase_ne ne

@[simp]
theorem get_drop_self (k : K) : (m.drop k).get k = none
  := lookup_erase k m.entries

theorem get_drop_ne {k j : K} (ne : j ≠ k) : (m.drop k).get j = m.get j
  := lookup_erase_ne ne

theorem get_drop_eq_some {k j : K} :
  (m.drop k).get j = some v ↔ j ≠ k ∧ m.get j = some v
  := by
  rw [get_drop]
  split <;> simp_all

/-! ### Entries -/

theorem mem_entries {k : K} : ⟨k, v⟩ ∈ m.entries.entries ↔ m.get k = some v
  := mem_lookup_iff.symm

theorem mem_walk {rank : K → Nat} {k : K} : (k, v) ∈ m.walk rank ↔ m.get k = some v
  := by
  rw [walk, (perm_insertionSort _ _).mem_iff, ← mem_entries, mem_map]
  grind

variable {p : K → V → Bool}

theorem exists_entry :
  (∃ e ∈ m.entries.entries, p e.1 e.2) ↔ ∃ k v, m.get k = some v ∧ p k v
  := by
  constructor
  · rintro ⟨⟨k, v⟩, mem, h⟩
    exact ⟨k, v, mem_entries.mp mem, h⟩
  · rintro ⟨k, v, found, h⟩
    exact ⟨⟨k, v⟩, mem_entries.mpr found, h⟩

theorem any_iff : m.any p ↔ ∃ k v, m.get k = some v ∧ p k v
  := by
  rw [any, any_eq_true]
  exact exists_entry

@[grind =]
theorem get_filter_eq_some {k : K} :
  (m.filter p).get k = some v ↔ m.get k = some v ∧ p k v
  := by
  rw [← mem_entries, ← mem_entries]
  exact mem_filter

@[grind =]
theorem get_adjust {f : K → V → V} (k : K) : (m.adjust f).get k = (m.get k).map (f k)
  := dlookup_map₂ k

theorem size_eq_zero : m.size = 0 ↔ ∀ k, m.get k = none
  := by
  rw [size, length_eq_zero_iff, eq_nil_iff_forall_not_mem]
  constructor
  · intro empty k
    rw [Option.eq_none_iff_forall_ne_some]
    exact fun v found => empty ⟨k, v⟩ (mem_entries.mpr found)
  · intro empty entry mem
    rw [mem_entries, empty] at mem
    cases mem

/-! ### Counting -/

theorem perm_drop {k : K} (found : m.get k = some v) :
  m.entries.entries.Perm (⟨k, v⟩ :: (m.drop k).entries.entries)
  := by
  have mem : k ∈ m.entries.entries.keys := mem_keys_of_mem (mem_entries.mpr found)
  obtain ⟨w, before, after, -, split, rest⟩ := exists_of_kerase mem
  have same : w = v := by
    have there : (⟨k, w⟩ : Σ _ : K, V) ∈ m.entries.entries := by simp [split]
    rw [mem_entries, found] at there
    exact (Option.some.inj there).symm
  change m.entries.entries.Perm (_ :: kerase k m.entries.entries)
  rw [rest, split, same]
  exact perm_middle

theorem count_drop {k : K} (found : m.get k = some v) :
  (m.drop k).count p + (if p k v then 1 else 0) = m.count p
  := by
  rw [count, count, (perm_drop found).countP_eq, countP_cons]

theorem count_pos : 0 < m.count p ↔ ∃ k v, m.get k = some v ∧ p k v
  := by
  rw [count, countP_pos_iff]
  exact exists_entry

/-- There are at most as many entries that satisfy `p` as entries of another table that satisfy `q`,
if each of their keys has one there. -/
theorem count_le_count {W : Type*} {n : Table K W} {q : K → W → Bool}
    (into : ∀ k v, m.get k = some v → p k v → ∃ w, n.get k = some w ∧ q k w) :
  m.count p ≤ n.count q
  := by
  have distinct : ((m.entries.entries.filter (fun entry => p entry.1 entry.2)).map
      Sigma.fst).Nodup := (m.filter p).entries.nodupKeys
  have sub : (m.entries.entries.filter (fun entry => p entry.1 entry.2)).map Sigma.fst ⊆
      (n.entries.entries.filter (fun entry => q entry.1 entry.2)).map Sigma.fst := by
    intro k here
    obtain ⟨⟨k, v⟩, kept, rfl⟩ := mem_map.mp here
    obtain ⟨mem, h⟩ := mem_filter.mp kept
    obtain ⟨w, found, h⟩ := into k v (mem_entries.mp mem) h
    exact mem_map.mpr ⟨⟨k, w⟩, mem_filter.mpr ⟨mem_entries.mpr found, h⟩, rfl⟩
  have le := (subperm_of_subset distinct sub).length_le
  rwa [length_map, length_map, ← countP_eq_length_filter, ← countP_eq_length_filter] at le

omit [DecidableEq K] in
theorem count_le_size : m.count p ≤ m.size
  := countP_le_length

end Table
