import Mathlib.Data.List.Nodup
import Mathlib.Data.List.TakeDrop
import Mathlib.Order.Lattice

/-!
# Semaphores with a line

A semaphore has holders, a limit and a line of those who wait, head first.  Free capacity is given
to the head of the line, one place at a time (`promote`); doing so for as long as there is capacity
and somebody waits takes the first `free` members of the line (`taken`, `filled`).
-/

/-- The holders of places, how many there may be, and the line. -/
structure Semaphore (α : Type*) where
  holders : List α := []
  limit : Int := 0
  queued : List α := []
  deriving DecidableEq

namespace Semaphore

open List

variable {α : Type*} {a : α}

/-- How many places are free. -/
def free (m : Semaphore α) : Nat :=
  (m.limit - m.holders.length).toNat

/-- The head of the line and the semaphore after it got a place, if there is one. -/
def promote (m : Semaphore α) : Option (α × Semaphore α) :=
  match m.queued with
  | [] => none
  | a :: rest =>
    if m.limit > 0 ∧ m.holders.length < m.limit then
      some (a, { m with holders := m.holders ++ [a], queued := rest })
    else none

/-- Who gets a place when all free ones are given to the line. -/
def taken (m : Semaphore α) : List α :=
  m.queued.take m.free

/-- The semaphore after all free places were given to the line. -/
def filled (m : Semaphore α) : Semaphore α :=
  { m with holders := m.holders ++ m.taken, queued := m.queued.drop m.free }

theorem promote_some {m m' : Semaphore α} (h : m.promote = some (a, m')) :
  m.queued = a :: m'.queued ∧ m'.holders = m.holders ++ [a] ∧ m'.limit = m.limit ∧
    (m'.holders.length : Int) ≤ m.limit
  := by
  unfold promote at h
  split at h
  · cases h
  · grind

theorem taken_cons {m m' : Semaphore α} (h : m.promote = some (a, m')) :
  m.taken = a :: m'.taken ∧ m.filled = m'.filled
  := by
  obtain ⟨line, holders, limit, bound⟩ := promote_some h
  have one : m.free = m'.free + 1 := by
    simp only [holders, length_append, length_singleton] at bound
    simp only [free, holders, length_append, length_singleton]
    omega
  constructor
  · simp [taken, line, one]
  · simp [filled, taken, line, one, holders, limit]

variable {m : Semaphore α}

theorem taken_nil (h : m.promote = none) :
  m.taken = [] ∧ m.filled = m
  := by
  unfold promote at h
  split at h
  · rename_i line
    obtain ⟨holders, limit, queued⟩ := m
    obtain rfl : queued = [] := line
    simp [taken, filled]
  · split at h
    · cases h
    · have none : m.free = 0 := by
        simp only [free]
        omega
      simp [taken, filled, none]

theorem promote_settled (settled : m.free = 0 ∨ m.queued = []) :
  m.promote = none
  := by
  unfold promote
  split
  · rfl
  · rename_i a rest line
    have full : m.free = 0 := by grind
    rw [if_neg]
    simp only [free] at full
    omega

theorem taken_append (m : Semaphore α) :
  m.taken ++ m.filled.queued = m.queued
  := take_append_drop m.free m.queued

theorem filled_settled (m : Semaphore α) :
  m.filled.free = 0 ∨ m.filled.queued = []
  := by
  by_cases short : m.queued.length ≤ m.free
  · right
    simp [filled, short]
  · left
    simp only [filled, free, taken, length_append, length_take]
    simp only [free] at short
    omega

/-! ### Places are not given twice -/

/-- Nobody holds or waits twice, and nobody does both. -/
structure Valid (m : Semaphore α) : Prop where
  holders : m.holders.Nodup
  queued : m.queued.Nodup
  disjoint : ∀ a ∈ m.holders, a ∉ m.queued

theorem valid_empty :
  ({} : Semaphore α).Valid
  := by
  constructor <;> simp

theorem Valid.congr {m m' : Semaphore α} (valid : m.Valid) (holders : m'.holders = m.holders)
    (queued : m'.queued = m.queued) :
  m'.Valid
  := by
  obtain ⟨once, line, disjoint⟩ := valid
  constructor <;> grind

theorem Valid.hold (valid : m.Valid) (free : a ∉ m.holders) (idle : a ∉ m.queued) :
  { m with holders := m.holders ++ [a] }.Valid
  := by
  obtain ⟨once, line, disjoint⟩ := valid
  constructor <;> grind

theorem Valid.wait (valid : m.Valid) (free : a ∉ m.holders) (idle : a ∉ m.queued) :
  { m with queued := m.queued ++ [a] }.Valid
  := by
  obtain ⟨once, line, disjoint⟩ := valid
  constructor <;> grind

theorem Valid.leave [DecidableEq α] (valid : m.Valid) (a : α) :
  { m with holders := m.holders.erase a, queued := m.queued.erase a }.Valid
  := by
  constructor
  · exact valid.holders.erase a
  · exact valid.queued.erase a
  · intro b holds waits
    exact valid.disjoint b (mem_of_mem_erase holds) (mem_of_mem_erase waits)

theorem Valid.filled (valid : m.Valid) :
  m.filled.Valid
  := by
  obtain ⟨once, line, disjoint⟩ := valid
  rw [← take_append_drop m.free m.queued, nodup_append] at line
  constructor <;> grind [Semaphore.filled, taken, mem_of_mem_take, mem_of_mem_drop]

theorem Valid.mem_filled_queued (valid : m.Valid) :
  a ∈ m.filled.queued ↔ a ∈ m.queued ∧ a ∉ m.taken
  := by
  have line := valid.queued
  rw [← take_append_drop m.free m.queued, nodup_append] at line
  have split : a ∈ m.queued ↔ a ∈ m.taken ∨ a ∈ m.filled.queued := by
    rw [← mem_append, taken_append]
  tauto

end Semaphore
