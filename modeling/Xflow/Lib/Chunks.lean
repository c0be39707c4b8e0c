import Mathlib.Data.List.Basic

/-!
# Cutting a list into chunks

`chunk n` cuts a list into chunks of length `n`, the last of which may be shorter.  The chunks make
up the list (`flatten_chunk`), also when every element is mapped with its position in the list,
computed from its chunk and its position in the chunk (`flatten_mapIdx_chunk`).
-/

namespace Chunks

open List

variable {α β : Type*} {n : Nat}

/-- Cut a list into chunks, at most as many as the fuel. -/
def chunkFuel (n : Nat) : Nat → List α → List (List α)
  | 0, _ => []
  | _ + 1, [] => []
  | fuel + 1, x :: xs => (x :: xs).take n :: chunkFuel n fuel ((x :: xs).drop n)

/-- Cut a list into chunks of length `n`. -/
def chunk (n : Nat) (xs : List α) : List (List α) := chunkFuel n xs.length xs

theorem flatten_mapIdx_chunkFuel (positive : 0 < n) (fuel : Nat) :
  ∀ (xs : List α) (f : Nat → α → β), xs.length ≤ fuel →
    ((chunkFuel n fuel xs).mapIdx (fun k c => c.mapIdx (fun j x => f (k * n + j) x))).flatten
      = xs.mapIdx f
  := by
  induction fuel with
  | zero =>
    intro xs f short
    rw [eq_nil_of_length_eq_zero (Nat.le_zero.mp short)]
    rfl
  | succ fuel ih =>
    intro xs f short
    cases xs with
    | nil => rfl
    | cons x xs =>
      have shorter : ((x :: xs).drop n).length ≤ fuel := by
        simp only [length_drop] at short ⊢
        omega
      have shift (k j : Nat) : (k + 1) * n + j = k * n + j + n := by
        rw [Nat.succ_mul]
        omega
      rw [chunkFuel, mapIdx_cons, flatten_cons]
      simp only [shift, Nat.zero_mul, Nat.zero_add]
      rw [ih ((x :: xs).drop n) (fun i => f (i + n)) shorter]
      conv_rhs => rw [← take_append_drop n (x :: xs), mapIdx_append]
      -- the first chunk has length `n` unless it is the last one
      by_cases last : (x :: xs).length ≤ n
      · rw [drop_eq_nil_of_le last]
        rfl
      · rw [length_take_of_le (Nat.le_of_not_le last)]

theorem flatten_mapIdx_chunk (positive : 0 < n) (xs : List α) (f : Nat → α → β) :
  ((chunk n xs).mapIdx (fun k c => c.mapIdx (fun j x => f (k * n + j) x))).flatten = xs.mapIdx f
  :=
  flatten_mapIdx_chunkFuel positive xs.length xs f (Nat.le_refl _)

theorem length_le_of_mem_chunkFuel (fuel : Nat) :
  ∀ xs : List α, ∀ c ∈ chunkFuel n fuel xs, c.length ≤ n
  := by
  induction fuel with
  | zero => exact fun _ _ mem => absurd mem not_mem_nil
  | succ fuel ih =>
    intro xs c mem
    cases xs with
    | nil => cases mem
    | cons x xs =>
      rcases mem_cons.mp mem with rfl | mem
      · exact length_take_le n _
      · exact ih _ c mem

/-- No chunk is longer than `n`. -/
theorem length_le_of_mem_chunk {xs c : List α} (mem : c ∈ chunk n xs) :
  c.length ≤ n
  :=
  length_le_of_mem_chunkFuel _ xs c mem

theorem chunk_of_length_le {xs : List α} (short : xs.length ≤ n) (some : xs ≠ []) :
  chunk n xs = [xs]
  := by
  cases xs with
  | nil => exact absurd rfl some
  | cons x xs =>
    rw [chunk, length_cons, chunkFuel, take_of_length_le short, drop_eq_nil_of_le short]
    cases xs.length with
    | zero => rfl
    | succ => rfl

end Chunks
