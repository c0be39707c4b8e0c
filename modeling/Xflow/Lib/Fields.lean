import Mathlib.Data.List.Basic

/-!
# Fields

A finite map given by the list of its fields, of which the first with a key counts.  `without`
removes keys and `overlay` lays one map over another; both are determined by what a lookup finds
(`lookup_without`, `lookup_overlay`).
-/

namespace Fields

open List Prod

variable {κ β : Type*} [DecidableEq κ] {tops : List (List (κ × β))}

/-- The fields of `m` whose key is none of `keys`. -/
def without (keys : List κ) (m : List (κ × β)) : List (κ × β) :=
  m.filter (fun f => f.1 ∉ keys)

/-- The fields of `top`, and those of `base` whose key `top` does not have. -/
def overlay (base top : List (κ × β)) : List (κ × β) :=
  top ++ without (top.map fst) base

@[simp]
theorem lookup_without (keys : List κ) (m : List (κ × β)) (k : κ) :
  (without keys m).lookup k = if k ∈ keys then none else m.lookup k
  := by
  unfold without
  induction m with
  | nil => simp
  | cons f m ih => by_cases h : f.1 ∈ keys <;> grind

theorem lookup_isSome {m : List (κ × β)} {k : κ} (h : k ∈ m.map fst) :
  (m.lookup k).isSome
  := by
  cases found : m.lookup k with
  | some v => rfl
  | none =>
    grind

@[simp]
theorem lookup_overlay (base top : List (κ × β)) (k : κ) :
  (overlay base top).lookup k = (top.lookup k).or (base.lookup k)
  := by
  rw [overlay, lookup_append]
  by_cases h : k ∈ top.map fst
  · obtain ⟨v, hv⟩ := Option.isSome_iff_exists.mp (lookup_isSome h)
    simp [hv]
  · simp [h]

theorem lookup_foldl_overlay {base : List (κ × β)} {k : κ}
    (h : ∀ top ∈ tops, top.lookup k = none) :
  (tops.foldl overlay base).lookup k = base.lookup k
  := by
  induction tops generalizing base with
  | nil => rfl
  | cons top tops ih =>
    rw [foldl_cons, ih fun other hother => h other (by simp [hother]), lookup_overlay,
      h top (by simp), Option.none_or]

theorem without_foldl_overlay {keys : List κ}
    {base base' : List (κ × β)} (h : without keys base = without keys base') :
  without keys (tops.foldl overlay base) = without keys (tops.foldl overlay base')
  := by
  induction tops generalizing base base' with
  | nil => exact h
  | cons top tops ih =>
    apply ih
    simp only [overlay, without, filter_append]
    congr 1
    rw [filter_comm, filter_comm (l := base')]
    exact congrArg _ h

theorem lookup_map (g : κ → β → β) (m : List (κ × β)) (k : κ) :
  (m.map fun f => (f.1, g f.1 f.2)).lookup k = (m.lookup k).map (g k)
  := by
  induction m with
  | nil => rfl
  | cons f m ih =>
    rw [map_cons, lookup_cons, lookup_cons]
    grind

end Fields
