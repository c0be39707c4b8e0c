import Mathlib.Data.List.Induction
import Mathlib.Data.List.Sort
import Mathlib.Order.Lattice
import Mathlib.Algebra.BigOperators.Group.List.Basic

/-!
# Aggregating the items of a list by key

`aggregate` folds a list of items into an association list in ascending order of keys, one entry
for each key: the entry starts from a fresh value and every item of that key is added to it in
turn.  `mem_aggregate` describes the entries and `weigh_aggregate` says that an additive measure of
the entries is the measure of the items.  `aggregateM` is the same fold when a fresh value may not
exist.
-/

namespace Aggregate

open List Ne

variable {κ α β : Type*} [LinearOrder κ]

/-- Update the entry of key `k`, or insert one made from `fresh`, in an association list whose keys
ascend. -/
def upsert (k : κ) (fresh : β) (f : β → β) : List (κ × β) → List (κ × β)
  | [] => [(k, f fresh)]
  | (k', b) :: rest =>
    if k < k' then (k, f fresh) :: (k', b) :: rest
    else if k = k' then (k', f b) :: rest
    else (k', b) :: upsert k fresh f rest

/-- One entry for each key of the items, with all items of that key added to it. -/
def aggregate (key : α → κ) (fresh : κ → β) (add : α → β → β) (items : List α) : List (κ × β) :=
  items.foldl (fun m a => upsert (key a) (fresh (key a)) (add a) m) []

/-- The keys of an association list ascend. -/
def Ascending (m : List (κ × β)) : Prop := m.Pairwise (fun x y => x.1 < y.1)

variable {add : α → β → β} {key : α → κ} {m : List (κ × β)} {items : List α} {f : β → β}
  {fresh : κ → β} {k : κ}

theorem mem_keys_upsert {k k' : κ} {fresh : β} :
  k' ∈ (upsert k fresh f m).map Prod.fst ↔ k' = k ∨ k' ∈ m.map Prod.fst
  := by
  fun_induction upsert k fresh f m with
  | case4 _ _ _ _ _ ih =>
    simp only [map_cons, mem_cons]
    tauto
  | _ => simp

theorem Ascending.upsert {fresh : β} (h : Ascending m) :
  Ascending (upsert k fresh f m)
  := by
  fun_induction Aggregate.upsert k fresh f m with
  | case1 => simp [Ascending]
  | case2 j b rest lt =>
    refine pairwise_cons.mpr ⟨fun y mem => ?_, h⟩
    rcases mem_cons.mp mem with rfl | mem
    · exact lt
    · exact lt.trans (rel_of_pairwise_cons h mem)
  | case3 => exact pairwise_cons.mpr (pairwise_cons.mp h)
  | case4 j b rest le ne ih =>
    obtain ⟨below, rest⟩ := pairwise_cons.mp h
    refine pairwise_cons.mpr ⟨fun y mem => ?_, ih rest⟩
    rcases mem_keys_upsert.mp (mem_map_of_mem mem) with eq | old
    · rw [eq]
      exact lt_of_le_of_ne (not_lt.mp le) (Ne.symm ne)
    · obtain ⟨z, mem, eq⟩ := mem_map.mp old
      exact eq ▸ below z mem

/-- The value stored under a key. -/
def lookup (k : κ) (m : List (κ × β)) : Option β := (m.find? (fun x => x.1 = k)).map Prod.snd

theorem lookup_eq_some {b : β} (h : Ascending m) :
  lookup k m = some b ↔ (k, b) ∈ m
  := by
  induction m with
  | nil => simp [lookup]
  | cons x rest ih =>
    obtain ⟨j, c⟩ := x
    obtain ⟨hj, hrest⟩ := pairwise_cons.mp h
    by_cases hk : j = k
    · subst hk
      have hnot : (j, b) ∉ rest := by
        intro hmem
        apply lt_irrefl j (hj _ hmem)
      simp [lookup, hnot, eq_comm]
    · have := ih hrest
      simp only [lookup, find?_cons, hk, decide_false] at this ⊢
      rw [this]
      simp [symm hk]

theorem lookup_upsert {k k' : κ} {fresh : β} (h : Ascending m) :
  lookup k' (upsert k fresh f m)
    = if k' = k then some (f ((lookup k m).getD fresh)) else lookup k' m
  := by
  have cons (i j : κ) (b : β) (rest : List (κ × β)) :
      lookup i ((j, b) :: rest) = if i = j then some b else lookup i rest := by
    by_cases same : i = j
    · simp [lookup, same]
    · simp [lookup, same, symm same]
  fun_induction upsert k fresh f m with
  | case1 => exact cons ..
  | case2 j b rest lt =>
    have absent : lookup k ((j, b) :: rest) = none := by
      simp only [lookup, Option.map_eq_none_iff, find?_eq_none, mem_cons, decide_eq_true_eq]
      rintro y (rfl | mem)
      · exact ne_of_gt lt
      · exact ne_of_gt (lt.trans (rel_of_pairwise_cons h mem))
    rw [cons, absent, Option.getD_none]
  | case3 j b rest =>
    split <;> simp_all
  | case4 j b rest _ ne ih =>
    rw [cons, ih (pairwise_cons.mp h).2, cons, cons, if_neg ne]
    by_cases same : k' = j
    · simp [same, symm ne]
    · simp [same]

theorem aggregate_concat (a : α) :
  aggregate key fresh add (items ++ [a])
    = upsert (key a) (fresh (key a)) (add a) (aggregate key fresh add items)
  := by
  simp [aggregate]

theorem ascending_aggregate :
  Ascending (aggregate key fresh add items)
  := by
  induction items using reverseRecOn with
  | nil => simp [aggregate, Ascending]
  | append_singleton items a ih =>
    rw [aggregate_concat]
    apply Ascending.upsert ih

theorem lookup_aggregate (k : κ) :
  lookup k (aggregate key fresh add items)
    = if k ∈ items.map key
      then some ((items.filter (fun a => key a = k)).foldl (fun b a => add a b) (fresh k))
      else none
  := by
  induction items using reverseRecOn with
  | nil => simp [aggregate, lookup]
  | append_singleton items a ih =>
    rw [aggregate_concat, lookup_upsert ascending_aggregate]
    by_cases hk : k = key a
    · subst hk
      rw [ih]
      by_cases hmem : key a ∈ items.map key
      · simp [hmem]
      · have hnil : items.filter (fun b => key b = key a) = [] := by
          simpa using hmem
        simp [hmem, hnil]
    · simp [hk, symm hk, ih]

theorem mem_aggregate {b : β} :
  (k, b) ∈ aggregate key fresh add items ↔
    k ∈ items.map key ∧
      b = (items.filter (fun a => key a = k)).foldl (fun b a => add a b) (fresh k)
  := by
  rw [← lookup_eq_some ascending_aggregate, lookup_aggregate]
  split
  · rename_i hmem
    simp [hmem, eq_comm]
  · rename_i hmem
    simp [hmem]

theorem mem_keys_aggregate :
  k ∈ (aggregate key fresh add items).map Prod.fst ↔ k ∈ items.map key
  := by
  rw [mem_map]
  constructor
  · rintro ⟨⟨k, b⟩, mem, rfl⟩
    exact (mem_aggregate.mp mem).1
  · intro mem
    exact ⟨(k, _), mem_aggregate.mpr ⟨mem, rfl⟩, rfl⟩

/-- The keys of the items, in order. -/
def keysOf (key : α → κ) (items : List α) : List κ :=
  (aggregate key (fun _ => ()) (fun _ b => b) items).map Prod.fst

theorem mem_keysOf :
  k ∈ keysOf key items ↔ k ∈ items.map key
  := mem_keys_aggregate

theorem aggregate_eq_map :
  aggregate key fresh add items = (keysOf key items).map (fun k =>
    (k, (items.filter (fun a => key a = k)).foldl (fun b a => add a b) (fresh k)))
  := by
  have keys : (aggregate key fresh add items).map Prod.fst = keysOf key items := by
    apply List.Pairwise.eq_of_mem_iff (r := (· < ·))
    · rw [pairwise_map]
      apply ascending_aggregate
    · rw [keysOf, pairwise_map]
      apply ascending_aggregate
    · intro k
      rw [mem_keysOf, mem_keys_aggregate]
  rw [← keys, map_map]
  nth_rewrite 1 [← map_id (aggregate key fresh add items)]
  apply map_congr_left
  rintro ⟨k, b⟩ mem
  simp [(mem_aggregate.mp mem).2]

/-! ### Measures -/

variable {M : Type*} [AddCommMonoid M] {P : κ → Bool} {w : β → M}

/-- The sum of `w` over the entries whose key satisfies `P`. -/
def weigh (P : κ → Bool) (w : β → M) (m : List (κ × β)) : M :=
  ((m.filter (fun x => P x.1)).map (fun x => w x.2)).sum

/-- An update that adds `v` to the measure of its entry adds `v` to the measure of the list. -/
theorem weigh_upsert {fresh : β} {v : M}
    (hfresh : w fresh = 0) (hf : ∀ b, w (f b) = w b + v) (m : List (κ × β)) :
  weigh P w (upsert k fresh f m) = weigh P w m + if P k then v else 0
  := by
  have cons (j : κ) (b : β) (rest : List (κ × β)) :
      weigh P w ((j, b) :: rest) = (if P j then w b else 0) + weigh P w rest := by
    by_cases hj : P j <;> simp [weigh, hj]
  fun_induction upsert k fresh f m with
  | case1 => by_cases hk : P k <;> simp [weigh, hk, hf, hfresh]
  | case2 => by_cases hk : P k <;> simp [cons, hf, hfresh, add_comm]
  | case3 => by_cases hk : P k <;> simp [cons, hk, hf, add_right_comm]
  | case4 _ _ _ _ _ ih => rw [cons, cons, ih, add_assoc]

theorem weigh_aggregate {v : α → M} (hfresh : ∀ k, w (fresh k) = 0)
    (hadd : ∀ a b, w (add a b) = w b + v a) (items : List α) :
  weigh P w (aggregate key fresh add items)
    = ((items.filter (fun a => P (key a))).map v).sum
  := by
  induction items using reverseRecOn with
  | nil => simp [aggregate, weigh]
  | append_singleton items a ih =>
    rw [aggregate_concat, weigh_upsert (hfresh _) (hadd a), ih]
    by_cases hk : P (key a) <;> simp [hk]

/-! ### Partial aggregation -/

/-- `upsert` when there may be no fresh value to start a new entry from. -/
def upsertM (k : κ) (fresh : Option β) (f : β → β) : List (κ × β) → Option (List (κ × β))
  | [] => fresh.map (fun b => [(k, f b)])
  | (k', b) :: rest =>
    if k < k' then fresh.map (fun c => (k, f c) :: (k', b) :: rest)
    else if k = k' then some ((k', f b) :: rest)
    else (upsertM k fresh f rest).map ((k', b) :: ·)

/-- `aggregate` when there may be no fresh value for a key. -/
def aggregateM (key : α → κ) (fresh : κ → Option β) (add : α → β → β) (items : List α) :
    Option (List (κ × β)) :=
  items.foldlM (fun m a => upsertM (key a) (fresh (key a)) (add a) m) []

theorem upsertM_some {fresh : β} :
  upsertM k (some fresh) f m = some (upsert k fresh f m)
  := by
  induction m with
  | nil => rfl
  | cons x rest ih =>
    simp only [upsertM, upsert]
    split
    · rfl
    · split
      · rfl
      · rw [ih]
        rfl

theorem upsertM_none (h : k ∉ m.map Prod.fst) :
  upsertM k none f m = none
  := by
  induction m with
  | nil => rfl
  | cons x rest ih =>
    simp only [map_cons, mem_cons, not_or] at h
    simp [upsertM, h.1, ih h.2]

theorem aggregateM_eq_some {fresh : κ → Option β} {total : κ → β}
    (h : ∀ a ∈ items, fresh (key a) = some (total (key a))) :
  aggregateM key fresh add items = some (aggregate key total add items)
  := by
  induction items using reverseRecOn with
  | nil => rfl
  | append_singleton items a ih =>
    have ih := ih (fun b hb => h b (by simp [hb]))
    simp only [aggregateM, aggregate, foldlM_append] at ih ⊢
    rw [ih]
    simp [h a (by simp), upsertM_some]

theorem aggregateM_eq_none {fresh : κ → Option β} {a : α} (ha : a ∈ items)
    (h : fresh (key a) = none) :
  aggregateM key fresh add items = none
  := by
  have main : ∀ (items : List α) (m : List (κ × β)), (∀ k ∈ m.map Prod.fst, fresh k ≠ none) →
      a ∈ items →
      items.foldlM (fun m a => upsertM (key a) (fresh (key a)) (add a) m) m = none := by
    intro items
    induction items with
    | nil => simp
    | cons b items ih =>
      intro m hm hmem
      rw [foldlM_cons]
      cases hb : fresh (key b) with
      | none =>
        rw [upsertM_none (fun hk => hm _ hk hb)]
        rfl
      | some c =>
        rw [upsertM_some]
        apply ih
        · intro k hk
          rw [mem_keys_upsert] at hk
          rcases hk with rfl | hk
          · simp [hb]
          · apply hm k hk
        · grind
  apply main items [] (by simp) ha

end Aggregate
