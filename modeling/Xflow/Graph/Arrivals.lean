import Mathlib.Algebra.BigOperators.Group.List.Lemmas
import Mathlib.Algebra.Order.BigOperators.Group.List
import Mathlib.Algebra.Order.Ring.Int
import Xflow.Lib.Aggregate
import Xflow.Types

/-!
# Arrivals at the successors

A unit that finishes reports to each of its successors how many of its edges lead there and how
many of them are active.  `arrivalsBy` aggregates edges into such arrivals, one for each
destination, and the arrivals at a unit account for the edges that lead to it
(`arrivedAt_arrivalsBy`, `activeAt_arrivalsBy`).
-/

namespace Xflow

open Aggregate DownstreamArrival List

/-! ### Aggregated arrivals -/

/-- Account for one more edge to the destination. -/
def DownstreamArrival.addEdge (active : Bool) (a : DownstreamArrival) : DownstreamArrival :=
  { a with
    arrivalCount := a.arrivalCount + 1
    activeCount := if active then a.activeCount + 1 else a.activeCount }

/-- An arrival that accounts for `n` edges, `k` of them active. -/
def DownstreamArrival.withCounts (a : DownstreamArrival) (n k : Int) : DownstreamArrival :=
  { a with arrivalCount := n, activeCount := k }

/-- No edge accounted for yet. -/
def DownstreamArrival.Fresh (a : DownstreamArrival) : Prop :=
  a.arrivalCount = 0 ∧ a.activeCount = 0

attribute [local simp] addEdge

section

variable {α : Type*} (key : α → Int) (active : α → Bool)

/-- One arrival for each destination of the edges, in the order of destinations. -/
def arrivalsBy (fresh : Int → DownstreamArrival) (edges : List α) : List DownstreamArrival :=
  (aggregate key fresh (fun e => .addEdge (active e)) edges).map Prod.snd

/-- `arrivalsBy` when looking up a destination may panic. -/
def arrivalsByM (fresh : Int → Option DownstreamArrival) (edges : List α) :
    Option (List DownstreamArrival) :=
  (aggregateM key fresh (fun e => .addEdge (active e)) edges).map (·.map Prod.snd)

variable {key active} {fresh : Int → DownstreamArrival} {edges : List α}

theorem foldl_addEdge (edges : List α) (a : DownstreamArrival) :
  edges.foldl (fun b e => b.addEdge (active e)) a
    = a.withCounts (a.arrivalCount + edges.length) (a.activeCount + edges.countP active)
  := by
  induction edges generalizing a with
  | nil => simp [withCounts]
  | cons e es ih =>
    rw [foldl_cons, ih]
    by_cases he : active e <;>
      simp [withCounts, he] <;> omega

section

variable (hfresh : ∀ k, (fresh k).Fresh) {a : DownstreamArrival}

include hfresh

/-- The entries that `arrivalsBy` collects. -/
theorem mem_aggregate_addEdge {k : Int} :
  (k, a) ∈ aggregate key fresh (fun e => .addEdge (active e)) edges ↔
    k ∈ edges.map key ∧
      a = (fresh k).withCounts (edges.countP (fun e => key e = k))
        (edges.countP (fun e => key e = k ∧ active e))
  := by
  rw [mem_aggregate, foldl_addEdge, (hfresh k).1, (hfresh k).2, countP_filter,
    ← countP_eq_length_filter]
  simp [and_comm]

theorem mem_arrivalsBy :
  a ∈ arrivalsBy key active fresh edges ↔
    ∃ k ∈ edges.map key,
      a = (fresh k).withCounts (edges.countP (fun e => key e = k))
        (edges.countP (fun e => key e = k ∧ active e))
  := by
  rw [arrivalsBy, mem_map]
  constructor
  · rintro ⟨⟨k, a⟩, hmem, rfl⟩
    use k
    apply (mem_aggregate_addEdge hfresh).mp hmem
  · rintro ⟨k, hk, ha⟩
    use (k, a)
    refine ⟨?_, rfl⟩
    apply (mem_aggregate_addEdge hfresh).mpr ⟨hk, ha⟩

theorem arrivalsBy_eq_map :
  arrivalsBy key active fresh edges = (keysOf key edges).map (fun k =>
    (fresh k).withCounts (edges.countP (fun e => key e = k))
      (edges.countP (fun e => key e = k ∧ active e)))
  := by
  rw [arrivalsBy, aggregate_eq_map, map_map]
  apply map_congr_left
  intro k hk
  have mem : k ∈ edges.map key := mem_keysOf.mp hk
  exact ((mem_aggregate_addEdge hfresh).mp (mem_aggregate.mpr ⟨mem, rfl⟩)).2

theorem nodup_arrivalsBy (hunit : ∀ k ∈ edges.map key, (fresh k).unitIdx = k) :
  ((arrivalsBy key active fresh edges).map (·.unitIdx)).Nodup
  := by
  have hkeys : (arrivalsBy key active fresh edges).map (·.unitIdx)
      = (aggregate key fresh (fun e => .addEdge (active e)) edges).map Prod.fst := by
    rw [arrivalsBy, map_map]
    apply map_congr_left
    rintro ⟨k, a⟩ hmem
    obtain ⟨hk, rfl⟩ := (mem_aggregate_addEdge hfresh).mp hmem
    apply hunit k hk
  rw [hkeys, List.Nodup, pairwise_map]
  apply ascending_aggregate.imp
  intro x y hlt
  apply ne_of_lt hlt

end

end

/-! ### Totals at a unit -/

/-- The number of edges reported to a unit. -/
def arrivedAt (arrivals : List DownstreamArrival) (d : Int) : Int :=
  ((arrivals.filter (fun a => a.unitIdx = d)).map (·.arrivalCount)).sum

/-- The number of active edges reported to a unit. -/
def activeAt (arrivals : List DownstreamArrival) (d : Int) : Int :=
  ((arrivals.filter (fun a => a.unitIdx = d)).map (·.activeCount)).sum

@[simp]
theorem arrivedAt_nil (d : Int) :
  arrivedAt [] d = 0
  := by
  rfl

@[simp]
theorem activeAt_nil (d : Int) :
  activeAt [] d = 0
  := by
  rfl

theorem arrivedAt_cons (a : DownstreamArrival) (arrivals : List DownstreamArrival) (d : Int) :
  arrivedAt (a :: arrivals) d
    = (if a.unitIdx = d then a.arrivalCount else 0) + arrivedAt arrivals d
  := by
  by_cases h : a.unitIdx = d <;> simp [arrivedAt, h]

theorem activeAt_cons (a : DownstreamArrival) (arrivals : List DownstreamArrival) (d : Int) :
  activeAt (a :: arrivals) d
    = (if a.unitIdx = d then a.activeCount else 0) + activeAt arrivals d
  := by
  by_cases h : a.unitIdx = d <;> simp [activeAt, h]

theorem arrivedAt_perm {as bs : List DownstreamArrival} (h : as.Perm bs) (d : Int) :
  arrivedAt as d = arrivedAt bs d
  := by
  apply ((h.filter _).map _).sum_eq

theorem arrivedAt_of_none {arrivals : List DownstreamArrival} {d : Int}
    (h : ¬ ∃ a ∈ arrivals, a.unitIdx = d) :
  arrivedAt arrivals d = 0
  := by
  have hnil : arrivals.filter (fun a => a.unitIdx = d) = [] := by
    simpa using h
  rw [arrivedAt, hnil]
  rfl

theorem arrivedAt_nonneg {arrivals : List DownstreamArrival}
    (hcount : ∀ a ∈ arrivals, 0 < a.arrivalCount) (d : Int) :
  0 ≤ arrivedAt arrivals d
  := by
  apply sum_nonneg
  grind

theorem arrivedAt_pos {a : DownstreamArrival} {arrivals : List DownstreamArrival}
    (hcount : ∀ a ∈ arrivals, 0 < a.arrivalCount) (ha : a ∈ arrivals) :
  0 < arrivedAt arrivals a.unitIdx
  := by
  apply sum_pos
  · grind
  · apply ne_nil_of_mem
    apply mem_map_of_mem (mem_filter.mpr ⟨ha, _⟩)
    simp

section

variable {α : Type*} {key : α → Int} {active : α → Bool} {fresh : Int → DownstreamArrival}
  {edges : List α}

/-- A measure of arrivals that counts edges, summed over the arrivals at a unit. -/
theorem sum_arrivalsBy {w : DownstreamArrival → Int} {p : α → Bool} (d : Int)
    (hunit : ∀ k a, (k, a) ∈ aggregate key fresh (fun e => .addEdge (active e)) edges →
      a.unitIdx = (fresh k).unitIdx)
    (hw : ∀ k, w (fresh k) = 0)
    (hadd : ∀ e a, w (a.addEdge (active e)) = w a + if p e then 1 else 0) :
  (((arrivalsBy key active fresh edges).filter (fun a => a.unitIdx = d)).map w).sum
    = edges.countP (fun e => p e ∧ (fresh (key e)).unitIdx = d)
  := by
  have hweigh : weigh (fun k => (fresh k).unitIdx = d) w
      (aggregate key fresh (fun e => .addEdge (active e)) edges) = _ :=
    weigh_aggregate hw hadd edges
  have hcount (es : List α) :
      (es.map (fun e => if p e then (1 : Int) else 0)).sum = es.countP p := by
    induction es with
    | nil => rfl
    | cons e es ih =>
      rw [map_cons, sum_cons, countP_cons]
      split <;> push_cast <;> omega
  rw [hcount, countP_filter] at hweigh
  have hfilter : (arrivalsBy key active fresh edges).filter (fun a => a.unitIdx = d)
      = ((aggregate key fresh (fun e => .addEdge (active e)) edges).filter
          (fun x => (fresh x.1).unitIdx = d)).map Prod.snd := by
    rw [arrivalsBy, filter_map]
    congr 1
    apply filter_congr
    rintro ⟨k, a⟩ hmem
    simp [hunit k a hmem]
  rw [hfilter, map_map]
  simp only [Bool.decide_and, Bool.decide_eq_true] at hweigh ⊢
  exact hweigh

variable (hfresh : ∀ k, (fresh k).Fresh)

include hfresh

theorem arrivedAt_arrivalsBy (d : Int) :
  arrivedAt (arrivalsBy key active fresh edges) d
    = edges.countP (fun e => (fresh (key e)).unitIdx = d)
  := by
  rw [arrivedAt, sum_arrivalsBy (p := fun _ => true) d]
  · simp
  · intro k a hmem
    obtain ⟨-, rfl⟩ := (mem_aggregate_addEdge hfresh).mp hmem
    rfl
  · intro k
    apply (hfresh k).1
  · simp

theorem activeAt_arrivalsBy (d : Int) :
  activeAt (arrivalsBy key active fresh edges) d
    = edges.countP (fun e => active e ∧ (fresh (key e)).unitIdx = d)
  := by
  rw [activeAt, sum_arrivalsBy (p := active) d]
  · intro k a hmem
    obtain ⟨-, rfl⟩ := (mem_aggregate_addEdge hfresh).mp hmem
    rfl
  · intro k
    apply (hfresh k).2
  · intro e a
    by_cases he : active e <;> simp [he]

end

end Xflow
