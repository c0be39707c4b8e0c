import Mathlib.Algebra.BigOperators.Group.List.Basic
import Mathlib.Algebra.GroupWithZero.Nat
import Mathlib.Data.List.Nodup
import Mathlib.Data.List.Perm.Subperm
import Mathlib.Logic.Relation

/-!
# Walks over a finite graph

Two ways to collect what is reachable along the successors `next` of a vertex, with a queue of the
vertices still to look at.  `flood` marks a vertex when it joins the queue, so that no vertex joins
it twice; `sweep` marks a vertex when it leaves the queue, and looks past one that is marked.  Each
round takes one unit of fuel.  On a universe that `next` does not leave, `flood` finds exactly what
is reachable (`mem_flood_iff`), and `sweep` finds all that is queued (`subset_sweep`).
-/

namespace Walk

open List

variable {V : Type*} [DecidableEq V] (next : V → List V)

/-! ### Marking what joins the queue -/

/-- Mark and queue a vertex that is not marked. -/
def enqueue (state : List V × List V) (v : V) : List V × List V :=
  if v ∈ state.1 then state else (state.1 ++ [v], state.2 ++ [v])

/-- Look at the vertices of the queue one after the other. -/
def flood : Nat → List V → List V → List V
  | 0, marked, _ => marked
  | _ + 1, marked, [] => marked
  | fuel + 1, marked, u :: queue =>
    let state := (next u).foldl enqueue (marked, queue)
    flood fuel state.1 state.2

theorem foldl_enqueue (vs marked queue : List V) :
  ∃ fresh, vs.foldl enqueue (marked, queue) = (marked ++ fresh, queue ++ fresh) ∧
    (∀ v ∈ fresh, v ∈ vs) ∧ (∀ v ∈ vs, v ∈ marked ++ fresh) ∧
    (marked.Nodup → (marked ++ fresh).Nodup)
  := by
  induction vs generalizing marked queue with
  | nil => exact ⟨[], by simp⟩
  | cons v vs ih =>
    rw [foldl_cons, enqueue]
    by_cases mem : v ∈ marked
    · obtain ⟨fresh, eq, sub, all, nodup⟩ := ih marked queue
      grind
    · obtain ⟨fresh, eq, sub, all, nodup⟩ := ih (marked ++ [v]) (queue ++ [v])
      grind

/-- What holds between two rounds: the marked vertices are distinct vertices of the universe and
reachable, those of the queue are marked, and the successors of the others are marked too. -/
structure Flooding (verts : List V) (start : V) (marked queue : List V) : Prop where
  nodup : marked.Nodup
  within : ∀ v ∈ marked, v ∈ verts
  queued : ∀ v ∈ queue, v ∈ marked
  begun : start ∈ marked
  reached : ∀ v ∈ marked, Relation.ReflTransGen (fun a b => b ∈ next a) start v
  done : ∀ v ∈ marked, v ∈ queue ∨ ∀ w ∈ next v, w ∈ marked

variable {next} {verts : List V} {start : V} {marked queue : List V}

theorem Flooding.round {u : V} (h : Flooding next verts start marked (u :: queue))
    (closed : ∀ v ∈ verts, ∀ w ∈ next v, w ∈ verts) :
  ∃ fresh, (next u).foldl enqueue (marked, queue) = (marked ++ fresh, queue ++ fresh) ∧
    Flooding next verts start (marked ++ fresh) (queue ++ fresh)
  := by
  obtain ⟨fresh, eq, sub, all, nodup⟩ := foldl_enqueue (next u) marked queue
  have marked_u : u ∈ marked := h.queued u mem_cons_self
  refine ⟨fresh, eq, ?_⟩
  constructor
  case nodup => apply nodup h.nodup
  case within =>
    have within := h.within
    grind
  case queued =>
    have queued := h.queued
    grind
  case begun => exact mem_append_left _ h.begun
  case reached =>
    intro v hv
    obtain hv | hv := mem_append.mp hv
    · apply h.reached v hv
    · apply (h.reached u marked_u).tail (sub v hv)
  case done =>
    have done := h.done
    grind

section

variable (closed : ∀ v ∈ verts, ∀ w ∈ next v, w ∈ verts)

include closed

theorem Flooding.flood {fuel : Nat} (h : Flooding next verts start marked queue)
    (enough : verts.length + queue.length ≤ fuel + marked.length) :
  Flooding next verts start (flood next fuel marked queue) []
  := by
  induction fuel generalizing marked queue with
  | zero =>
    have le : marked.length ≤ verts.length := (h.nodup.subperm h.within).length_le
    have empty : queue = [] := eq_nil_of_length_eq_zero (by omega)
    subst empty
    apply h
  | succ fuel ih =>
    cases queue with
    | nil => apply h
    | cons u queue =>
      obtain ⟨fresh, eq, after⟩ := h.round closed
      rw [Walk.flood, eq]
      apply ih after
      simp only [length_append, length_cons] at enough ⊢
      omega

theorem flooding_flood (mem : start ∈ verts) :
  Flooding next verts start (flood next verts.length [start] [start]) []
  := by
  have first : Flooding next verts start [start] [start] := by
    constructor
    case nodup => apply nodup_singleton
    case within => simpa using mem
    case queued => simp
    case begun => simp
    case reached => simpa using Relation.ReflTransGen.refl
    case done => simp
  apply first.flood closed
  exact Nat.le_refl _

/-- The vertices marked from `start` are those that are reachable from it. -/
theorem mem_flood_iff (mem : start ∈ verts) {v : V} :
  v ∈ flood next verts.length [start] [start] ↔
    Relation.ReflTransGen (fun a b => b ∈ next a) start v
  := by
  have last := flooding_flood closed mem
  constructor
  · intro hv
    apply last.reached v hv
  · intro path
    induction path with
    | refl => apply last.begun
    | tail _ step ih =>
      apply (last.done _ ih).resolve_left (by simp) _ step

end

/-! ### Marking what leaves the queue -/

variable (next) in
/-- Look at the vertices of the queue one after the other, past those that were seen. -/
def sweep : Nat → List V → List V → List V
  | 0, seen, _ => seen
  | _ + 1, seen, [] => seen
  | fuel + 1, seen, u :: queue =>
    if u ∈ seen then sweep fuel seen queue else sweep fuel (seen ++ [u]) (queue ++ next u)

theorem mem_sweep_of_seen {fuel : Nat} {seen queue : List V} {v : V} (mem : v ∈ seen) :
  v ∈ sweep next fuel seen queue
  := by
  induction fuel generalizing seen queue with
  | zero => apply mem
  | succ fuel ih =>
    cases queue with
    | nil => apply mem
    | cons u queue =>
      rw [sweep]
      split
      · apply ih mem
      · apply ih (mem_append_left _ mem)

/-- The successors of the vertices that were not seen, counted. -/
def unseen (next : V → List V) (verts seen : List V) : Nat :=
  ((verts.filter (· ∉ seen)).map (fun v => (next v).length)).sum

theorem unseen_add (next : V → List V) (nodup : verts.Nodup) {seen : List V} {u : V}
    (mem : u ∈ verts) (new : u ∉ seen) :
  unseen next verts (seen ++ [u]) + (next u).length = unseen next verts seen
  := by
  induction verts with
  | nil => cases mem
  | cons v verts ih =>
    obtain ⟨fresh, nodup⟩ := nodup_cons.mp nodup
    by_cases self : v = u
    · subst self
      have rest : verts.filter (· ∉ seen ++ [v]) = verts.filter (· ∉ seen) := by
        apply filter_congr
        grind
      simp only [unseen, filter_cons, rest]
      simp [new, Nat.add_comm]
    · have there : u ∈ verts := (mem_cons.mp mem).resolve_left (Ne.symm self)
      have less := ih nodup there
      simp only [unseen, filter_cons, mem_append, mem_singleton, self, or_false,
        decide_not] at less ⊢
      grind

theorem subset_sweep (nodup : verts.Nodup) (closed : ∀ v ∈ verts, ∀ w ∈ next v, w ∈ verts)
    {fuel : Nat} {seen queue : List V} (within : ∀ v ∈ queue, v ∈ verts)
    (enough : queue.length + unseen next verts seen ≤ fuel) {v : V} (mem : v ∈ queue) :
  v ∈ sweep next fuel seen queue
  := by
  induction fuel generalizing seen queue with
  | zero =>
    obtain rfl : queue = [] := eq_nil_of_length_eq_zero (by omega)
    cases mem
  | succ fuel ih =>
    cases queue with
    | nil => cases mem
    | cons u queue =>
      rw [forall_mem_cons] at within
      rw [length_cons] at enough
      rw [sweep]
      by_cases old : u ∈ seen
      · rw [if_pos old]
        obtain rfl | mem := mem_cons.mp mem
        · apply mem_sweep_of_seen old
        · apply ih within.2 (by omega) mem
      · rw [if_neg old]
        have less := unseen_add next nodup within.1 old
        have later : ∀ w ∈ queue ++ next u, w ∈ verts := by grind
        obtain rfl | mem := mem_cons.mp mem
        · apply mem_sweep_of_seen
          simp
        · apply ih later _ (mem_append_left _ mem)
          rw [length_append]
          omega

end Walk
