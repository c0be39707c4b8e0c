import Mathlib.Data.List.Nodup
import Mathlib.Data.List.Perm.Subperm
import Mathlib.Data.Set.Finite.List
import Mathlib.Logic.Function.Basic
import Mathlib.Order.RelClasses
import Mathlib.Tactic.Linarith

/-!
# Finite directed multigraphs

A multigraph is a list of vertices and a list of edges with endpoints among them.  Edges that come
from a set of closed vertices are settled, the others are open; `openIn` counts the open edges into
a vertex.  Kahn's algorithm closes vertices one after the other, each once no open edge enters it.
When it closes all of them the graph has a rank along which every edge goes up (`exists_rank`), and
every nonempty set of vertices has a member that no edge enters from within the set
(`exists_minimal`).  It closes all of them exactly when there is no directed cycle (`sorts_iff`).
-/

/-- A finite directed multigraph whose edges have their endpoints among its vertices. -/
structure Multidigraph (V E : Type*) where
  vertices : List V
  edges : List E
  src : E → V
  dst : E → V
  nodup : vertices.Nodup
  src_mem : ∀ e ∈ edges, src e ∈ vertices
  dst_mem : ∀ e ∈ edges, dst e ∈ vertices

namespace Multidigraph

open Function List Nat Relation

variable {V E : Type*} [DecidableEq V] (G : Multidigraph V E)

/-! ### Open edges -/

/-- The number of edges into `v`. -/
def inDegree (v : V) : Nat := G.edges.countP (fun e => G.dst e = v)

/-- The number of edges from `u` to `v`. -/
def multiplicity (u v : V) : Nat := G.edges.countP (fun e => G.src e = u ∧ G.dst e = v)

/-- The number of edges into `v` whose source is not among the closed vertices. -/
def openIn (closed : List V) (v : V) : Nat :=
  G.edges.countP (fun e => G.dst e = v ∧ G.src e ∉ closed)

@[simp]
theorem openIn_nil (v : V) :
  G.openIn [] v = G.inDegree v
  := by
  simp [openIn, inDegree]

omit [DecidableEq V] in
theorem countP_or_of_disjoint {p q r : E → Bool} {es : List E}
    (hor : ∀ e ∈ es, p e = (q e || r e)) (hdisj : ∀ e ∈ es, q e → r e = false) :
  es.countP p = es.countP q + es.countP r
  := by
  induction es with
  | nil => rfl
  | cons e es ih =>
    rw [forall_mem_cons] at hor hdisj
    grind

variable {closed : List V}

/-- Closing an open vertex `u` settles the edges from `u`. -/
theorem openIn_cons {u : V} (hu : u ∉ closed) (v : V) :
  G.openIn (u :: closed) v + G.multiplicity u v = G.openIn closed v
  := by
  symm
  apply countP_or_of_disjoint
  · intro e _
    by_cases he : G.src e = u
    · subst he
      simp [hu]
    · simp [he]
  · grind

theorem openIn_eq_zero {v : V} :
  G.openIn closed v = 0 ↔ ∀ e ∈ G.edges, G.dst e = v → G.src e ∈ closed
  := by
  simp [openIn]

theorem openIn_congr {closed closed' : List V} (h : ∀ u, u ∈ closed ↔ u ∈ closed') (v : V) :
  G.openIn closed v = G.openIn closed' v
  := by
  simp [openIn, h]

/-! ### Kahn's algorithm -/

/-- Account for one edge out of the vertex being visited: its target is one edge closer to being
free and joins the queue when that was its last one. -/
def relax (state : (V → Int) × List V) (e : E) : (V → Int) × List V :=
  let indeg := Function.update state.1 (G.dst e) (state.1 (G.dst e) - 1)
  if indeg (G.dst e) = 0 then (indeg, state.2 ++ [G.dst e]) else (indeg, state.2)

/-- The vertices visited from the front of the queue on, in order.  Each visit takes one unit of
fuel. -/
def visit : Nat → (V → Int) → List V → List V
  | 0, _, _ => []
  | _ + 1, _, [] => []
  | fuel + 1, indeg, cur :: queue =>
    let state := (G.edges.filter (fun e => G.src e = cur)).foldl G.relax (indeg, queue)
    cur :: visit fuel state.1 state.2

/-- The order in which the vertices are visited when those without in-edges are queued first. -/
def visited : List V :=
  G.visit G.vertices.length (fun v => G.inDegree v)
    (G.vertices.filter (fun v => G.inDegree v = 0))

/-- Every vertex is visited. -/
def sorts : Bool := G.visited.length == G.vertices.length

/-- What holds between two visits: the counters count the open edges, and the visited and queued
vertices are distinct and free of open edges. -/
structure Sound (closed : List V) (indeg : V → Int) (queue : List V) : Prop where
  count : ∀ v, indeg v = G.openIn closed v
  free : ∀ v ∈ closed ++ queue, G.openIn closed v = 0
  nodup : (closed ++ queue).Nodup
  subset : ∀ v ∈ closed ++ queue, v ∈ G.vertices

/-- What holds while the edges of the vertex just closed are accounted for, `rest` being those
still to come. -/
structure Relaxing (closed : List V) (rest : List E) (state : (V → Int) × List V) : Prop where
  count : ∀ v, state.1 v = G.openIn closed v + rest.countP (fun e => G.dst e = v)
  free : ∀ v ∈ closed ++ state.2, state.1 v = 0
  nodup : (closed ++ state.2).Nodup
  subset : ∀ v ∈ closed ++ state.2, v ∈ G.vertices

variable {G} {indeg : V → Int} {queue : List V} {rest : List E}

theorem Relaxing.step {e : E} {state : (V → Int) × List V}
    (h : G.Relaxing closed (e :: rest) state) (he : e ∈ G.edges) :
  G.Relaxing closed rest (G.relax state e)
  := by
  have hdst := h.count (G.dst e)
  simp only [countP_cons, decide_true, if_true] at hdst
  have hfresh : G.dst e ∉ closed ++ state.2 := by
    intro hmem
    have := h.free _ hmem
    omega
  have hcount : ∀ v, update state.1 (G.dst e) (state.1 (G.dst e) - 1) v
      = G.openIn closed v + rest.countP (fun e => G.dst e = v) := by
    intro v
    by_cases hv : v = G.dst e
    · subst hv
      rw [update_self]
      omega
    · rw [update_of_ne hv, h.count v]
      simp [Ne.symm hv]
  have hkeep : ∀ v ∈ closed ++ state.2,
      update state.1 (G.dst e) (state.1 (G.dst e) - 1) v = 0 := by
    intro v hv
    rw [update_of_ne (by rintro rfl; apply hfresh hv)]
    apply h.free v hv
  simp only [relax]
  split
  · rename_i hzero
    constructor
    · apply hcount
    · intro v hv
      rw [← append_assoc, mem_append, mem_singleton] at hv
      rcases hv with hv | rfl
      · apply hkeep v hv
      · apply hzero
    · rw [← append_assoc]
      apply List.Nodup.append h.nodup (nodup_singleton _)
      intro v hv hv'
      rw [mem_singleton] at hv'
      apply hfresh
      rw [← hv']
      apply hv
    · intro v hv
      rw [← append_assoc, mem_append, mem_singleton] at hv
      rcases hv with hv | rfl
      · apply h.subset v hv
      · apply G.dst_mem e he
  · constructor
    · apply hcount
    · apply hkeep
    · apply h.nodup
    · apply h.subset

theorem Relaxing.foldl {state : (V → Int) × List V}
    (h : G.Relaxing closed rest state) (he : ∀ e ∈ rest, e ∈ G.edges) :
  G.Relaxing closed [] (rest.foldl G.relax state)
  := by
  induction rest generalizing state with
  | nil => apply h
  | cons e rest ih =>
    apply ih
    · apply h.step (he e (by simp))
    · intro e' he'
      apply he e' (by simp [he'])

theorem Sound.visit {closed : List V} {cur : V}
    (h : G.Sound closed indeg (cur :: queue)) :
  let state := (G.edges.filter (fun e => G.src e = cur)).foldl G.relax (indeg, queue)
  G.Sound (closed ++ [cur]) state.1 state.2
  := by
  have hcur : cur ∉ closed := by
    intro hmem
    apply disjoint_of_nodup_append h.nodup hmem (by simp)
  have hperm : ∀ u, u ∈ cur :: closed ↔ u ∈ closed ++ [cur] := by
    simp [or_comm]
  have hrest : ∀ v, (G.edges.filter (fun e => G.src e = cur)).countP (fun e => G.dst e = v)
      = G.multiplicity cur v := by
    intro v
    rw [countP_filter]
    simp [multiplicity, Bool.and_comm]
  have hcount : ∀ v, indeg v = G.openIn (closed ++ [cur]) v
      + (G.edges.filter (fun e => G.src e = cur)).countP (fun e => G.dst e = v) := by
    intro v
    rw [hrest, ← G.openIn_congr hperm, h.count, ← G.openIn_cons hcur]
    rfl
  have start : G.Relaxing (closed ++ [cur]) (G.edges.filter (fun e => G.src e = cur))
      (indeg, queue) := by
    constructor
    · apply hcount
    · intro v hv
      have hfree := h.free v (by simpa using hv)
      simpa [h.count v] using hfree
    · simpa using h.nodup
    · intro v hv
      apply h.subset v (by simpa using hv)
  have done := start.foldl (fun e he => mem_of_mem_filter he)
  constructor
  · intro v
    rw [done.count v]
    simp
  · intro v hv
    have hv := done.free v hv
    rw [done.count v] at hv
    simpa using hv
  · apply done.nodup
  · apply done.subset

theorem Sound.visit_sound {closed : List V} (fuel : Nat)
    (h : G.Sound closed indeg queue) :
  (closed ++ G.visit fuel indeg queue).Nodup ∧
    (∀ v ∈ G.visit fuel indeg queue, v ∈ G.vertices) ∧
    ∀ l v r, G.visit fuel indeg queue = l ++ v :: r →
      ∀ e ∈ G.edges, G.dst e = v → G.src e ∈ closed ++ l
  := by
  induction fuel generalizing closed indeg queue with
  | zero =>
    simp only [Multidigraph.visit, append_nil]
    use (nodup_append.mp h.nodup).1
    simp
  | succ fuel ih =>
    cases queue with
    | nil =>
      simp only [Multidigraph.visit, append_nil]
      use (nodup_append.mp h.nodup).1
      simp
    | cons cur queue =>
      obtain ⟨hnodup, hsub, hord⟩ := ih h.visit
      simp only [Multidigraph.visit]
      refine ⟨by simpa using hnodup, ?_, ?_⟩
      · intro v hv
        rw [mem_cons] at hv
        rcases hv with rfl | hv
        · apply h.subset _ (by simp)
        · apply hsub v hv
      · intro l v r hsplit e he hdst
        cases l with
        | nil =>
          obtain ⟨rfl, -⟩ := cons.inj hsplit
          have hfree := h.free cur (by simp)
          rw [G.openIn_eq_zero] at hfree
          simpa using hfree e he hdst
        | cons u l =>
          obtain ⟨rfl, hrest⟩ := cons.inj hsplit
          simpa using hord l v r hrest e he hdst

theorem Sound.start (G : Multidigraph V E) :
  G.Sound [] (fun v => G.inDegree v) (G.vertices.filter (fun v => G.inDegree v = 0))
  := by
  constructor
  · simp
  · intro v hv
    simpa using (mem_filter.mp hv).2
  · simpa using G.nodup.filter _
  · intro v hv
    apply mem_of_mem_filter hv

/-! ### Ranks -/

theorem exists_rank (h : G.sorts) :
  ∃ rank : V → Nat, ∀ e ∈ G.edges, rank (G.src e) < rank (G.dst e)
  := by
  obtain ⟨hnodup, hsub, hord⟩ := (Sound.start G).visit_sound G.vertices.length
  change (G.visited).Nodup at hnodup
  have hlen : G.visited.length = G.vertices.length := by simpa [sorts] using h
  have hperm : G.visited.Perm G.vertices :=
    (subperm_of_subset hnodup hsub).perm_of_length_le (by omega)
  use fun v => G.visited.idxOf v
  intro e he
  obtain ⟨l, r, hsplit⟩ := append_of_mem (hperm.mem_iff.mpr (G.dst_mem e he))
  have hsrc : G.src e ∈ l := by simpa using hord l _ r hsplit e he rfl
  have hdst : G.dst e ∉ l := by grind
  calc G.visited.idxOf (G.src e)
      = l.idxOf (G.src e) := by rw [hsplit, idxOf_append_of_mem hsrc]
    _ < l.length := idxOf_lt_length_of_mem hsrc
    _ ≤ G.visited.idxOf (G.dst e) := by grind

theorem exists_minimal (h : G.sorts) {P : V → Prop} (hP : ∃ v ∈ G.vertices, P v) :
  ∃ v ∈ G.vertices, P v ∧ ∀ e ∈ G.edges, G.dst e = v → ¬ P (G.src e)
  := by
  obtain ⟨rank, hrank⟩ := exists_rank h
  obtain ⟨v, ⟨hv, hPv⟩, hmin⟩ := WellFounded.has_min
    (InvImage.wf rank lt_wfRel.wf) { v | v ∈ G.vertices ∧ P v } hP
  refine ⟨v, hv, hPv, ?_⟩
  intro e he hdst hsrc
  apply hmin (G.src e) ⟨G.src_mem e he, hsrc⟩
  rw [← hdst]
  apply hrank e he

theorem src_ne_dst (h : G.sorts) {e : E} (he : e ∈ G.edges) :
  G.src e ≠ G.dst e
  := by
  obtain ⟨rank, hrank⟩ := exists_rank h
  intro heq
  have := hrank e he
  rw [heq] at this
  omega

/-! ### Cycles -/

/-- An edge leads from one vertex to the other. -/
def Adj (G : Multidigraph V E) (u v : V) : Prop := ∃ e ∈ G.edges, G.src e = u ∧ G.dst e = v

/-- The vertices that no open edge enters are visited or queued. -/
theorem relax_foldl_complete {state : (V → Int) × List V}
    (h : ∀ v ∈ G.vertices, state.1 v = 0 → v ∈ closed ++ state.2) :
  ∀ v ∈ G.vertices, (rest.foldl G.relax state).1 v = 0 →
    v ∈ closed ++ (rest.foldl G.relax state).2
  := by
  induction rest generalizing state with
  | nil => apply h
  | cons e rest ih =>
    apply ih
    intro v hv free
    simp only [relax] at free ⊢
    split at free
    · rename_i last
      rw [if_pos last, ← append_assoc, mem_append, mem_singleton]
      refine (em (v = G.dst e)).symm.imp_left ?_
      intro other
      apply h v hv
      simpa [update_of_ne other] using free
    · rename_i more
      rw [if_neg more]
      have other : v ≠ G.dst e := by
        rintro rfl
        apply more free
      apply h v hv
      simpa [update_of_ne other] using free

theorem Sound.visit_complete {fuel : Nat}
    (h : G.Sound closed indeg queue)
    (complete : ∀ v ∈ G.vertices, indeg v = 0 → v ∈ closed ++ queue)
    (enough : G.vertices.length ≤ closed.length + fuel) :
  ∀ v ∈ G.vertices, G.openIn (closed ++ G.visit fuel indeg queue) v = 0 →
    v ∈ closed ++ G.visit fuel indeg queue
  := by
  induction fuel generalizing closed indeg queue with
  | zero =>
    intro v hv _
    have sub := subperm_of_subset (nodup_append.mp h.nodup).1
      (fun u hu => h.subset u (mem_append_left _ hu))
    simpa [Multidigraph.visit] using (sub.perm_of_length_le enough).mem_iff.mpr hv
  | succ fuel ih =>
    cases queue with
    | nil =>
      intro v hv free
      rw [Multidigraph.visit, append_nil] at free ⊢
      simpa [h.count v, free] using complete v hv
    | cons cur queue =>
      have := ih h.visit (relax_foldl_complete (by simpa using complete)) (by simp; omega)
      simpa [Multidigraph.visit] using this

/-- The algorithm visits every vertex exactly when the graph has no directed cycle. -/
theorem sorts_iff :
  G.sorts ↔ ∀ v, ¬ TransGen G.Adj v v
  := by
  constructor
  · intro h v cycle
    obtain ⟨rank, hrank⟩ := exists_rank h
    have up : ∀ u, TransGen G.Adj v u → rank v < rank u := by
      intro u path
      induction path with
      | single step =>
        obtain ⟨e, he, rfl, rfl⟩ := step
        apply hrank e he
      | tail _ step ih =>
        obtain ⟨e, he, rfl, rfl⟩ := step
        apply ih.trans (hrank e he)
    apply lt_irrefl _ (up v cycle)
  · intro acyclic
    have complete := (Sound.start G).visit_complete (fun v hv free => by simpa [hv] using free)
      (Nat.le_add_left ..)
    obtain ⟨hnodup, hsub, -⟩ := (Sound.start G).visit_sound G.vertices.length
    have wf := @Finite.wellFounded_of_trans_of_irrefl { v // v ∈ G.vertices } _
      (fun u v => TransGen G.Adj u v) ⟨fun _ _ _ => .trans⟩ ⟨fun v => acyclic v⟩
    have all : ∀ v : { v // v ∈ G.vertices }, v.1 ∈ G.visited := by
      intro v
      induction v using wf.induction with | _ v ih
      apply complete v v.2
      rw [openIn_eq_zero]
      intro e he dst
      apply ih ⟨G.src e, G.src_mem e he⟩
      apply TransGen.single ⟨e, he, rfl, dst⟩
    rw [sorts, beq_iff_eq]
    apply le_antisymm
    · apply (subperm_of_subset hnodup hsub).length_le
    · apply (subperm_of_subset G.nodup fun v hv => all ⟨v, hv⟩).length_le

end Multidigraph
