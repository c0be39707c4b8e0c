import Xflow.Engine.Requests

/-!
# The order of a merge's closure

`CancelClosure` walks backwards from a merge and lists a node when all its ancestors are listed.  In
an acyclic graph the loop over the stack comes to the same list as the recursion; the list holds the
ancestors, each once (`cancelClosure_ancestors`), and every beginning of it holds, with a node, the
sources of all edges into it (`cancelClosure_ordered`).

The nodes that are seen but not listed are those whose walk is under way.  They lie on a path to the
merge, so none of them is an ancestor of the node that is visited.
-/

namespace Xflow

open List Relation Topology

namespace Topology

variable {g : Topology} {merge node : Int} {rank : Int → Nat} {fuel : Nat}
  {acc mid last : List Int × List Int}

/-- Every beginning of the list holds the sources of the edges into its nodes. -/
def Ordered (g : Topology) (out : List Int) : Prop :=
  ∀ l, l <+: out → ∀ e ∈ g.edges, e.dstIdx ∈ l → e.srcIdx ∈ l

theorem Ordered.concat {out : List Int} (h : g.Ordered out)
    (sources : ∀ e ∈ g.edges, e.dstIdx = node → e.srcIdx ∈ out) :
  g.Ordered (out ++ [node])
  := by
  intro l start e he dst
  rcases prefix_concat_iff.mp start with rfl | start
  · have before := h out prefix_rfl e he
    grind
  · exact h l start e he dst

/-! ### The walk -/

/-- The walk along one edge into a node. -/
def closureEdge (g : Topology) (merge : Int) (fuel : Nat) (acc : List Int × List Int) (e : Edge) :
    List Int × List Int :=
  if e.srcIdx ∈ acc.1 then acc else g.closureVisit merge fuel e.srcIdx (e.srcIdx :: acc.1, acc.2)

theorem closureVisit_succ :
  g.closureVisit merge (fuel + 1) node acc
    = (((g.nodeInEdges node).foldl (g.closureEdge merge fuel) acc).1,
      if node = merge then ((g.nodeInEdges node).foldl (g.closureEdge merge fuel) acc).2
      else ((g.nodeInEdges node).foldl (g.closureEdge merge fuel) acc).2 ++ [node])
  := by
  rfl

/-- One turn of the loop of `CancelClosure`.  On the stack are the nodes whose walk is under way,
each with the number of its in-edges that were followed. -/
def closureStep (g : Topology) (merge : Int) :
    List (Int × Nat) × List Int × List Int → List (Int × Nat) × List Int × List Int
  | ([], acc) => ([], acc)
  | ((node, next) :: stack, seen, out) =>
    match (g.nodeInEdges node)[next]? with
    | some e =>
      if e.srcIdx ∈ seen then ((node, next + 1) :: stack, seen, out)
      else ((e.srcIdx, 0) :: (node, next + 1) :: stack, e.srcIdx :: seen, out)
    | none => (stack, seen, if node = merge then out else out ++ [node])

/-- The loop comes from one state to the other. -/
abbrev Loops (g : Topology) (merge : Int) :=
  ReflTransGen fun s t => g.closureStep merge s = t

/-- The nodes seen and the nodes listed. -/
structure Explored (g : Topology) (acc : List Int × List Int) : Prop where
  distinct : acc.1.Nodup
  vertices : acc.1 ⊆ indices g.nodes
  within : acc.2 ⊆ acc.1
  once : acc.2.Nodup
  ordered : g.Ordered acc.2

/-- From one point of the walk to a later one, the nodes that are listed are those that are seen in
between. -/
structure Grows (acc mid : List Int × List Int) : Prop where
  seen : acc.1 ⊆ mid.1
  out : acc.2 ⊆ mid.2
  length : acc.1.length ≤ mid.1.length
  fresh : ∀ x ∈ mid.2, x ∈ acc.2 ∨ x ∉ acc.1
  found : ∀ x ∈ mid.1, x ∈ acc.1 ∨ x ∈ mid.2

theorem Grows.refl :
  Grows acc acc
  where
  seen _ mem := mem
  out _ mem := mem
  length := le_rfl
  fresh _ mem := .inl mem
  found _ mem := .inl mem

theorem Grows.trans (h : Grows acc mid) (h' : Grows mid last) :
  Grows acc last
  := by
  obtain ⟨seen, out, length, fresh, found⟩ := h
  obtain ⟨seen', out', length', fresh', found'⟩ := h'
  constructor
  case length => exact length.trans length'
  all_goals grind

/-- The nodes that are seen but not listed do not come before the node. -/
def Above (rank : Int → Nat) (node : Int) (acc : List Int × List Int) : Prop :=
  ∀ x ∈ acc.1, x ∈ acc.2 ∨ rank node ≤ rank x

theorem Above.later (h : Above rank node acc) (grows : Grows acc mid) :
  Above rank node mid
  := by
  intro x mem
  rcases grows.found x mem with old | listed
  · exact (h x old).imp_left fun listed => grows.out listed
  · exact .inl listed

/-- With this fuel, a visit of a node that was not seen lists it, and the loop comes to the same. -/
def Visits (g : Topology) (merge : Int) (rank : Int → Nat) (fuel : Nat) : Prop :=
  ∀ acc node, g.Explored acc → g.nodes.length ≤ fuel + acc.1.length → merge ∈ acc.1 →
    node ∈ indices g.nodes → node ∉ acc.1 → Above rank node acc →
    g.Explored (g.closureVisit merge fuel node (node :: acc.1, acc.2)) ∧
      Grows acc (g.closureVisit merge fuel node (node :: acc.1, acc.2)) ∧
      node ∈ (g.closureVisit merge fuel node (node :: acc.1, acc.2)).2 ∧
      ∀ stack, g.Loops merge ((node, 0) :: stack, node :: acc.1, acc.2)
        (stack, g.closureVisit merge fuel node (node :: acc.1, acc.2))

theorem Explored.enter (h : g.Explored acc) (vertex : node ∈ indices g.nodes)
    (unseen : node ∉ acc.1) :
  g.Explored (node :: acc.1, acc.2) ∧ acc.1.length < g.nodes.length
  := by
  have distinct : (node :: acc.1).Nodup := nodup_cons.mpr ⟨unseen, h.distinct⟩
  have sub : node :: acc.1 ⊆ indices g.nodes := cons_subset.mpr ⟨vertex, h.vertices⟩
  have le := (subperm_of_subset distinct sub).length_le
  simp only [indices, length_map, length_range] at le
  exact ⟨⟨distinct, sub, fun x mem => mem_cons_of_mem _ (h.within mem), h.once, h.ordered⟩, le⟩

theorem Above.enter (h : Above rank node acc) :
  Above rank node (node :: acc.1, acc.2)
  := by
  intro x mem
  rcases mem_cons.mp mem with rfl | mem
  · exact .inr le_rfl
  · exact h x mem

section

variable (ascends : ∀ e ∈ g.edges, rank e.srcIdx < rank e.dstIdx)

include ascends

section

variable (visits : g.Visits merge rank fuel) (explored : g.Explored acc)
  (enough : g.nodes.length ≤ fuel + acc.1.length) (seen : merge ∈ acc.1)
  (above : Above rank node acc) {next : Nat}

include visits explored enough seen above

theorem Visits.edge {e : Edge} (found : (g.nodeInEdges node)[next]? = some e) :
  g.Explored (g.closureEdge merge fuel acc e) ∧ Grows acc (g.closureEdge merge fuel acc e) ∧
    e.srcIdx ∈ (g.closureEdge merge fuel acc e).2 ∧
    ∀ stack, g.Loops merge ((node, next) :: stack, acc)
      ((node, next + 1) :: stack, g.closureEdge merge fuel acc e)
  := by
  obtain ⟨he, rfl⟩ : e ∈ g.edges ∧ e.dstIdx = node := by
    simpa [nodeInEdges] using mem_of_getElem? found
  have lower := ascends e he
  unfold closureEdge
  split
  · rename_i known
    refine ⟨explored, Grows.refl, (above _ known).resolve_right ?_, fun stack => .single ?_⟩
    · omega
    · simp [closureStep, found, known]
  · rename_i unknown
    obtain ⟨explored, grows, listed, loops⟩ := visits acc e.srcIdx explored enough seen
      (g.nodeGraph.src_mem e he) unknown fun x mem => (above x mem).imp_right lower.le.trans
    refine ⟨explored, grows, listed, fun stack => .head ?_ (loops _)⟩
    simp [closureStep, found, unknown]

/-- The sources of all edges into the node are listed after the walk along them, which ends with
the loop leaving the node. -/
theorem Visits.edges {es : List Edge} (left : (g.nodeInEdges node).drop next = es) :
  let done := es.foldl (g.closureEdge merge fuel) acc
  g.Explored done ∧ Grows acc done ∧ (∀ e ∈ es, e.srcIdx ∈ done.2) ∧
    ∀ stack, g.Loops merge ((node, next) :: stack, acc)
      (stack, done.1, if node = merge then done.2 else done.2 ++ [node])
  := by
  induction es generalizing acc next with
  | nil =>
    refine ⟨explored, Grows.refl, by simp, fun stack => .single ?_⟩
    simp [closureStep, getElem?_eq_none (drop_eq_nil_iff.mp left)]
  | cons e es ih =>
    have found : (g.nodeInEdges node)[next]? = some e := by
      rw [← head?_drop, left, head?_cons]
    have left : (g.nodeInEdges node).drop (next + 1) = es := by
      rw [← tail_drop, left, tail_cons]
    obtain ⟨explored', grows, listed, follows⟩ :=
      visits.edge ascends explored enough seen above found
    have longer := grows.length
    obtain ⟨explored'', grows', rest, loops⟩ :=
      ih explored' (by omega) (grows.seen seen) (above.later grows) left
    refine ⟨explored'', grows.trans grows', ?_, fun stack => (follows stack).trans (loops stack)⟩
    rw [forall_mem_cons]
    exact ⟨grows'.out listed, rest⟩

end

theorem visits (fuel : Nat) :
  g.Visits merge rank fuel
  := by
  induction fuel with
  | zero =>
    intro acc node explored enough seen vertex unseen above
    have room := (explored.enter vertex unseen).2
    omega
  | succ fuel ih =>
    intro acc node explored enough seen vertex unseen above
    obtain ⟨walked, grows, sources, loops⟩ := ih.edges ascends (explored.enter vertex unseen).1
      (by simp only [length_cons]; omega) (mem_cons_of_mem _ seen) above.enter drop_zero
    have ne : node ≠ merge := by
      rintro rfl
      exact unseen seen
    rw [closureVisit_succ, if_neg ne]
    have longer := grows.length
    generalize (g.nodeInEdges node).foldl (g.closureEdge merge fuel) (node :: acc.1, acc.2) = done
      at walked grows sources longer loops
    have unlisted : node ∉ done.2 := by
      intro listed
      rcases grows.fresh node listed with old | new
      · exact unseen (explored.within old)
      · exact new mem_cons_self
    rw [if_neg ne] at loops
    refine ⟨?_, ?_, by simp, loops⟩
    · refine { walked with within := ?within, once := ?once, ordered := ?ordered }
      case within =>
        intro x mem
        rcases mem_append.mp mem with mem | mem
        · exact walked.within mem
        · rw [mem_singleton.mp mem]
          exact grows.seen mem_cons_self
      case once =>
        rw [← concat_eq_append, nodup_concat]
        exact ⟨unlisted, walked.once⟩
      case ordered =>
        apply walked.ordered.concat
        intro e he dst
        exact sources e (by simp [nodeInEdges, he, dst])
    · constructor
      case seen => exact fun x mem => grows.seen (mem_cons_of_mem _ mem)
      case out => exact fun x mem => mem_append_left _ (grows.out mem)
      case length =>
        exact (Nat.le_succ _).trans longer
      case fresh =>
        intro x mem
        rcases mem_append.mp mem with mem | mem
        · exact (grows.fresh x mem).imp_right fun new old => new (mem_cons_of_mem _ old)
        · rw [mem_singleton.mp mem]
          exact .inr unseen
      case found =>
        intro x mem
        rcases grows.found x mem with old | listed
        · grind
        · exact .inr (mem_append_left _ listed)

/-- The walk from the merge. -/
theorem walked (vertex : merge ∈ indices g.nodes) :
  let done := (g.nodeInEdges merge).foldl (g.closureEdge merge g.nodes.length) ([merge], [])
  g.Explored done ∧ Grows ([merge], []) done ∧ (∀ e ∈ g.nodeInEdges merge, e.srcIdx ∈ done.2) ∧
    g.Loops merge ([(merge, 0)], [merge], []) ([], done)
  := by
  have start : g.Explored ([merge], []) := by
    refine ⟨nodup_singleton merge, by simpa using vertex, nil_subset _, nodup_nil, ?_⟩
    intro l start e _ dst
    rw [prefix_nil.mp start] at dst
    cases dst
  have above : Above rank merge ([merge], []) := by
    intro x mem
    rw [mem_singleton.mp mem]
    exact .inr le_rfl
  obtain ⟨explored, grows, sources, loops⟩ := (visits ascends g.nodes.length).edges ascends
    start (by omega) (mem_singleton_self merge) above drop_zero
  refine ⟨explored, grows, sources, ?_⟩
  simpa using loops []

end

theorem closureVisit_reaches (h : ∀ x ∈ acc.1, ReflTransGen g.nodeGraph.Adj x merge)
    (reach : ReflTransGen g.nodeGraph.Adj node merge) :
  ∀ x ∈ (g.closureVisit merge fuel node acc).1, ReflTransGen g.nodeGraph.Adj x merge
  := by
  induction fuel generalizing node acc with
  | zero => exact h
  | succ fuel ih =>
    rw [closureVisit_succ]
    refine foldlRecOn (motive := fun acc : List Int × List Int =>
      ∀ x ∈ acc.1, ReflTransGen g.nodeGraph.Adj x merge) _ _ h fun acc h e he => ?_
    unfold closureEdge
    split
    · exact h
    · obtain ⟨he, dst⟩ : e ∈ g.edges ∧ e.dstIdx = node := by simpa [nodeInEdges] using he
      have source := reach.head ⟨e, he, rfl, dst⟩
      exact ih (forall_mem_cons.mpr ⟨source, h⟩) source

end Topology

theorem Graph.cancelClosure_ordered (g : Graph) (hacyc : g.allowCycles = false) (merge : Int) :
  (g.cancelClosure merge).Nodup ∧ g.Ordered (g.cancelClosure merge)
  := by
  unfold cancelClosure
  split
  · refine ⟨nodup_nil, ?_⟩
    intro l start e _ dst
    rw [prefix_nil.mp start] at dst
    cases dst
  · rename_i range
    obtain ⟨rank, ascends⟩ := g.nodeGraph.exists_rank (g.acyclic_nodes hacyc)
    have vertex : merge ∈ indices g.nodes := by
      simp only [nodeCount] at range
      rw [mem_indices]
      omega
    have walked := (walked ascends vertex).1
    rw [closureVisit_succ, if_pos rfl]
    exact ⟨walked.once, walked.ordered⟩

/-- The loop ends, and lists the strict ancestors of the node, each once and after its own. -/
theorem Graph.cancelClosure_ancestors (g : Graph) (hacyc : g.allowCycles = false) {m : Int}
    (vertex : m ∈ indices g.nodes) :
  (∃ seen, g.Loops m ([(m, 0)], [m], []) ([], seen, g.cancelClosure m)) ∧
    (g.cancelClosure m).Nodup ∧ m ∉ g.cancelClosure m ∧
    (∀ i, i ∈ g.cancelClosure m ↔ TransGen g.nodeGraph.Adj i m) ∧
    ∀ e ∈ g.edges, e.dstIdx ∈ g.cancelClosure m →
      (g.cancelClosure m).idxOf e.srcIdx < (g.cancelClosure m).idxOf e.dstIdx
  := by
  obtain ⟨rank, ascends⟩ := g.nodeGraph.exists_rank (g.acyclic_nodes hacyc)
  obtain ⟨explored, grows, sources, loops⟩ := walked ascends vertex
  have reaches := @closureVisit_reaches g m m (g.nodes.length + 1) ([m], [])
    (by simp [ReflTransGen.refl]) .refl
  have closure : g.cancelClosure m = ((g.nodeInEdges m).foldl
      (g.closureEdge m g.nodes.length) ([m], [])).2 := by
    rw [mem_indices] at vertex
    rw [cancelClosure, if_neg (by simp [hacyc, nodeCount]; omega),
      closureVisit_succ, if_pos rfl]
  rw [closureVisit_succ] at reaches
  rw [closure]
  generalize (g.nodeInEdges m).foldl (g.closureEdge m g.nodes.length) ([m], []) = done at *
  have absent : m ∉ done.2 := by
    intro listed
    simpa using grows.fresh m listed
  refine ⟨⟨done.1, loops⟩, explored.once, absent, fun i => ⟨fun listed => ?_, fun path => ?_⟩, ?_⟩
  · rcases reflTransGen_iff_eq_or_transGen.mp (reaches i (explored.within listed)) with
      rfl | path
    · exact absurd listed absent
    · exact path
  · induction path using TransGen.head_induction_on with
    | single edge =>
      obtain ⟨e, he, rfl, dst⟩ := edge
      exact sources e (mem_filter.mpr ⟨he, decide_eq_true dst⟩)
    | head edge _ ih =>
      obtain ⟨e, he, rfl, rfl⟩ := edge
      exact explored.ordered _ prefix_rfl e he ih
  · intro e he listed
    -- the beginning of the list that ends with the target holds the source
    have earlier := explored.ordered _ ⟨_, take_append_drop (done.2.idxOf e.dstIdx + 1) done.2⟩
      e he ((mem_take_iff_idxOf_lt listed).mpr (Nat.lt_succ_self _))
    have source := mem_of_mem_take earlier
    rw [mem_take_iff_idxOf_lt source, Nat.lt_succ_iff] at earlier
    apply lt_of_le_of_ne earlier
    rw [Ne, idxOf_inj source]
    exact g.edge_ne hacyc he

/-- Two branches that meet again. -/
def branches : Graph where
  nodes := [{ name := "a" }, { name := "b" }, { name := "c" }, { name := "d" }]
  edges := [{ srcIdx := 0, dstIdx := 1, srcPort := "main" },
    { srcIdx := 0, dstIdx := 2, srcPort := "main" },
    { srcIdx := 1, dstIdx := 3, srcPort := "main" },
    { srcIdx := 2, dstIdx := 3, srcPort := "main" }]

theorem branches_ancestors :
  branches.cancelClosure 3 = [0, 1, 2] ∧ (branches.cancelClosure 3).Nodup ∧
    (∀ i, i ∈ branches.cancelClosure 3 ↔ TransGen branches.nodeGraph.Adj i 3) ∧
    ∀ e ∈ branches.edges, e.dstIdx ∈ branches.cancelClosure 3 →
      (branches.cancelClosure 3).idxOf e.srcIdx < (branches.cancelClosure 3).idxOf e.dstIdx
  := by
  obtain ⟨-, once, -, all, order⟩ :=
    Graph.cancelClosure_ancestors branches rfl (show 3 ∈ _ by decide)
  exact ⟨by decide, once, all, order⟩

end Xflow
