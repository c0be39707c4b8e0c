import Xflow.Lib.Chunks

/-!
# The outcome of a map node

A map node runs its body once per item.  The items are cut into batches (`mapBatches`), a batch runs
its items one after the other (`executeBatchBody`) and is committed with a verdict
(`batchResultForCommit`), and when all batches are reported the node ends with their results, or
fails if a batch did (`completeLoopSplit`).  The form with an expression evaluates the items in
place (`evalItemsInline`).

A batch all of whose items failed is a failed batch also where failures are tolerated.  So the size
of the batches decides whether a node with some failed items fails, and it does not matter only if
failures are not tolerated, no item fails, or all do (`batch_size_invisible_iff`).
-/

namespace Xflow

open List Option

namespace MapNode

variable {α V : Type}

/-! ### Batches -/

/-- `BatchItemResult`: the data of an item, or its error. -/
structure BatchItemResult (V : Type) where
  index : Nat
  data : Except String V
  timeout : Bool := false

/-- A slot of the results of a node. -/
inductive Slot (V : Type) where
  | value (v : V)
  /-- A failed item, with its error and its index. -/
  | failed (error : String) (index : Nat)
  /-- A batch that reports no items, with its error. -/
  | batch (error : Option String)
  deriving DecidableEq

/-- The result of a batch, as far as the end of the node reads it. -/
structure BatchResult (V : Type) where
  items : Option (List (Slot V)) := none
  count : Nat := 0
  failed : Nat := 0
  error : Option String := none
  timeout : Bool := false
  deriving DecidableEq

/-- The batches that `MapNode.Execute` cuts the items into. -/
def mapBatches (batchSize : Nat) (items : List α) : List (List α) := Chunks.chunk batchSize items

/-- `globalItemIndex`, for a positive batch size. -/
def globalItemIndex (batchIndex batchSize posInBatch : Nat) : Nat :=
  batchIndex * batchSize + posInBatch

/-- The loop of `ExecuteBatchBody`: it stops at an item that failed, unless failures are tolerated.
-/
def runItems (continueOnError : Bool) : List (BatchItemResult V) → List (BatchItemResult V)
  | [] => []
  | r :: rs =>
    match r.data with
    | .ok _ => r :: runItems continueOnError rs
    | .error _ => if continueOnError then r :: runItems continueOnError rs else [r]

/-- `ExecuteBatchBody`, one item after the other.  `body` is what the body makes of an item at its
index. -/
def executeBatchBody (continueOnError : Bool) (body : Nat → α → Except String V)
    (batchIndex batchSize : Nat) (items : List α) : List (BatchItemResult V) :=
  runItems continueOnError (items.mapIdx (fun pos item =>
    let index := globalItemIndex batchIndex batchSize pos
    { index := index, data := body index item }))

/-- The slot of an item. -/
def itemSlot (r : BatchItemResult V) : Slot V :=
  match r.data with
  | .ok v => .value v
  | .error e => .failed e r.index

/-- The error of an item. -/
def itemError (r : BatchItemResult V) : Option String :=
  match r.data with
  | .ok _ => none
  | .error e => some e

def batchResultData (results : List (BatchItemResult V)) : BatchResult V where
  items := some (results.map itemSlot)
  count := results.length
  failed := (results.filter (fun r => (itemError r).isSome)).length

/-- `BatchResultForCommit`: the result of a batch, and its error if it failed. -/
def batchResultForCommit (results : List (BatchItemResult V)) (continueOnError : Bool) :
    BatchResult V × Option String :=
  let data := { batchResultData results with timeout := results.any (·.timeout) }
  match results.findSome? itemError with
  | none => (data, none)
  | some first =>
    if continueOnError ∧ results.any (fun r => (itemError r).isNone) then (data, none)
    else (data, some first)

/-- `runBatchBody`, for a body that could be run. -/
def runBatchBody (continueOnError : Bool) (body : Nat → α → Except String V)
    (batchIndex batchSize : Nat) (items : List α) : BatchResult V :=
  let committed := batchResultForCommit
    (executeBatchBody continueOnError body batchIndex batchSize items) continueOnError
  match committed.2 with
  | none => committed.1
  | some e => { committed.1 with error := some e }

/-! ### The end of the node -/

/-- How a map node ended. -/
inductive Verdict (V : Type) where
  | success (results : List (Slot V)) (count : Nat)
  | failed (cause : String) (results : List (Slot V)) (count : Nat)
  /-- The execution ran into its deadline. -/
  | expired
  deriving DecidableEq

def failedBatchErrors (results : List (Option (BatchResult V))) : List String :=
  results.filterMap (fun result => result.bind (·.error))

def flattenBatchResults (results : List (Option (BatchResult V))) : List (Slot V) :=
  results.flatMap (fun result =>
    match result with
    | none => []
    | some batch => batch.items.getD [.batch batch.error])

def anyBatchTimedOut (results : List (Option (BatchResult V))) : Bool :=
  results.any (fun result => result.any (·.timeout))

/-- The cause of `failLoopSplit`. -/
def failureCause (failures : List String) (batchCount : Nat) : String :=
  toString failures.length ++ " of " ++ toString batchCount ++ " batches failed: " ++
    "; ".intercalate failures

/-- `completeLoopSplit`, up to its commit; `expires` is the answer of `expireIfLeaseTimeoutReached`.
-/
def completeLoopSplit (expires : Bool) (results : List (Option (BatchResult V))) : Verdict V :=
  if anyBatchTimedOut results ∧ expires then .expired
  else
    let flat := flattenBatchResults results
    let failures := failedBatchErrors results
    if failures ≠ [] then .failed (failureCause failures results.length) flat flat.length
    else .success flat flat.length

/-- What the batches of a node report, in their order. -/
def batchReports (continueOnError : Bool) (body : Nat → α → Except String V) (batchSize : Nat)
    (items : List α) : List (Option (BatchResult V)) :=
  (mapBatches batchSize items).mapIdx (fun k batch =>
    some (runBatchBody continueOnError body k batchSize batch))

/-- A map node with a body, from its items to its end. -/
def mapNode (expires continueOnError : Bool) (body : Nat → α → Except String V) (batchSize : Nat)
    (items : List α) : Verdict V :=
  completeLoopSplit expires (batchReports continueOnError body batchSize items)

/-- Whether the node succeeded. -/
def Verdict.succeeded : Verdict V → Bool
  | .success .. => true
  | _ => false

/-! ### The form with an expression -/

/-- The loop of `evalItemsInline`, from an index on: the results so far, the first error and whether
an item succeeded. -/
def evalItems (keepGoing : Bool) (eval : Nat → α → Except String V) :
    List α → Nat → List (Slot V) → Option String → Bool →
      Except String (List (Slot V) × Option String × Bool)
  | [], _, results, first, succeeded => .ok (results, first, succeeded)
  | item :: items, index, results, first, succeeded =>
    match eval index item with
    | .ok v => evalItems keepGoing eval items (index + 1) (results ++ [.value v]) first true
    | .error e =>
      let e := "xflow.map: item " ++ toString index ++ ": " ++ e
      let first := first.or (some e)
      if keepGoing then
        evalItems keepGoing eval items (index + 1) (results ++ [.failed e index]) first succeeded
      else .error (first.getD e)

/-- `evalItemsInline`: the results and their number. -/
def evalItemsInline (keepGoing : Bool) (eval : Nat → α → Except String V) (items : List α) :
    Except String (List (Slot V) × Nat) :=
  match evalItems keepGoing eval items 0 [] none false with
  | .error e => .error e
  | .ok (_, some first, false) => .error first
  | .ok (results, _, _) => .ok (results, results.length)

/-! ### A batch -/

variable {expires continueOnError : Bool} {body : Nat → α → Except String V}
  {rs : List (BatchItemResult V)}

/-- A batch of these items passes: none failed, or failures are tolerated and some did not fail. -/
def Passes (continueOnError : Bool) (rs : List (BatchItemResult V)) : Prop :=
  (∀ r ∈ rs, itemError r = none) ∨ continueOnError ∧ ∃ r ∈ rs, itemError r = none

theorem runItems_true (rs : List (BatchItemResult V)) :
  runItems true rs = rs
  := by
  fun_induction runItems true rs with
  | case1 => rfl
  | case2 _ _ _ _ ih | case3 _ _ _ _ _ ih => rw [ih]
  | case4 => contradiction

theorem runItems_of_all (all : ∀ r ∈ rs, itemError r = none) :
  runItems continueOnError rs = rs
  := by
  fun_induction runItems with
  | case1 => rfl
  | case2 _ _ _ _ ih => rw [ih fun r mem => all r (mem_cons_of_mem _ mem)]
  | case3 _ _ _ data | case4 _ _ _ data =>
    have none := all _ mem_cons_self
    rw [itemError, data] at none
    cases none

theorem Passes.runItems (passes : Passes continueOnError rs) :
  MapNode.runItems continueOnError rs = rs
  := by
  rcases passes with all | ⟨tolerated, -⟩
  · exact runItems_of_all all
  · rw [tolerated, runItems_true]

theorem findSome?_runItems :
  (runItems continueOnError rs).findSome? itemError = rs.findSome? itemError
  := by
  fun_induction runItems with
  | case1 => rfl
  | case2 _ _ _ data ih => simpa [itemError, data] using ih
  | case3 _ _ _ data | case4 _ _ _ data => simp [itemError, data]

theorem failure_eq_none_iff :
  (batchResultForCommit (runItems continueOnError rs) continueOnError).2 = none ↔
    Passes continueOnError rs
  := by
  rw [batchResultForCommit, findSome?_runItems]
  cases found : rs.findSome? itemError with
  | none =>
    have all : ∀ r ∈ rs, itemError r = none := findSome?_eq_none_iff.mp found
    simp only [true_iff]
    exact .inl all
  | some first =>
    have some_failed : ¬ ∀ r ∈ rs, itemError r = none := by
      rw [← findSome?_eq_none_iff, found]
      exact nofun
    cases continueOnError with
    | false => simp [Passes, some_failed]
    | true =>
      simp only [runItems_true, Passes, some_failed]
      split <;> simp_all

/-- The items of a batch, with their indices in the node. -/
def batchItems (body : Nat → α → Except String V) (batchIndex batchSize : Nat) (items : List α) :
    List (BatchItemResult V) :=
  items.mapIdx (fun pos item =>
    { index := batchIndex * batchSize + pos, data := body (batchIndex * batchSize + pos) item })

theorem runItems_sublist :
  Sublist (runItems continueOnError rs) rs
  := by
  fun_induction runItems with
  | case1 => exact .slnil
  | case2 _ _ _ _ ih | case3 _ _ _ _ _ ih => exact ih.cons_cons _
  | case4 => exact singleton_sublist.mpr mem_cons_self

variable {k n : Nat} {batch : List α} {r : BatchItemResult V}

theorem runBatchBody_spec :
  ((runBatchBody continueOnError body k n batch).error = none ↔
      Passes continueOnError (batchItems body k n batch)) ∧
    (runBatchBody continueOnError body k n batch).items
      = some ((runItems continueOnError (batchItems body k n batch)).map itemSlot) ∧
    (runBatchBody continueOnError body k n batch).timeout = false
  := by
  have quiet : (executeBatchBody continueOnError body k n batch).any (·.timeout) = false := by
    rw [List.any_eq_false]
    intro r mem
    obtain ⟨pos, inside, rfl⟩ := mem_mapIdx.mp (runItems_sublist.mem mem)
    exact Bool.false_ne_true
  have run : runItems continueOnError (batchItems body k n batch)
      = executeBatchBody continueOnError body k n batch := rfl
  rw [← failure_eq_none_iff, run, runBatchBody]
  generalize executeBatchBody continueOnError body k n batch = rs at quiet ⊢
  simp only [batchResultForCommit, quiet, batchResultData]
  cases rs.findSome? itemError with
  | none => simp
  | some first =>
    split_ifs <;> simp

/-! ### The node -/

variable {items : List α}

/-- The results of all items. -/
def allItems (body : Nat → α → Except String V) (items : List α) : List (BatchItemResult V) :=
  items.mapIdx (fun index item => { index := index, data := body index item })

/-- The results of all items, batch by batch. -/
def allBatches (body : Nat → α → Except String V) (n : Nat) (items : List α) :
    List (List (BatchItemResult V)) :=
  (mapBatches n items).mapIdx (fun k batch => batchItems body k n batch)

theorem flatten_allBatches (positive : 0 < n) :
  (allBatches body n items).flatten = allItems body items
  :=
  Chunks.flatten_mapIdx_chunk positive items
    (fun index item => ({ index := index, data := body index item } : BatchItemResult V))

theorem anyBatchTimedOut_batchReports :
  anyBatchTimedOut (batchReports continueOnError body n items) = false
  := by
  rw [anyBatchTimedOut, List.any_eq_false]
  intro report mem
  obtain ⟨k, inside, rfl⟩ := mem_mapIdx.mp mem
  simp [runBatchBody_spec]

theorem failedBatchErrors_eq_nil_iff :
  failedBatchErrors (batchReports continueOnError body n items) = [] ↔
    ∀ rs ∈ allBatches body n items, Passes continueOnError rs
  := by
  simp only [failedBatchErrors, filterMap_eq_nil_iff, batchReports, allBatches, mem_mapIdx]
  constructor
  · rintro none _ ⟨k, inside, rfl⟩
    exact runBatchBody_spec.1.mp (none _ ⟨k, inside, rfl⟩)
  · rintro pass _ ⟨k, inside, rfl⟩
    exact runBatchBody_spec.1.mpr (pass _ ⟨k, inside, rfl⟩)

theorem flattenBatchResults_of_pass (positive : 0 < n)
    (pass : ∀ rs ∈ allBatches body n items, Passes continueOnError rs) :
  flattenBatchResults (batchReports continueOnError body n items)
    = (allItems body items).map itemSlot
  := by
  rw [flattenBatchResults, flatMap_def, ← flatten_allBatches positive, map_flatten]
  congr 1
  apply ext_getElem (by simp [batchReports, allBatches])
  intro k inside _
  have mem : k < (mapBatches n items).length := by simpa [batchReports] using inside
  have passes := pass _ (mem_mapIdx.mpr ⟨k, mem, rfl⟩)
  simp only [batchReports, allBatches, getElem_map, getElem_mapIdx]
  rw [runBatchBody_spec.2.1, passes.runItems, getD_some]

theorem mapNode_of_pass (positive : 0 < n)
    (pass : ∀ rs ∈ allBatches body n items, Passes continueOnError rs) :
  mapNode expires continueOnError body n items
    = .success ((allItems body items).map itemSlot) items.length
  := by
  have length : ((allItems body items).map itemSlot).length = items.length := by
    simp [allItems]
  rw [mapNode, completeLoopSplit, anyBatchTimedOut_batchReports]
  simp only [failedBatchErrors_eq_nil_iff.mpr pass, flattenBatchResults_of_pass positive pass,
    length]
  rfl

theorem mapNode_of_not_pass (fails : ¬ ∀ rs ∈ allBatches body n items, Passes continueOnError rs) :
  (mapNode expires continueOnError body n items).succeeded = false
  := by
  rw [← failedBatchErrors_eq_nil_iff] at fails
  rw [mapNode, completeLoopSplit, anyBatchTimedOut_batchReports]
  rw [if_pos fails]
  rfl

/-! ### The size of the batches -/

/-- The item at an index failed. -/
def Fails (body : Nat → α → Except String V) (index : Nat) (item : α) : Prop :=
  ∃ e, body index item = .error e

theorem forall_mem_allItems {P : BatchItemResult V → Prop} :
  (∀ r ∈ allItems body items, P r) ↔
    ∀ i item, items[i]? = some item → P { index := i, data := body i item }
  := by
  simp only [allItems]
  grind

theorem itemError_eq_none_iff {i : Nat} {item : α} :
  itemError { index := i, data := body i item } = none ↔ ¬ Fails body i item
  := by
  rw [itemError, Fails]
  cases body i item with
  | ok v => simp
  | error e => simp

theorem all_none_iff :
  (∀ r ∈ allItems body items, itemError r = none) ↔
    ∀ i item, items[i]? = some item → ¬ Fails body i item
  := by
  simp only [forall_mem_allItems, itemError_eq_none_iff]

theorem all_failed_iff :
  (∀ r ∈ allItems body items, itemError r ≠ none) ↔
    ∀ i item, items[i]? = some item → Fails body i item
  := by
  simp only [forall_mem_allItems, ne_eq, itemError_eq_none_iff, not_not]

theorem all_pass_iff (positive : 0 < n)
    (uniform : continueOnError = false ∨ (∀ r ∈ allItems body items, itemError r = none) ∨
      ∀ r ∈ allItems body items, itemError r ≠ none) :
  (∀ rs ∈ allBatches body n items, Passes continueOnError rs) ↔
    ∀ r ∈ allItems body items, itemError r = none
  := by
  have parts := @flatten_allBatches _ _ body n items positive
  constructor
  · intro pass r mem
    obtain ⟨rs, batch, here⟩ := mem_flatten.mp (parts ▸ mem)
    rcases pass rs batch with all | ⟨tolerated, r', here', none⟩
    · exact all r here
    · have mem' : r' ∈ allItems body items := parts ▸ mem_flatten.mpr ⟨rs, batch, here'⟩
      grind
  · intro none rs batch
    exact .inl fun r here => none r (parts ▸ mem_flatten.mpr ⟨rs, batch, here⟩)

theorem evalItems_of_none {index : Nat} {results : List (Slot V)} {succeeded : Bool}
    (none : ∀ i item, items[i]? = some item → ¬ Fails body (index + i) item) :
  ∃ succeeded', evalItems continueOnError body items index results .none succeeded
    = .ok (results ++ items.mapIdx (fun i item =>
        itemSlot { index := index + i, data := body (index + i) item }), .none, succeeded')
  := by
  induction items generalizing index results succeeded with
  | nil => exact ⟨succeeded, by simp [evalItems]⟩
  | cons item items ih =>
    have head := none 0 item rfl
    cases eq : body index item with
    | error e => exact absurd ⟨e, eq⟩ head
    | ok v =>
      have rest : ∀ i item', items[i]? = some item' → ¬ Fails body (index + 1 + i) item' := by
        intro i item' found
        rw [Nat.add_assoc, Nat.add_comm 1 i]
        exact none (i + 1) item' found
      obtain ⟨succeeded', evaluated⟩ := @ih (index + 1) (results ++ [.value v]) true rest
      rw [evalItems, eq]
      dsimp only
      rw [evaluated]
      simp [itemSlot, eq, Nat.add_assoc, Nat.add_comm 1]

theorem evalItemsInline_of_none (none : ∀ i item, items[i]? = some item → ¬ Fails body i item) :
  evalItemsInline continueOnError body items
    = .ok ((allItems body items).map itemSlot, items.length)
  := by
  have start : ∀ i item, items[i]? = some item → ¬ Fails body (0 + i) item := by grind
  obtain ⟨succeeded, evaluated⟩ :=
    @evalItems_of_none _ _ continueOnError body items 0 [] false start
  have slots : items.mapIdx (fun i item =>
      itemSlot { index := 0 + i, data := body (0 + i) item })
        = (allItems body items).map itemSlot := by
    apply ext_getElem (by simp [allItems])
    simp [allItems]
  rw [evalItemsInline, evaluated, slots]
  simp [allItems]

/-- The verdict of a node and what it ends with do not depend on the size of its batches: every size
gives the same verdict, and a node that succeeds has a slot for each item, as the form with an
expression has. -/
def BatchSizeInvisible (continueOnError : Bool) (body : Nat → α → Except String V)
    (items : List α) : Prop :=
  ∀ expires n m, 0 < n → 0 < m →
    (mapNode expires continueOnError body n items).succeeded
      = (mapNode expires continueOnError body m items).succeeded ∧
    ∀ results count, mapNode expires continueOnError body n items = .success results count →
      results = (allItems body items).map itemSlot ∧ count = items.length ∧
        evalItemsInline continueOnError body items = .ok (results, count)

theorem not_pass_one (mem : r ∈ allItems body items) (failed : itemError r ≠ none) :
  ¬ ∀ rs ∈ allBatches body 1 items, Passes true rs
  := by
  intro pass
  rw [← flatten_allBatches Nat.one_pos] at mem
  obtain ⟨rs, batch, here⟩ := mem_flatten.mp mem
  have short : rs.length ≤ 1 := by
    obtain ⟨k, inside, rfl⟩ := mem_mapIdx.mp batch
    rw [batchItems, length_mapIdx]
    exact Chunks.length_le_of_mem_chunk (getElem_mem inside)
  have alone : ∀ r' ∈ rs, r' = r := by
    intro r' here'
    obtain ⟨only, rfl⟩ := length_eq_one_iff.mp
      (Nat.le_antisymm short (length_pos_of_mem here))
    rw [mem_singleton.mp here, mem_singleton.mp here']
  rcases pass rs batch with all | ⟨-, r', here', none⟩
  · exact failed (all r here)
  · exact failed (alone r' here' ▸ none)

theorem pass_all (mem : r ∈ allItems body items) (none : itemError r = none) :
  ∀ rs ∈ allBatches body items.length items, Passes true rs
  := by
  have some : items ≠ [] := by
    rintro rfl
    cases mem
  have positive : 0 < items.length := length_pos_iff.mpr some
  rw [← flatten_allBatches positive] at mem
  rw [allBatches, mapBatches, Chunks.chunk_of_length_le (Nat.le_refl _) some] at mem ⊢
  intro rs batch
  obtain rfl := mem_singleton.mp batch
  obtain ⟨rs, batch, here⟩ := mem_flatten.mp mem
  obtain rfl := mem_singleton.mp batch
  exact .inr ⟨rfl, r, here, none⟩

/-- The size of the batches of a node does not matter if and only if failures are not tolerated, or
no item fails, or all do. -/
theorem batch_size_invisible_iff :
  BatchSizeInvisible continueOnError body items ↔
    continueOnError = false ∨ (∀ i item, items[i]? = some item → ¬ Fails body i item) ∨
      ∀ i item, items[i]? = some item → Fails body i item
  := by
  rw [← all_none_iff, ← all_failed_iff]
  constructor
  · intro invisible
    by_contra mixed
    simp only [not_or, Bool.not_eq_false, not_forall, not_not] at mixed
    obtain ⟨rfl, ⟨bad, bad_mem, failed⟩, good, good_mem, ok⟩ := mixed
    have positive : 0 < items.length := by
      have := length_pos_of_mem good_mem
      rwa [allItems, length_mapIdx] at this
    obtain ⟨same, -⟩ := invisible false 1 items.length Nat.one_pos positive
    rw [mapNode_of_not_pass (not_pass_one bad_mem failed),
      mapNode_of_pass positive (pass_all good_mem ok)] at same
    cases same
  · intro uniform expires n m positive positive'
    by_cases none : ∀ r ∈ allItems body items, itemError r = none
    · have pass := (all_pass_iff positive uniform).mpr none
      have pass' := (all_pass_iff positive' uniform).mpr none
      rw [mapNode_of_pass positive pass, mapNode_of_pass positive' pass']
      refine ⟨rfl, fun results count eq => ?_⟩
      cases eq
      exact ⟨rfl, rfl, evalItemsInline_of_none (all_none_iff.mp none)⟩
    · have fails := mt (all_pass_iff positive uniform).mp none
      have fails' := mt (all_pass_iff positive' uniform).mp none
      have failed := @mapNode_of_not_pass _ _ expires _ _ _ _ fails
      have failed' := @mapNode_of_not_pass _ _ expires _ _ _ _ fails'
      refine ⟨failed.trans failed'.symm, fun results count eq => ?_⟩
      rw [eq] at failed
      cases failed

namespace Sample

/-- A body that fails on negative items. -/
def nonnegative (_ : Nat) (item : Int) : Except String Int :=
  if item < 0 then .error "negative" else .ok item

end Sample

open Sample in
/-- Failures are tolerated, and the first of two items fails.  In batches of one item the node
fails, in a batch of two it succeeds; the form with an expression succeeds. -/
theorem batch_size_decides :
  (mapNode false true nonnegative 1 [-1, 5]).succeeded = false ∧
  mapNode false true nonnegative 2 [-1, 5] = .success [.failed "negative" 0, .value 5] 2 ∧
  evalItemsInline true nonnegative [-1, 5]
    = .ok ([.failed ("xflow.map: item " ++ toString 0 ++ ": negative") 0, .value 5], 2)
  := by
  refine ⟨by decide, by decide, by rfl⟩

end MapNode

end Xflow
