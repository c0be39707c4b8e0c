import Mathlib.Data.List.Find
import Mathlib.Data.List.Sort
import Mathlib.Data.String.Basic
import Xflow.Supply.Registry

/-!
# Admission of an activation by its supplies

The gate takes the requirements of an activation in turn: it fetches each supply, applies it to the
registry and renders the digest expressions that are declared on it against what is cached by then.
An expression that reads another supply is judged before or after that one is fetched, as the list
has it.

Calls are taken one at a time here, so that no notification is in flight, and the names are those of
one namespace.
-/

namespace Xflow.Supply.Gate

open List Option Function

/-- `SupplyPullSource`. -/
structure PullSource where
  url : String
  authentication : String := ""
  deriving DecidableEq

/-- `SupplyRequirement`. -/
structure Requirement where
  node : String
  resource : String := node
  requireReady : Bool := true
  pullSource : Option PullSource := none

/-- What is cached, by the name of the supply. -/
abbrev View := String → Option Snapshot

/-- `SupplyConsumerBinding` that is a declaration; rendering may fail. -/
structure Declaration where
  supplyNode : String
  digestExpr : View → Option String

/-- A consumer, whose verdict depends on the content only, and its last outcome. -/
structure Consumer where
  accepts : String → Bool
  lastErr : Bool := false
  lastHash : String := ""

/-- The consumer is called, and its outcome recorded. -/
def Consumer.notified (snap : Snapshot) (c : Consumer) : Consumer :=
  { c with lastErr := ! c.accepts snap.hash, lastHash := snap.hash }

/-- `recordDeclaration` on what is recorded; another source of another workflow is a conflict. -/
def recordDeclaration (workflowID : String) (source : Option PullSource) :
    Option (String × Option PullSource) → Option (String × Option PullSource)
  | none => some (workflowID, source)
  | some (other, prev) =>
    if other = workflowID then some (workflowID, source)
    else if prev.map (·.url) = source.map (·.url) then some (other, prev)
    else none

theorem recordDeclaration_again {workflowID : String} {source : Option PullSource}
    {prev : Option (String × Option PullSource)} {next : String × Option PullSource}
    (h : recordDeclaration workflowID source prev = some next) :
  recordDeclaration workflowID source (some next) = some next
  := by
  revert h
  fun_cases recordDeclaration workflowID source prev <;> rintro ⟨⟩ <;> simp [recordDeclaration, *]

/-- What the gate and the registry know of a supply. -/
structure Entry where
  declared : Option (String × Option PullSource) := none
  cached : Option Snapshot := none
  consumers : List Consumer := []

namespace Entry

/-- A consumer has rejected the content, or its last outcome is about other content. -/
def unsettled (e : Entry) (hash : String) : Bool :=
  e.consumers.any fun c => c.lastErr || (c.lastHash ≠ "" && c.lastHash ≠ hash)

/-- `isReadyLocked`. -/
def isReady (e : Entry) : Bool :=
  e.cached.any fun snap => ! e.unsettled snap.hash

/-- Whether `Apply` notifies the consumers. -/
def needNotify (e : Entry) (snap : Snapshot) : Bool :=
  e.cached.all (fun prev => prev.hash ≠ snap.hash) || e.unsettled snap.hash

/-- `Apply`; reports whether no consumer rejects the content. -/
def apply (e : Entry) (snap : Snapshot) : Entry × Bool :=
  let notify := e.needNotify snap
  ({ e with
    cached := some snap
    consumers := if notify then e.consumers.map (·.notified snap) else e.consumers },
    ! notify || e.consumers.all (·.accepts snap.hash))

variable {e : Entry} {snap : Snapshot}

/-- Content is ready once it is applied unless a consumer rejects it. -/
theorem isReady_apply : (e.apply snap).1.isReady = (e.apply snap).2
  := by
  by_cases notify : e.needNotify snap
  · simp [apply, notify, isReady, unsettled, Consumer.notified, comp_def, ← not_all_eq_any_not]
  · have settled : e.unsettled snap.hash = false := by simp_all [needNotify]
    simp [apply, notify, isReady]
    exact settled

/-- Content that is applied again changes nothing. -/
theorem apply_apply : (e.apply snap).1.apply snap = e.apply snap
  := by
  have again : (e.apply snap).1.needNotify snap = ! (e.apply snap).2 := by
    rw [← isReady_apply]
    simp [needNotify, isReady, apply]
  rw [apply, again]
  by_cases notify : e.needNotify snap
  · by_cases all : e.consumers.all (·.accepts snap.hash)
    · simp_all [apply]
    · simp [apply, notify, Consumer.notified]
  · simp [apply, notify]

end Entry

/-- An activation, and the servers. -/
structure Activation where
  workflowID : String
  decls : List Declaration
  /-- What a fetch gives, by the recorded source, the node and the resource. -/
  fetch : Option PullSource → String → String → Option Snapshot
  /-- `ValidateDigest`. -/
  valid : String → Bool

namespace Activation

variable (act : Activation)

def declaresFor (supply : String) : List Declaration :=
  act.decls.filter (·.supplyNode = supply)

/-- `unresolvableDeclaration`. -/
def unresolvable (view : View) (supply : String) : Bool :=
  ((act.declaresFor supply).find? fun b =>
    (b.digestExpr view).any fun digest => ! act.valid digest).isSome

variable (view : Option Snapshot → View) (req : Requirement)

/-- A requirement whose source is recorded; `view` is the view with its new content. -/
def attend (source : Option PullSource) (e : Entry) : Entry × Bool :=
  if act.declaresFor req.node = [] ∧ e.isReady then (e, true)
  else
    match act.fetch source req.node req.resource with
    | none => (e, false)
    | some snap =>
      let (e, accepted) := e.apply snap
      (e, accepted && ! act.unresolvable (view e.cached) req.node && e.isReady)

/-- One requirement; reports whether it is met. -/
def judge (e : Entry) : Option (Entry × Bool) :=
  (recordDeclaration act.workflowID req.pullSource e.declared).map fun d =>
    act.attend view req d.2 { e with declared := some d }

/-- The loop of `AdmitWithDeclarations`; no list of missing supplies is a conflict. -/
def admitAll : List Requirement → (String → Entry) → (String → Entry) × Option (List String)
  | [], s => (s, some [])
  | req :: reqs, s =>
    match act.judge (fun cached => update (fun n => (s n).cached) req.node cached) req
        (s req.node) with
    | none => (s, none)
    | some (e, met) =>
      let (t, missing) := admitAll reqs (update s req.node e)
      (t, missing.map fun rest => if req.requireReady && ! met then req.node :: rest else rest)

/-- `AdmitWithDeclarations`; nothing missing admits the activation. -/
def admitWithDeclarations (reqs : List Requirement) (s : String → Entry) :
    (String → Entry) × Option (List String) :=
  let (t, missing) := act.admitAll reqs s
  (t, missing.map (·.insertionSort (· ≤ ·)))

/-! ### One requirement -/

/-- A requirement but for its digest expressions: what becomes of the supply, and whether it is
ready. -/
def fetched (e : Entry) : Option (Entry × Bool) :=
  (recordDeclaration act.workflowID req.pullSource e.declared).map fun d =>
    let e := { e with declared := some d }
    if act.declaresFor req.node = [] ∧ e.isReady then (e, true)
    else
      match act.fetch d.2 req.node req.resource with
      | none => (e, false)
      | some snap => e.apply snap

variable {act view req} {reqs l : List Requirement} {s : String → Entry} {e e' : Entry} {ok : Bool}

theorem judge_eq :
  act.judge view req e = (act.fetched req e).map fun r =>
    (r.1, r.2 && ! act.unresolvable (view r.1.cached) req.node)
  := by
  rw [judge, fetched, Option.map_map]
  congr 1
  funext d
  dsimp only [attend, comp_apply]
  split_ifs with fast
  · simp [unresolvable, fast.1]
  · split
    · rfl
    · rw [Entry.isReady_apply]
      grind

/-- A supply that is fetched again stays as it is. -/
theorem fetched_again (first : act.fetched req e = some (e', ok)) :
  act.fetched req e' = some (e', ok) ∧ (ok → e'.isReady)
  := by
  obtain ⟨d, recorded, eq⟩ := map_eq_some_iff.mp first
  have again := recordDeclaration_again recorded
  dsimp only at eq
  split_ifs at eq with fast
  · cases eq
    simp [fetched, again, fast]
  · split at eq
    case h_1 none =>
      cases eq
      simp [fetched, again, fast, none]
    case h_2 snap found =>
      have ready := @Entry.isReady_apply { e with declared := some d } snap
      have apply := @Entry.apply_apply { e with declared := some d } snap
      have declared : (Entry.apply { e with declared := some d } snap).1.declared = some d := rfl
      rw [eq] at ready apply declared
      obtain ⟨_, _, _⟩ := e'
      obtain rfl := declared
      refine ⟨?_, fun yes => ready.trans yes⟩
      simp only [fetched, again, Option.map_some, found, apply]
      grind

/-! ### All requirements -/

variable (act reqs s) in
/-- What becomes of a supply. -/
def taken (n : String) : Entry :=
  match reqs.find? (·.node = n) with
  | some req => ((act.fetched req (s n)).map Prod.fst).getD (s n)
  | none => s n

variable (act reqs s) in
/-- The supplies after some of the requirements were taken. -/
def mix (seen : List String) (n : String) : Entry :=
  if n ∈ seen then act.taken reqs s n else s n

variable (act reqs s) in
/-- What is cached after some of the requirements were taken. -/
def viewOf (seen : List String) : View := fun n => (act.mix reqs s seen n).cached

variable (act s) in
/-- The content of a supply is there and accepted. -/
def accepted (req : Requirement) : Bool := (act.fetched req (s req.node)).any Prod.snd

variable (act reqs s) in
/-- Whether a requirement is met when some of the requirements were taken. -/
def met (seen : List String) (req : Requirement) : Bool :=
  act.accepted s req && ! act.unresolvable (act.viewOf reqs s seen) req.node

theorem mix_congr {seen seen' : List String}
    (same : ∀ n ∈ reqs.map (·.node), n ∈ seen ↔ n ∈ seen') :
  act.mix reqs s seen = act.mix reqs s seen'
  := by
  funext n
  unfold mix
  by_cases mem : n ∈ reqs.map (·.node)
  · simp only [same n mem]
  · have other : act.taken reqs s n = s n := by
      have none : reqs.find? (·.node = n) = none := by simpa using mem
      rw [taken, none]
    simp only [other, ite_self]

theorem met_congr {seen seen' : List String}
    (same : ∀ n ∈ reqs.map (·.node), n ∈ seen ↔ n ∈ seen') :
  act.met reqs s seen req = act.met reqs s seen' req
  := by
  unfold met viewOf
  rw [mix_congr same]

section

variable (distinct : (reqs.map (·.node)).Nodup)

include distinct

theorem taken_of_mem (mem : req ∈ reqs) (first : act.fetched req (s req.node) = some (e, ok)) :
  act.taken reqs s req.node = e
  := by
  have found : reqs.find? (·.node = req.node) = some req := by
    obtain ⟨u, v, rfl⟩ := append_of_mem mem
    rw [map_append, map_cons, nodup_append] at distinct
    refine find?_eq_some_iff_append.mpr ⟨by simp, u, v, rfl, fun r mem => ?_⟩
    simpa using distinct.2.2 r.node (mem_map_of_mem mem) req.node mem_cons_self
  rw [taken, found]
  simp [first]

/-- The loop, from a state in which some supplies were taken. -/
theorem admitAll_mix {met : Requirement → Bool} {seen : List String} (sub : l ⊆ reqs)
    (nodup : (l.map (·.node)).Nodup) (free : ∀ req ∈ l, act.fetched req (s req.node) ≠ none)
    (unseen : ∀ req ∈ l, req.node ∉ seen)
    (judged : ∀ l₁ req l₂, l = l₁ ++ req :: l₂ → req.requireReady →
      met req = act.met reqs s (req.node :: (l₁.map (·.node) ++ seen)) req) :
  act.admitAll l (act.mix reqs s seen) = (act.mix reqs s (l.map (·.node) ++ seen),
    some ((l.filter fun req => req.requireReady && ! met req).map (·.node)))
  := by
  induction l generalizing seen with
  | nil => rfl
  | cons req l ih =>
    obtain ⟨new, nodup⟩ := nodup_cons.mp nodup
    obtain ⟨⟨e, ok⟩, first⟩ := ne_none_iff_exists'.mp (free req mem_cons_self)
    have here : act.mix reqs s seen req.node = s req.node := if_neg (unseen req mem_cons_self)
    have next : update (act.mix reqs s seen) req.node e = act.mix reqs s (req.node :: seen) := by
      funext n
      by_cases eq : n = req.node
      · simp [eq, mix, taken_of_mem distinct (sub mem_cons_self) first]
      · simp [eq, mix]
    have view : update (fun n => (act.mix reqs s seen n).cached) req.node e.cached
        = act.viewOf reqs s (req.node :: seen) := by
      unfold viewOf
      rw [← next]
      funext n
      by_cases eq : n = req.node <;> simp [eq]
    have rest := @ih (req.node :: seen) (fun r mem => sub (.tail _ mem)) nodup
      (fun r mem => free r (.tail _ mem)) (by
        intro r mem
        rw [mem_cons, not_or]
        exact ⟨fun same => new (mem_map.mpr ⟨r, mem, same⟩), unseen r (.tail _ mem)⟩) (by
        intro l₁ r l₂ eq required
        rw [judged (req :: l₁) r l₂ (by rw [eq]; rfl) required]
        apply met_congr
        simp [or_left_comm])
    have all : act.mix reqs s (l.map (·.node) ++ req.node :: seen)
        = act.mix reqs s ((req :: l).map (·.node) ++ seen) := mix_congr (by simp [or_left_comm])
    rw [admitAll, judge_eq, here, first]
    simp only [Option.map_some, next, rest, all, view]
    refine Prod.ext rfl (congrArg some ?_)
    cases required : req.requireReady
    · simp [required]
    · have own := judged [] req l rfl required
      simp only [Activation.met, accepted, first, any_some, map_nil, nil_append] at own
      rw [← own, filter_cons, required, Bool.true_and]
      split <;> rfl

omit distinct in
/-- A conflict is found in every order, and again. -/
theorem admitAll_conflict (nodup : (l.map (·.node)).Nodup) (mem : req ∈ l)
    (conflict : act.fetched req (s req.node) = none) :
  (act.admitAll l s).2 = none ∧ (act.admitAll l s).1 req.node = s req.node
  := by
  induction l generalizing s with
  | nil => cases mem
  | cons r l ih =>
    obtain ⟨new, nodup⟩ := nodup_cons.mp nodup
    rw [admitAll, judge_eq]
    cases first : act.fetched r (s r.node) with
    | none => exact ⟨rfl, rfl⟩
    | some result =>
      rcases mem_cons.mp mem with rfl | mem
      · simp [first] at conflict
      · have other : req.node ≠ r.node := fun same => new (mem_map.mpr ⟨req, mem, same⟩)
        have kept : update s r.node result.1 req.node = s req.node := update_of_ne other ..
        obtain ⟨none, same⟩ := @ih (update s r.node result.1) nodup mem (by rwa [kept])
        exact ⟨congrArg (Option.map _) none, same.trans kept⟩

variable (free : ∀ req ∈ reqs, act.fetched req (s req.node) ≠ none)

include free

/-- The call in some order of the requirements, without a conflict. -/
theorem admit_perm {met : Requirement → Bool} (perm : l.Perm reqs)
    (judged : ∀ l₁ req l₂, l = l₁ ++ req :: l₂ → req.requireReady →
      met req = act.met reqs s (req.node :: l₁.map (·.node)) req) :
  act.admitWithDeclarations l s = (act.mix reqs s (reqs.map (·.node)),
    some (((reqs.filter fun req => req.requireReady && ! met req).map (·.node)).insertionSort
      (· ≤ ·)))
  := by
  have start : act.mix reqs s [] = s := funext fun n => if_neg not_mem_nil
  have run := @admitAll_mix act reqs l s distinct met [] perm.subset
    ((perm.map _).nodup_iff.mpr distinct) (fun req mem => free req (perm.subset mem)) (by simp)
    (by simpa using judged)
  rw [start, append_nil, mix_congr fun n _ => (perm.map _).mem_iff] at run
  rw [admitWithDeclarations, run]
  refine Prod.ext rfl (congrArg some (Perm.eq_of_pairwise (fun _ _ _ _ => le_antisymm)
    (pairwise_insertionSort ..) (pairwise_insertionSort ..) ?_))
  apply (perm_insertionSort ..).trans
  exact ((perm.filter _).map _).trans (perm_insertionSort ..).symm

/-- A supply that was taken, and would be found as it is. -/
theorem mix_all (mem : req ∈ reqs) :
  ∃ ok, act.fetched req (s req.node) = some (act.mix reqs s (reqs.map (·.node)) req.node, ok) ∧
    act.fetched req (act.mix reqs s (reqs.map (·.node)) req.node)
      = some (act.mix reqs s (reqs.map (·.node)) req.node, ok) ∧
    (ok → (act.mix reqs s (reqs.map (·.node)) req.node).isReady)
  := by
  obtain ⟨⟨e, ok⟩, first⟩ := ne_none_iff_exists'.mp (free req mem)
  have here : act.mix reqs s (reqs.map (·.node)) req.node = e :=
    (if_pos (mem_map_of_mem mem)).trans (taken_of_mem distinct mem first)
  rw [here]
  exact ⟨ok, first, fetched_again first⟩

/-- A second call finds everything as the first one left it. -/
theorem met_again (mem : req ∈ reqs) (seen : List String) :
  act.met reqs (act.mix reqs s (reqs.map (·.node))) seen req
    = act.met reqs s (reqs.map (·.node)) req
  := by
  have same : act.mix reqs (act.mix reqs s (reqs.map (·.node))) seen
      = act.mix reqs s (reqs.map (·.node)) := by
    funext n
    rw [mix, ite_eq_right_iff]
    intro _
    unfold taken
    split
    · rename_i r found
      obtain rfl : r.node = n := by simpa using find?_some found
      obtain ⟨ok, -, again, -⟩ := mix_all distinct free (mem_of_find?_eq_some found)
      simp [again]
    · rfl
  obtain ⟨ok, first, again, -⟩ := mix_all distinct free mem
  unfold met viewOf
  rw [same]
  simp only [accepted, first, again]

/-- A required supply is missing exactly if it is not met where it stands. -/
theorem missing_iff {l₁ l₂ : List Requirement} (perm : (l₁ ++ req :: l₂).Perm reqs)
    (required : req.requireReady) :
  ∃ missing, (act.admitWithDeclarations (l₁ ++ req :: l₂) s).2 = some missing ∧
    (req.node ∈ missing ↔ act.met reqs s (req.node :: l₁.map (·.node)) req = false)
  := by
  let before (r : Requirement) := ((l₁ ++ req :: l₂).takeWhile (·.node ≠ r.node)).map (·.node)
  have here (u : List Requirement) (r v) (eq : l₁ ++ req :: l₂ = u ++ r :: v) :
      before r = u.map (·.node) := by
    have nodup := (perm.map (·.node)).nodup_iff.mpr distinct
    rw [eq, map_append, map_cons, nodup_append] at nodup
    simp only [before, eq]
    rw [takeWhile_append_of_pos, takeWhile_cons_of_neg (by simp), append_nil]
    intro x mem
    simpa using nodup.2.2 x.node (mem_map_of_mem mem) r.node mem_cons_self
  refine ⟨_, congrArg Prod.snd (@admit_perm act reqs _ s distinct free
    (fun r => act.met reqs s (r.node :: before r) r) perm fun u r v eq _ => by rw [here u r v eq]),
    ?_⟩
  rw [mem_insertionSort, ← here l₁ req l₂ rfl]
  simp only [List.mem_map, mem_filter, Bool.and_eq_true, Bool.not_eq_true']
  constructor
  · rintro ⟨r, ⟨mem, -, missed⟩, same⟩
    obtain rfl := inj_on_of_nodup_map distinct mem (perm.subset (by simp)) same
    exact missed
  · exact fun missed => ⟨req, ⟨perm.subset (by simp), required, missed⟩, rfl⟩

end

variable (act reqs s) in
/-- Unless the activation is in conflict anyway, the digest expressions on a required supply whose
content is accepted are judged alike whichever other supplies were taken before. -/
def Steady : Prop :=
  (∀ req ∈ reqs, act.fetched req (s req.node) ≠ none) →
    ∀ req ∈ reqs, req.requireReady → act.accepted s req → ∀ seen,
      act.unresolvable (act.viewOf reqs s (req.node :: seen)) req.node
        = act.unresolvable (act.viewOf reqs s (reqs.map (·.node))) req.node

theorem steady_of_orders (distinct : (reqs.map (·.node)).Nodup)
    (free : ∀ req ∈ reqs, act.fetched req (s req.node) ≠ none)
    (orders : ∀ reqs', reqs'.Perm reqs →
      (act.admitWithDeclarations reqs' s).2 = (act.admitWithDeclarations reqs s).2) :
  act.Steady reqs s
  := by
  -- the requirement comes after those seen, or last
  intro _ req mem required ready seen
  obtain ⟨u, v, eq⟩ := append_of_mem mem
  have before : act.met reqs s (req.node :: ((u ++ v).filter (·.node ∈ seen)).map (·.node)) req
      = act.met reqs s (req.node :: seen) req := met_congr (by rw [eq]; grind)
  have all : act.met reqs s (req.node :: (u ++ v).map (·.node)) req
      = act.met reqs s (reqs.map (·.node)) req := met_congr (by rw [eq]; grind)
  have late : ((u ++ v) ++ [req]).Perm reqs := by
    rw [eq]
    exact (perm_append_singleton ..).trans perm_middle.symm
  have early : ((u ++ v).filter (·.node ∈ seen) ++
      req :: (u ++ v).filter fun r => ! decide (r.node ∈ seen)).Perm reqs := by
    rw [eq]
    exact perm_middle.trans (((filter_append_perm _ _).cons req).trans perm_middle.symm)
  obtain ⟨_, first, one⟩ := missing_iff distinct free early required
  obtain ⟨_, second, two⟩ := missing_iff distinct free late required
  obtain rfl := some.inj (first.symm.trans ((orders _ early).trans
    ((orders _ late).symm.trans second)))
  rw [before] at one
  rw [all] at two
  simpa [met, ready] using one.symm.trans two

/-- The verdict is the same in every order of the requirements and at the second call, and an
activation that is admitted finds its required supplies ready and its digests valid, exactly if the
digest expressions do not depend on what was taken before. -/
theorem admission_order_free (distinct : (reqs.map (·.node)).Nodup) :
  ((∀ reqs', reqs'.Perm reqs →
    (act.admitWithDeclarations reqs' s).2 = (act.admitWithDeclarations reqs s).2) ∧
    (act.admitWithDeclarations reqs (act.admitWithDeclarations reqs s).1).2
      = (act.admitWithDeclarations reqs s).2 ∧
    ((act.admitWithDeclarations reqs s).2 = some [] → ∀ req ∈ reqs, req.requireReady →
      ((act.admitWithDeclarations reqs s).1 req.node).isReady ∧
        ∀ b ∈ act.declaresFor req.node,
          ∀ digest ∈ b.digestExpr fun n => ((act.admitWithDeclarations reqs s).1 n).cached,
            act.valid digest)) ↔
  act.Steady reqs s
  := by
  by_cases free : ∀ req ∈ reqs, act.fetched req (s req.node) ≠ none
  case neg =>
    push Not at free
    obtain ⟨req, mem, conflict⟩ := free
    have first := admitAll_conflict distinct mem conflict
    have none {l : List Requirement} (perm : l.Perm reqs) :
        (act.admitWithDeclarations l s).2 = none := congrArg (Option.map _)
      (admitAll_conflict ((perm.map _).nodup_iff.mpr distinct) (perm.mem_iff.mpr mem) conflict).1
    refine iff_of_true ⟨fun _ perm => (none perm).trans (none .rfl).symm, ?_, ?_⟩ fun free =>
      absurd conflict (free req mem)
    · rw [none .rfl]
      exact congrArg (Option.map _) (admitAll_conflict distinct mem (by
        rw [show (act.admitWithDeclarations reqs s).1 = (act.admitAll reqs s).1 from rfl, first.2]
        exact conflict)).1
    · rw [none .rfl]
      exact nofun
  case pos =>
  constructor
  case mpr =>
    intro steady
    let met := act.met reqs s (reqs.map (·.node))
    have judged {req : Requirement} (mem : req ∈ reqs) (required : req.requireReady)
        (seen : List String) : met req = act.met reqs s (req.node :: seen) req := by
      cases ready : act.accepted s req
      · simp [met, Activation.met, ready]
      · simp [met, Activation.met, ready, steady free req mem required ready seen]
    have order {l : List Requirement} (perm : l.Perm reqs) := admit_perm distinct free perm
      fun l₁ req l₂ eq required => judged (perm.subset (by simp [eq])) required (l₁.map (·.node))
    have again := @admit_perm act reqs reqs _ distinct (fun req mem => by
      obtain ⟨ok, -, again, -⟩ := mix_all distinct free mem
      rw [again]
      exact nofun) met .rfl fun l₁ req l₂ eq _ => (met_again distinct free (by simp [eq]) _).symm
    refine ⟨fun _ perm => by rw [order perm, order .rfl], ?_, ?_⟩
    · rw [order .rfl, again]
    · rw [order .rfl]
      intro admitted req mem required
      have none := (some.inj admitted ▸ perm_insertionSort (· ≤ ·) _).symm.eq_nil
      have fine := filter_eq_nil_iff.mp (map_eq_nil_iff.mp none) req mem
      obtain ⟨ok, first, -, ready⟩ := mix_all distinct free mem
      have fine : met req = true := by simpa [required] using fine
      simp only [met, Activation.met, accepted, first, any_some, Bool.and_eq_true,
        Bool.not_eq_true', unresolvable, isSome_eq_false_iff, isNone_iff_eq_none,
        find?_eq_none] at fine
      refine ⟨ready fine.1, fun b declared digest rendered => ?_⟩
      have := fine.2 b declared
      unfold viewOf at this
      simp_all
  case mp => exact fun ⟨orders, _⟩ => steady_of_orders distinct free orders

/-- Digest expressions that read only the supply that they are declared on are judged alike. -/
theorem steady_of_local (reads : ∀ b ∈ act.decls, ∀ v w : View, v b.supplyNode = w b.supplyNode →
    b.digestExpr v = b.digestExpr w) :
  act.Steady reqs s
  := by
  rintro - req mem - - seen
  refine congrArg isSome (find?_congr fun b declares => ?_)
  obtain ⟨declared, same⟩ : b ∈ act.decls ∧ b.supplyNode = req.node := by
    simpa [declaresFor] using declares
  have there : req.node ∈ reqs.map (·.node) := mem_map_of_mem mem
  rw [reads b declared _ (act.viewOf reqs s (reqs.map (·.node)))
    (by simp [viewOf, mix, same, there])]

/-- The digest of a node that is declared on `a` is published by `supply`. -/
def Sample.pointer (supply : String) : Activation where
  workflowID := "w"
  decls := [⟨"a", fun view => some ((view supply).elim "" (·.hash))⟩]
  fetch _ _ _ := some { hash := "digest" }
  valid digest := digest = "digest"

def Sample.both : List Requirement := [{ node := "a" }, { node := "b" }]

/-- A pointer that `a` itself publishes. -/
theorem own_pointer_order_free :
  ((Sample.pointer "a").admitWithDeclarations Sample.both.reverse fun _ => {}).2
    = ((Sample.pointer "a").admitWithDeclarations Sample.both fun _ => {}).2
  := by
  refine ((admission_order_free (by decide)).mpr (steady_of_local ?_)).1 _ (reverse_perm _)
  simp +contextual [Sample.pointer]

/-- A pointer that `b` publishes is not there when `a` comes first, and is at the second call. -/
theorem other_pointer_order :
  ∃ (act : Activation) (reqs reqs' : List Requirement), (reqs.map (·.node)).Nodup ∧
    reqs'.Perm reqs ∧ ∃ s,
      (act.admitWithDeclarations reqs' s).2 ≠ (act.admitWithDeclarations reqs s).2 ∧
      (act.admitWithDeclarations reqs (act.admitWithDeclarations reqs s).1).2
        ≠ (act.admitWithDeclarations reqs s).2
  :=
  ⟨Sample.pointer "b", Sample.both, Sample.both.reverse, by decide, reverse_perm _, fun _ => {},
    by decide, by decide⟩

end Activation

end Xflow.Supply.Gate
