import Xflow.Directory.Records

/-!
# The queues of the runner directory

An assignment waits in the legacy queue, in the queue of the lane of its node type, or in both.  The
write mode says which, and a marker remembers it for when the assignment is put back.  The empty
lane name is the legacy queue.
-/

namespace Xflow.Directory

open Control List

/-! ### Lanes -/

inductive LaneWriteMode where
  | legacyOnly
  | dual
  | laneOnly
  | unrecognized
  deriving DecidableEq

/-- The configuration of a directory. -/
structure Config where
  lanes : List String := []
  laneWriteMode : LaneWriteMode := .legacyOnly
  selector : SelectorPolicy := {}
  controlReceiptRetention : Int := 0
  drainObservationFreshness : Int := 0
  drainDeadline : Int := 0
  deriving DecidableEq

namespace Config

variable (cfg : Config)

/-- `resolveLaneWriteMode`. -/
def writeMode : LaneWriteMode :=
  match cfg.laneWriteMode with
  | .dual => if cfg.lanes = [] then .legacyOnly else .dual
  | .laneOnly => if cfg.lanes = [] then .legacyOnly else .laneOnly
  | _ => .legacyOnly

/-- `resolveLanePlacement`: the queues that an assignment is written to, and its marker if it has
one. -/
def placement (nodeType : String) : List String × Option String :=
  if cfg.lanes = [] then ([""], none)
  else if nodeType ∈ cfg.lanes then
    match cfg.writeMode with
    | .dual => ([nodeType, ""], some nodeType)
    | .laneOnly => ([nodeType], some nodeType)
    | _ => ([""], none)
  else
    match cfg.writeMode with
    | .legacyOnly => ([""], none)
    | _ => ([""], some "")

/-- `memoryLaneServes`. -/
def serves (lane : String) : Bool :=
  lane = "" ∨ lane ∈ cfg.lanes

/-- `memoryQueueTargets`. -/
def targets (capabilities : List Capability) : List String :=
  cfg.lanes.filter (fun lane => canRunRouting capabilities lane 0) ++ [""]

end Config

/-- `selectorGraceElapsed`.  An assignment without a stamp has not waited. -/
def selectorGraceElapsed (policy : SelectorPolicy) (sel : Option RunnerSelector)
    (queuedAt : Option Int) (now : Int) : Bool :=
  selectorIsDefault sel && queuedAt.any (fun start => policy.selectorEffectiveGrace ≤ now - start)

/-! ### Queues -/

/-- The fields of `MemoryRunnerDirectory` that say what waits where. -/
structure Queues where
  queue : List Assignment := []
  laneQueues : Table String (List Assignment) := ∅
  laneMarkers : Table AssignmentID String := ∅
  queuedAt : Table AssignmentID Int := ∅

namespace Queues

variable (qs : Queues)

/-- `memoryQueueLocked`. -/
def lane (name : String) : List Assignment :=
  if name = "" then qs.queue else (qs.laneQueues.get name).getD []

/-- `setMemoryQueueLocked`. -/
def setLane (name : String) (queue : List Assignment) : Queues :=
  if name = "" then { qs with queue := queue }
  else { qs with laneQueues := qs.laneQueues.put name queue }

/-- `removeFromMemoryQueueLocked`. -/
def removeFrom (id : AssignmentID) (name : String) : Queues :=
  qs.setLane name ((qs.lane name).filter (·.assignmentID ≠ id))

/-- `memoryLaneClearLocked`. -/
def clear (cfg : Config) (id : AssignmentID) : Queues :=
  ("" :: cfg.lanes).foldl (fun qs name => qs.removeFrom id name) qs

/-- `removeQueuedAssignmentLocked`. -/
def remove (cfg : Config) (id : AssignmentID) : Queues :=
  let cleared := qs.clear cfg id
  { cleared with
    laneMarkers := cleared.laneMarkers.drop id
    queuedAt := cleared.queuedAt.drop id }

/-- `memoryLanePushLocked`. -/
def push (cfg : Config) (now : Int) (assignment : Assignment) : Queues :=
  let id := assignment.assignmentID
  let cleared := qs.clear cfg id
  let mode := cfg.writeMode
  let target :=
    if mode = .legacyOnly then ""
    else ((cleared.laneMarkers.get id).filter cfg.serves).getD ""
  let placed := cleared.setLane target (assignment :: cleared.lane target)
  let copied :=
    if mode = .dual ∧ target ≠ "" then placed.setLane "" (assignment :: placed.queue) else placed
  { copied with
    queuedAt := copied.queuedAt.put id now
    laneMarkers :=
      if mode = .legacyOnly then copied.laneMarkers.drop id else copied.laneMarkers.put id target }

/-- The placement of an assignment that `EnqueueAssignment` admits. -/
def place (cfg : Config) (now : Int) (assignment : Assignment) : Queues :=
  let id := assignment.assignmentID
  let placement := cfg.placement assignment.routing.nodeType
  let placed := placement.1.foldl (fun qs name => qs.setLane name (qs.lane name ++ [assignment]))
    (qs.clear cfg id)
  { placed with
    queuedAt := placed.queuedAt.put id now
    laneMarkers :=
      match placement.2 with
      | some marker => placed.laneMarkers.put id marker
      | none => placed.laneMarkers.drop id }

/-- The assignment is in a queue. -/
def holds (cfg : Config) (id : AssignmentID) : Bool :=
  ("" :: cfg.lanes).any (fun name => (qs.lane name).any (·.assignmentID = id))

/-- The first assignment that satisfies `p` in the queues of some lanes, with its lane. -/
def first (names : List String) (p : Assignment → Bool) : Option (String × Assignment) :=
  names.findSome? (fun name => ((qs.lane name).find? p).map (fun assignment => (name, assignment)))

/-- The queues without the first assignment of a lane that satisfies `p`. -/
def take (name : String) (p : Assignment → Bool) (id : AssignmentID) : Queues :=
  let taken := qs.setLane name ((qs.lane name).eraseP p)
  { taken with queuedAt := taken.queuedAt.drop id }

/-- The queues after one entry of a lane was taken, and no other. -/
structure Taken (name : String) (assignment : Assignment) (after : Queues) : Prop where
  entry : ∃ l r, qs.lane name = l ++ assignment :: r ∧ after.lane name = l ++ r
  others : ∀ other ≠ name, after.lane other = qs.lane other

variable {qs} {names : List String} {p : Assignment → Bool} {name : String}
  {assignment : Assignment}

theorem find_of_first (found : qs.first names p = some (name, assignment)) :
  name ∈ names ∧ (qs.lane name).find? p = some assignment
  := by
  obtain ⟨before, here, after, rfl, hit, -⟩ := findSome?_eq_some_iff.mp found
  obtain ⟨head, first, eq⟩ := Option.map_eq_some_iff.mp hit
  cases eq
  exact ⟨by simp, first⟩

theorem lane_setLane (other : String) (queue : List Assignment) :
  (qs.setLane name queue).lane other = if other = name then queue else qs.lane other
  := by
  unfold setLane lane
  grind

theorem taken_take (found : (qs.lane name).find? p = some assignment) (id : AssignmentID) :
  qs.Taken name assignment (qs.take name p id)
  := by
  have lanes (other : String) : (qs.take name p id).lane other =
      if other = name then (qs.lane name).eraseP p else qs.lane other := lane_setLane other _
  constructor
  case entry =>
    obtain ⟨hit, l, r, eq, miss⟩ := find?_eq_some_iff_append.mp found
    refine ⟨l, r, eq, ?_⟩
    rw [lanes, if_pos rfl, eq, eraseP_append_right _ (by simpa using miss),
      eraseP_cons_of_pos hit]
  case others => exact fun other ne => (lanes other).trans (if_neg ne)

end Queues

theorem Config.mem_of_mem_targets {cfg : Config} {capabilities : List Capability} {name : String}
    (mem : name ∈ cfg.targets capabilities) :
  name ∈ "" :: cfg.lanes
  := by
  obtain lane | legacy := mem_append.mp mem
  · exact mem_cons_of_mem _ (mem_of_mem_filter lane)
  · rw [mem_singleton] at legacy
    simp [legacy]

end Xflow.Directory
