import Xflow.Lib.Run
import Xflow.Lib.Table

/-!
# Resolving the engine of a module

The reactor host seen by one module, whose digest is the key of `engines`, `compiling` and
`sourceDriven`.  Each section under the host lock is one step of a resolution, and so is the write
of `configFromSource` that follows the section.  Engines are numbered in the order of their
creation.  An engine leaves the map in a reclaim pass only, which marks it as reclaimed; what was
compiled for it is closed later (`Wasm`).
-/

namespace Xflow.Supply

open Option Table Transition

/-- Where a resolution stands.  The empty code is the one of `engineForBytes`. -/
inductive Phase where
  /-- Before the lookup by digest of `engineForSource`. -/
  | source (code : String)
  /-- Before the lookup in the code cache of `engineForCode`. -/
  | code (code : String)
  /-- In the loop of `engineForKey`. -/
  | key (code : String)
  /-- The one that compiles the module. -/
  | building (code : String)
  /-- The engine is published, the claim to compile is not yet released. -/
  | built (e : Nat) (code : String)
  /-- Before `publishEngine`. -/
  | publish (e : Nat) (code : String)
  /-- Read under the lock that the module is source-driven, before the write of the flag. -/
  | store (e : Nat)
  | returned (e : Nat)
  | failed
  deriving DecidableEq

/-- Whether a resolution holds the claim to compile the module. -/
def Phase.claims : Phase → Bool
  | .building _ | .built _ _ => true
  | _ => false

inductive Entry where
  | engineForSource (code : String)
  | engineForCode (code : String)
  | engineForBytes

def Entry.phase : Entry → Phase
  | .engineForSource code => .source code
  | .engineForCode code => .code code
  | .engineForBytes => .key ""

/-- A resolution, and whether it began after the seed had returned. -/
structure Resolution where
  phase : Phase
  late : Bool

structure Host where
  engine : Option Nat := none
  codeCache : Table String Nat := ∅
  sourceDriven : Bool := false
  compiling : Bool := false
  configFromSource : Nat → Bool := fun _ => false
  created : Nat := 0
  resolutions : Table Nat Resolution := ∅

namespace Host

/-- What a caller does with an engine after a section that reads `sourceDriven`. -/
def resolve (s : Host) (e : Nat) : Phase :=
  if s.sourceDriven then .store e else .returned e

def setFlag (s : Host) (e : Nat) : Host :=
  { s with configFromSource := fun e' => if e' = e then true else s.configFromSource e' }

/-- The next step of a resolution; `builds` tells whether a build succeeds.  A resolution that waits
for the build of another one has none. -/
def advance (s : Host) (builds : Bool) : Phase → Option (Host × Phase)
  | .source code =>
    match s.engine with
    | some e => some (s, s.resolve e)
    | none => some (s, .code code)
  | .code code =>
    match s.codeCache.get code with
    | some e => some (s, .returned e)
    | none => some (s, .key code)
  | .key code =>
    match s.engine with
    | some e => some (s, .publish e code)
    | none => if s.compiling then none else some ({ s with compiling := true }, .building code)
  | .building code =>
    if builds then
      some ({ s with engine := some s.created, created := s.created + 1 }, .built s.created code)
    else some ({ s with compiling := false }, .failed)
  | .built e code => some ({ s with compiling := false }, .publish e code)
  | .publish e code =>
    some ({ s with codeCache := if code = "" then s.codeCache else s.codeCache.put code e },
      s.resolve e)
  | .store e => some (s.setFlag e, .returned e)
  | .returned _ => none
  | .failed => none

inductive Action where
  | enter (i : Nat) (entry : Entry)
  | advance (i : Nat) (builds : Bool)
  | seedSourceDrivenByKey
  | evict (code : String)
  | reclaimIdleEngines

def flipEngineLocked (s : Host) : Host :=
  match s.engine with
  | some e => s.setFlag e
  | none => s

def step : Action → Host → Option Host
  | .enter i entry, s =>
    if s.resolutions.get i = none then
      some { s with resolutions := s.resolutions.put i ⟨entry.phase, s.sourceDriven⟩ }
    else none
  | .advance i builds, s => do
    let r ← s.resolutions.get i
    let (t, phase) ← s.advance builds r.phase
    some { t with resolutions := s.resolutions.put i ⟨phase, r.late⟩ }
  | .seedSourceDrivenByKey, s => some { s with sourceDriven := true }.flipEngineLocked
  | .evict code, s => some { s with codeCache := s.codeCache.drop code }
  | .reclaimIdleEngines, s => some { s with engine := none, codeCache := ∅ }

/-- Some resolution has yet to write the flag of `e`. -/
def storing (s : Host) (e : Nat) : Bool :=
  s.resolutions.any fun _ r => r.phase = .store e

def phase (s : Host) (i : Nat) : Option Phase :=
  (s.resolutions.get i).map (·.phase)

/-- The lookup of a resolution that began after the seed does not hit an engine whose flag is yet to
be written.  Before the seed only the current engine enters the code cache, or one with the flag. -/
def Orderly (s : Host) (r : Resolution) : Prop :=
  match r.phase with
  | .code code => r.late → ∀ e ∈ s.codeCache.get code, s.storing e → s.configFromSource e
  | .publish e code => code = "" ∨ s.engine = some e ∨ s.sourceDriven ∨ s.configFromSource e
  | _ => True

instance (s : Host) (r : Resolution) : Decidable (s.Orderly r) := by
  unfold Orderly
  split <;> infer_instance

def InTurn : Action → Host → Prop
  | .advance i _, s => ∀ r ∈ s.resolutions.get i, s.Orderly r
  | _, _ => True

instance (a : Action) (s : Host) : Decidable (InTurn a s) := by
  cases a <;> unfold InTurn <;> infer_instance

/-- One resolution at most compiles, while there is no engine. -/
structure Claimed (s : Host) : Prop where
  claim : ∀ i r, s.resolutions.get i = some r → r.phase.claims → s.compiling
  sole : ∀ i j r r', s.resolutions.get i = some r → s.resolutions.get j = some r' →
    r.phase.claims → r'.phase.claims → i = j
  absent : ∀ i r code, s.resolutions.get i = some r → r.phase = .building code → s.engine = none

/-- Engines of the code cache are current or have the flag, which follows the seed, and late
resolutions return engines with the flag set. -/
structure Settled (s : Host) : Prop where
  claimed : s.Claimed
  current : s.sourceDriven = false → ∀ code e, s.codeCache.get code = some e →
    s.engine = some e ∨ s.configFromSource e
  flagged : s.sourceDriven → ∀ code e, s.codeCache.get code = some e →
    s.configFromSource e ∨ ∃ i r, s.resolutions.get i = some r ∧ r.phase = .store e
  late : ∀ i r, s.resolutions.get i = some r → r.late → s.sourceDriven
  returned : ∀ i r e, s.resolutions.get i = some r → r.late → r.phase = .returned e →
    s.configFromSource e

theorem claimed_empty : Claimed {} := by
  constructor <;> simp

theorem kept (s : Host) (i : Nat) (r : Resolution) (j : Nat) (r' : Resolution)
    (there : s.resolutions.get j = some r') (ne : j ≠ i) :
  (s.resolutions.put i r).get j = some r'
  := by
  rwa [get_put_ne _ ne]

theorem step_advance {s t : Host} {i : Nat} {builds : Bool}
    (next : step (.advance i builds) s = some t) :
  ∃ r u phase, s.resolutions.get i = some r ∧ s.advance builds r.phase = some (u, phase) ∧
    t = { u with resolutions := s.resolutions.put i ⟨phase, r.late⟩ }
  := by
  obtain ⟨r, found, rest⟩ := bind_eq_some_iff.mp next
  obtain ⟨⟨u, phase⟩, move, last⟩ := bind_eq_some_iff.mp rest
  exact ⟨r, u, phase, found, move, (some.inj last).symm⟩

theorem Claimed.step {s t : Host} {a : Action} (claimed : s.Claimed) (next : step a s = some t) :
  t.Claimed
  := by
  obtain ⟨claim, sole, absent⟩ := claimed
  cases a with
  | advance i builds =>
    obtain ⟨r, u, phase, found, move, rfl⟩ := step_advance next
    cases now : r.phase <;> rw [now] at move <;>
      constructor <;> grind -ring -linarith [Host.advance, resolve, setFlag, Phase.claims]
  | enter i entry =>
    obtain ⟨fresh, rfl⟩ := ite_none_right_eq_some.mp next |>.imp_right some.inj
    cases entry <;> constructor <;> grind -ring -linarith [Entry.phase, Phase.claims]
  | _ => constructor <;> grind -ring -linarith [Host.step, flipEngineLocked, setFlag]

theorem Settled.advance {s t : Host} {i : Nat} {builds : Bool} (settled : s.Settled)
    (turn : InTurn (.advance i builds) s) (next : step (.advance i builds) s = some t) :
  t.Settled
  := by
  have done := settled.claimed.step next
  obtain ⟨r, u, phase, found, move, rfl⟩ := step_advance next
  replace turn : s.Orderly r := turn r found
  obtain ⟨⟨-, -, absent⟩, current, flagged, late, returned⟩ := settled
  have other := s.kept i ⟨phase, r.late⟩
  cases now : r.phase with
  | code code =>
    simp only [Orderly, now, storing, any_iff, decide_eq_true_eq] at turn
    constructor <;> grind -ring -linarith [Host.advance]
  | publish e code =>
    -- the resolution is itself the one that has yet to write the flag
    have self : (s.resolutions.put i ⟨phase, r.late⟩).get i = some ⟨phase, r.late⟩ := by simp
    constructor <;> grind -ring -linarith [Host.advance, resolve, Orderly]
  | _ =>
    constructor <;> grind -ring -linarith [Host.advance, resolve, setFlag]

theorem Settled.step {s t : Host} {a : Action} (settled : s.Settled) (turn : InTurn a s)
    (next : step a s = some t) :
  t.Settled
  := by
  have done := settled.claimed.step next
  obtain ⟨-, current, flagged, late, returned⟩ := id settled
  cases a with
  | advance i builds => apply settled.advance turn next
  | enter i entry =>
    obtain ⟨fresh, rfl⟩ := ite_none_right_eq_some.mp next |>.imp_right some.inj
    have other := s.kept i ⟨entry.phase, s.sourceDriven⟩
    cases entry <;> constructor <;> grind -ring -linarith [Entry.phase]
  | seedSourceDrivenByKey =>
    cases seeded : s.sourceDriven <;> constructor <;>
      grind -ring -linarith [Host.step, flipEngineLocked, setFlag]
  | _ => constructor <;> grind -ring -linarith [Host.step, get_empty]

end Host

/-- As long as lookups and entries of the code cache are in turn, every engine returned by a
resolution that began after the seed has its flag set. -/
theorem returned_configFromSource {s : Host} (run : Run Host.step Host.InTurn {} s) {i e : Nat}
    {r : Resolution} (there : s.resolutions.get i = some r) (late : r.late)
    (returned : r.phase = .returned e) :
  s.configFromSource e
  := by
  have settled : s.Settled := run.invariant ⟨Host.claimed_empty, by simp, by simp, by simp, by simp⟩
    fun _ _ _ settled turn next => settled.step turn next
  apply settled.returned i r e there late returned

namespace Host.Sample

/-- A module is seeded, and a first resolution builds its engine and enters it in the code cache. -/
def publishes : List Action :=
  [.seedSourceDrivenByKey, .enter 0 (.engineForCode "code"), .advance 0 true, .advance 0 true,
    .advance 0 true, .advance 0 true, .advance 0 true]

end Host.Sample

open Host.Sample

/-- A second resolution hits the code cache after the first one has written the flag. -/
theorem inTurn_configFromSource :
  ∃ s, Run Host.step Host.InTurn {} s ∧ s.phase 1 = some (.returned 0) ∧ s.configFromSource 0
  := by
  obtain ⟨s, run, there, late⟩ : ∃ s, Run Host.step Host.InTurn {} s ∧
      s.phase 1 = some (.returned 0) ∧ (s.resolutions.get 1).all (·.late) :=
    exists_guarded_run (publishes ++ [.advance 0 true, .enter 1 (.engineForCode "code"),
      .advance 1 true]) (by decide)
  obtain ⟨r, found, returned⟩ := map_eq_some_iff.mp there
  exact ⟨s, run, there, returned_configFromSource run found (by simpa [found] using late) returned⟩

/-- A second resolution hits the code cache before the first one has written the flag. -/
theorem cached_before_store :
  ∃ s, Run Host.step (fun _ _ => True) {} s ∧ s.phase 1 = some (.returned 0) ∧
    (s.resolutions.get 1).all (·.late) ∧ s.configFromSource 0 = false
  := by
  apply exists_run (publishes ++ [.enter 1 (.engineForCode "code"), .advance 1 true])
  decide

/-! ### Reclaimed engines -/

/-- The engine that a resolution has got. -/
def Phase.engine : Phase → Option Nat
  | .built e _ | .publish e _ | .store e | .returned e => some e
  | _ => none

namespace Host

/-- Only the current engine enters the code cache. -/
def memoises : Action → Host → Bool
  | .advance i _, s =>
    match s.phase i with
    | some (.publish e code) => code = "" ∨ s.engine = some e
    | _ => true
  | _, _ => true

/-- An engine is in no map, and no resolution that began after `start` has got it. -/
structure Gone (start : Host) (e : Nat) (s : Host) : Prop where
  old : e < s.created
  engine : s.engine ≠ some e
  cache : ∀ code, s.codeCache.get code ≠ some e
  apart : ∀ i r, start.resolutions.get i = none → s.resolutions.get i = some r →
    r.phase.engine ≠ some e

theorem Gone.step {start s t : Host} {e : Nat} {a : Action} (gone : Gone start e s)
    (current : memoises a s) (next : step a s = some t) :
  Gone start e t
  := by
  obtain ⟨old, engine, cache, apart⟩ := gone
  cases a with
  | advance i builds =>
    obtain ⟨r, u, phase, found, move, rfl⟩ := step_advance next
    simp only [memoises, Host.phase, found, map_some] at current
    have mine := apart i r
    cases now : r.phase <;> rw [now] at move current mine <;>
      constructor <;> grind -ring -linarith [Host.advance, resolve, setFlag, Phase.engine]
  | enter i entry =>
    obtain ⟨fresh, rfl⟩ := ite_none_right_eq_some.mp next |>.imp_right some.inj
    cases entry <;> constructor <;> grind -ring -linarith [Entry.phase, Phase.engine]
  | _ => constructor <;> grind -ring -linarith [Host.step, flipEngineLocked, setFlag, get_empty]

/-- An engine comes into the map at the end of a build. -/
theorem engine_of_step {s t : Host} {a : Action} (next : step a s = some t) :
  s.created ≤ t.created ∧ (t.engine = none ∨ t.engine = s.engine ∨ t.engine = some s.created ∧
    s.created < t.created ∧ ∃ i code, a = .advance i true ∧ s.phase i = some (.building code))
  := by
  cases a with
  | advance i builds =>
    obtain ⟨r, u, phase, found, move, rfl⟩ := step_advance next
    cases now : r.phase <;> rw [now] at move <;>
      grind -ring -linarith [Host.advance, setFlag, Host.phase]
  | _ => grind -ring -linarith [step, flipEngineLocked, setFlag]

/-- A pass has just removed the engine from the map. -/
def Reclaimed (e : Nat) (s : Host) : Prop :=
  ∃ u, Run step (fun _ _ => True) {} u ∧ u.engine = some e ∧ step .reclaimIdleEngines u = some s

end Host

/-- As long as only the current engine enters the code cache, an engine that a pass has removed is
never found again, and no resolution that begins after the pass returns it. -/
theorem reclaimed_unreachable {s t : Host} {e : Nat} (pass : s.Reclaimed e)
    (after : Run Host.step (fun a s => Host.memoises a s) s t) :
  t.engine ≠ some e ∧ (∀ code, t.codeCache.get code ≠ some e) ∧
    ∀ i, s.resolutions.get i = none → t.phase i ≠ some (.returned e)
  := by
  obtain ⟨u, before, resident, removed⟩ := pass
  have numbered : ∀ e ∈ u.engine, e < u.created := before.invariant
    (I := fun s => ∀ e ∈ s.engine, e < s.created) nofun
    fun _ _ _ h _ next => by grind [Host.engine_of_step next]
  obtain rfl := some.inj removed
  have gone := after.invariant (I := Host.Gone { u with engine := none, codeCache := ∅ } e)
    ⟨numbered e resident, nofun, by simp, fun i r none some => by simp [none] at some⟩
    fun _ _ _ gone current next => gone.step current next
  refine ⟨gone.engine, gone.cache, fun i later returned => ?_⟩
  obtain ⟨r, found, phase⟩ := map_eq_some_iff.mp returned
  exact gone.apart i r later found (by rw [phase]; rfl)

namespace Host.Sample

/-- A resolution builds the engine and comes to `publishEngine`. -/
def builds : List Action :=
  .enter 0 (.engineForCode "code") :: List.replicate 4 (.advance 0 true)

/-- Then a pass removes the engine. -/
def removed : Host := (exec step (builds ++ [.reclaimIdleEngines]) {}).getD {}

theorem removed_reclaimed : removed.Reclaimed 0 :=
  ⟨_, @Run.of_exec _ _ step builds _ _ rfl, rfl, rfl⟩

end Host.Sample

/-- After the pass the module is compiled anew, its engine is published and returned. -/
theorem removed_unreachable :
  ∃ t, Run Host.step (fun a s => Host.memoises a s) removed t ∧
    (t.phase 1 = some (.returned 1) ∧ t.codeCache.get "code" = some 1) ∧ t.engine ≠ some 0
  := by
  apply exists_guarded_run_and
    (.enter 1 (.engineForCode "code") :: List.replicate 5 (.advance 1 true)) (by decide)
  exact fun t after _ => (reclaimed_unreachable removed_reclaimed after).1

/-- The engine is entered in the code cache after the pass that has removed it, and a resolution
that begins then returns it. -/
theorem removed_returned :
  removed.Reclaimed 0 ∧ removed.resolutions.get 1 = none ∧
    ∃ t, Run Host.step (fun _ _ => True) removed t ∧ t.codeCache.get "code" = some 0 ∧
      t.phase 1 = some (.returned 0)
  := by
  refine ⟨removed_reclaimed, by decide, ?_⟩
  apply exists_run [.advance 0 true, .enter 1 (.engineForCode "code"), .advance 1 true]
  decide

/-! ### Compiled code -/

/-- The host with the wasm runtime, which keeps one compiled entry of the module. -/
structure Wasm extends Host where
  entry : Bool := false
  /-- The build in flight has compiled the module. -/
  compiled : Bool := false
  /-- The removed engines whose modules are not yet closed. -/
  doomed : Nat := 0

namespace Wasm

inductive Action where
  | host (a : Host.Action)
  | compileModule (i : Nat)
  | closeReclaimedModules

/-- A build that publishes its engine has compiled the module. -/
def ready (s : Wasm) : Host.Action → Bool
  | .advance i true =>
    match s.phase i with
    | some (.building _) => s.compiled
    | _ => true
  | _ => true

def step : Action → Wasm → Option Wasm
  | .host a, s =>
    if s.ready a then (Host.step a s.toHost).map fun t => { s with
      toHost := t
      compiled := s.compiled ∧ t.compiling
      doomed := if s.engine ≠ none ∧ t.engine = none then s.doomed + 1 else s.doomed }
    else none
  | .compileModule i, s =>
    match s.phase i with
    | some (.building _) => some { s with entry := true, compiled := true }
    | _ => none
  | .closeReclaimedModules, s =>
    if s.doomed = 0 then none
    else some { s with
      doomed := s.doomed - 1
      -- a module that is resident again or being compiled is not closed
      entry := s.entry ∧ (s.engine ≠ none ∨ s.compiling) }

/-- What is compiled stays so until the engine is published, and under the engine. -/
structure Compiles (s : Wasm) : Prop where
  claimed : s.toHost.Claimed
  held : s.compiled → s.compiling ∧ s.entry
  resident : s.engine ≠ none → s.entry

theorem Compiles.step {s t : Wasm} {a : Action} (h : s.Compiles) (next : step a s = some t) :
  t.Compiles
  := by
  obtain ⟨claimed, held, resident⟩ := h
  cases a with
  | host a =>
    obtain ⟨ready, done⟩ := ite_none_right_eq_some.mp next
    obtain ⟨u, move, rfl⟩ := map_eq_some_iff.mp done
    refine ⟨claimed.step move, by simp_all, fun there => ?_⟩
    obtain none | same | ⟨-, -, i, code, rfl, building⟩ := (Host.engine_of_step move).2
    · exact absurd none there
    · exact resident (same ▸ there)
    · rw [Wasm.ready, building] at ready
      exact (held ready).2
  | compileModule i =>
    rw [Wasm.step] at next
    split at next
    case h_1 code building =>
      obtain rfl := some.inj next
      obtain ⟨r, found, phase⟩ := map_eq_some_iff.mp building
      exact ⟨claimed, fun _ => ⟨claimed.claim i r found (by rw [phase]; rfl), rfl⟩, fun _ => rfl⟩
    case h_2 => cases next
  | closeReclaimedModules =>
    obtain ⟨-, rfl⟩ := ite_none_left_eq_some.mp next |>.imp_right some.inj
    exact ⟨claimed, by simp_all, by simp_all⟩

end Wasm

/-- One build at most is in flight, where no engine is resident; the module of a resident engine is
compiled; and after a build that fails every resolution that waits can build. -/
theorem compiled_while_resident {s : Wasm} (run : Run Wasm.step (fun _ _ => True) {} s) :
  s.Claimed ∧ (s.engine ≠ none → s.entry) ∧
    ∀ i code, s.phase i = some (.building code) →
      ∃ t, Wasm.step (.host (.advance i false)) s = some t ∧ t.compiling = false ∧
        t.engine = none ∧ ∀ j code, t.phase j = some (.key code) →
          ∃ u, Wasm.step (.host (.advance j true)) t = some u ∧
            u.phase j = some (.building code)
  := by
  have compiles : s.Compiles := run.invariant ⟨Host.claimed_empty, nofun, nofun⟩
    fun _ _ _ h _ next => h.step next
  refine ⟨compiles.claimed, compiles.resident, fun i code building => ?_⟩
  obtain ⟨r, found, phase⟩ := map_eq_some_iff.mp building
  have absent := compiles.claimed.absent i r code found phase
  have fails : Host.step (.advance i false) s.toHost = some { s.toHost with
      compiling := false, resolutions := s.resolutions.put i ⟨.failed, r.late⟩ } := by
    simp [Host.step, found, phase, Host.advance]
  refine ⟨_, congrArg (Option.map _) fails, rfl, absent, fun j code waits => ?_⟩
  obtain ⟨r', found', waits⟩ := map_eq_some_iff.mp waits
  simp [Wasm.step, Wasm.ready, Host.step, found', waits, Host.advance, absent, Host.phase]

namespace Wasm.Sample

/-- A resolution builds the engine and releases its claim. -/
def builds (i : Nat) : List Action :=
  [.host (.enter i .engineForBytes), .host (.advance i true), .compileModule i,
    .host (.advance i true), .host (.advance i true)]

end Wasm.Sample

open Wasm.Sample in
/-- A module is compiled anew before the pass that has removed its engine comes to close it. -/
theorem rebuilt_compiled :
  ∃ s, Run Wasm.step (fun _ _ => True) {} s ∧ s.doomed = 0 ∧ s.engine = some 1 ∧ s.entry
  := by
  apply exists_run_of
    (builds 0 ++ .host .reclaimIdleEngines :: builds 1 ++ [.closeReclaimedModules])
    (P := fun s => s.doomed = 0 ∧ s.engine = some 1) (by decide)
  intro s run there
  exact ⟨there.1, there.2, (compiled_while_resident run).2.1 (by simp [there.2])⟩

end Xflow.Supply
