import Xflow.Supply.Registry

/-!
# The guard of a wasm node

What a process holds for one module: the supplies it is registered for, its engine with the active
pool, and the declarations of the nodes that run it.  A node that declares supplies is guarded
(`ensureWasmSupplyConsumers`); any other one brings its rules with the message.  Modules compile and
accept every content; registrations are not released, so a slot with an owner is registered.
-/

namespace Xflow.Supply

open Transition Option

/-- `activePool`: a configuration, its revision, and the supply it came from unless a message
carried it. -/
structure Pool where
  cfg : String
  revision : Nat
  source : Option Key
  deriving DecidableEq

structure Engine where
  configFromSource : Bool := false
  active : Option Pool := none

/-- A script node whose code is the module. -/
structure ScriptNode where
  ns : String
  workflow : String
  name : String
  deriving DecidableEq

structure Site where
  snapshots : Table Key Snapshot := ∅
  consumerOwners : Table Key (List String) := ∅
  supplyRefs : List Key := []
  sourceDriven : Bool := false
  engine : Option Engine := none
  /-- `supplyDeclarationTable`, by workflow and node. -/
  declarations : Table (String × String) (List String) := ∅
  /-- The supplies that the activation of each node declared. -/
  activations : List (ScriptNode × String) := []

/-- Why `installFromRegistry` installs nothing. -/
inductive Reason where
  | noEngine
  | notCached
  | noConfig (cached : Nat)
  | ambiguous (names : List String)
  deriving DecidableEq

/-- `swapConfig`, unless the same bytes are active. -/
def Engine.swapConfig (e : Engine) (source : Option Key) (cfg : String) (revision : Nat) : Engine :=
  if e.active.any (·.cfg = cfg) then e else { e with active := some ⟨cfg, revision, source⟩ }

@[simp]
theorem Engine.configFromSource_swapConfig (e : Engine) (source : Option Key) (cfg : String)
    (revision : Nat) :
  (e.swapConfig source cfg revision).configFromSource = e.configFromSource
  := by
  unfold swapConfig
  split <;> rfl

namespace Site

/-- The call of a consumer; without an engine it does nothing. -/
def onSupplyChanged (s : Site) (k : Key) (snap : Snapshot) : Site :=
  { s with engine := s.engine.map (·.swapConfig (some k) snap.hash snap.revision) }

def apply (s : Site) (k : Key) (snap : Snapshot) : Site :=
  let cached := { s with snapshots := s.snapshots.put k snap }
  if (s.snapshots.get k).all (·.hash ≠ snap.hash) ∧ (s.consumerOwners.get k).isSome then
    cached.onSupplyChanged k snap
  else cached

def noteSupplyRef (s : Site) (k : Key) : Site :=
  { s with supplyRefs := if k ∈ s.supplyRefs then s.supplyRefs else s.supplyRefs ++ [k] }

def seedSourceDriven (s : Site) : Site :=
  { s with
    sourceDriven := true
    engine := s.engine.map ({ · with configFromSource := true }) }

/-- `registerSupplyConsumerByDigestOn`. -/
def registerByDigest (s : Site) (k : Key) (owner : String) : Site :=
  let noted := s.noteSupplyRef k
  let set := (s.consumerOwners.get k).getD []
  if owner ∈ set then noted
  else
    let seeded :=
      { noted with consumerOwners := s.consumerOwners.put k (owner :: set) }.seedSourceDriven
    match s.snapshots.get k with
    | some snap => seeded.onSupplyChanged k snap
    | none => seeded

/-- The supplies the module is registered for that have content. -/
def cached (s : Site) : List (Key × Snapshot) :=
  s.supplyRefs.filterMap fun k => (s.snapshots.get k).map fun snap => (k, snap)

/-- `SupplyConfiguredByDigest`. -/
def supplyConfigured (s : Site) : Bool :=
  s.engine.any fun e => e.configFromSource && e.active.any (·.revision ≠ 0)

def lookup (s : Site) (node : ScriptNode) : List String :=
  (s.declarations.get (node.workflow, node.name)).getD []

def declare (names : List String) (supply : String) : List String :=
  if supply = "" ∨ supply ∈ names then names else names.orderedInsert (· ≤ ·) supply

def activate (s : Site) (node : ScriptNode) (supplies : List String) : Site :=
  if node.workflow = "" ∨ node.name = "" then s
  else { s with
    declarations :=
      s.declarations.put (node.workflow, node.name) (supplies.foldl declare (s.lookup node))
    activations := supplies.map (node, ·) ++ s.activations }

variable (recognised : String → Bool)

/-- `installModuleConfigFromRegistry`; a content is `recognised` if `ruleCount` counts its rules. -/
def installModuleConfig (s : Site) (e : Engine) : Engine × Except Reason Bool :=
  match s.cached.filter (fun c => recognised c.2.hash) with
  | [] => (e, .error (if s.cached = [] then .notCached else .noConfig s.cached.length))
  | [(k, snap)] =>
    (e.swapConfig (some k) snap.hash snap.revision,
      .ok (if e.active.any (·.cfg = snap.hash) then e.active.any (·.revision ≠ 0) else true))
  | many => (e, .error (.ambiguous ((many.map (·.1.2)).insertionSort (· ≤ ·))))

/-- `InstallModuleConfigFromRegistry`. -/
def installFromRegistry (s : Site) : Site × Except Reason Bool :=
  match s.engine with
  | none => (s, .error .noEngine)
  | some e =>
    let installed := s.installModuleConfig recognised e
    ({ s with engine := some installed.1 }, installed.2)

/-- The resolution of the engine, which is created if there is none. -/
def compileModule (s : Site) : Site :=
  let e := s.engine.getD (s.installModuleConfig recognised {}).1
  { s with engine := some { e with configFromSource := e.configFromSource || s.sourceDriven } }

/-- The site after the guard has compiled the module and registered it for the supplies. -/
def ready (s : Site) (node : ScriptNode) (supplies : List String) : Site :=
  supplies.foldl (fun s supply => s.registerByDigest (node.ns, supply)
    ("node:" ++ node.workflow ++ "/" ++ node.name)) (s.compileModule recognised)

/-- The guard; an error tells why nothing was installed, if that is the cause. -/
def ensureWasmSupplyConsumers (s : Site) (node : ScriptNode) (supplies : List String) :
    Site × Except (Option Reason) Unit :=
  let ready := s.ready recognised node supplies
  if s.supplyConfigured then (s, .ok ())
  else if ready.supplyConfigured then (ready, .ok ())
  else
    let installed := ready.installFromRegistry recognised
    (installed.1,
      match installed.2 with
      | .ok true => .ok ()
      | .ok false => .error none
      | .error reason => .error (some reason))

/-- The guard of a node with what is declared for it. -/
def guard (s : Site) (node : ScriptNode) : Site × Except (Option Reason) Unit :=
  s.ensureWasmSupplyConsumers recognised node (s.lookup node)

/-- A message that is not guarded: its configuration counts unless the module is source-driven. -/
def message (s : Site) (cfg : String) : Site :=
  let s := s.compileModule recognised
  { s with engine := s.engine.map fun e =>
      if e.configFromSource then e else e.swapConfig none cfg 0 }

def execute (s : Site) (node : ScriptNode) (cfg : String) : Site :=
  if s.lookup node = [] then s.message recognised cfg else (s.guard recognised node).1

inductive Event where
  | apply (k : Key) (snap : Snapshot)
  | register (k : Key) (owner : String)
  | activate (node : ScriptNode) (supplies : List String)
  | execute (node : ScriptNode) (cfg : String)
  | compile
  | reclaim

def handle (s : Site) : Event → Site
  | .apply k snap => s.apply k snap
  | .register k owner => s.registerByDigest k owner
  | .activate node supplies => s.activate node supplies
  | .execute node cfg => s.execute recognised node cfg
  | .compile => s.compileModule recognised
  | .reclaim => { s with engine := none }

/-- Registrations without a supply or an owner are refused. -/
def step : Event → Site → Option Site
  | .register k owner, s =>
    if k.2 = "" ∨ owner = "" then none else some (s.handle recognised (.register k owner))
  | a, s => some (s.handle recognised a)

/-! ### Where a configuration comes from -/

variable {recognised} {s t u : Site} {k : Key} {snap : Snapshot} {node : ScriptNode} {p : Pool}

def pool (s : Site) : Option Pool := s.engine.bind (·.active)

/-- Nothing but registrations is added, and what is newly active is the content of a supply the
module is registered for. -/
structure Grows (s t : Site) : Prop where
  engine : s.engine.isSome → t.engine.isSome
  snapshots : t.snapshots = s.snapshots
  refs : ∀ k ∈ s.supplyRefs, k ∈ t.supplyRefs
  pool : ∀ p, t.pool = some p → s.pool = some p ∨ ∃ k snap, k ∈ t.supplyRefs ∧
    s.snapshots.get k = some snap ∧ p = ⟨snap.hash, snap.revision, some k⟩

theorem Grows.refl (s : Site) : Grows s s :=
  ⟨id, rfl, fun _ => id, fun _ => .inl⟩

theorem Grows.trans (first : Grows s t) (second : Grows t u) : Grows s u
  := by
  obtain ⟨engine, snapshots, refs, pool⟩ := first
  obtain ⟨engine', snapshots', refs', pool'⟩ := second
  constructor <;> grind

theorem mem_cached : (k, snap) ∈ s.cached ↔ k ∈ s.supplyRefs ∧ s.snapshots.get k = some snap
  := by
  simp [cached]

attribute [local grind] Engine.swapConfig

theorem active_installModuleConfig {e : Engine}
    (now : (s.installModuleConfig recognised e).1.active = some p) :
  e.active = some p ∨ ∃ k snap, k ∈ s.supplyRefs ∧ s.snapshots.get k = some snap ∧
    p = ⟨snap.hash, snap.revision, some k⟩
  := by
  unfold installModuleConfig at now
  split at now
  case h_2 k snap only =>
    have mem : (k, snap) ∈ s.cached := List.mem_of_mem_filter (p := fun c => recognised c.2.hash)
      (by rw [only]; simp)
    obtain ⟨there, found⟩ := mem_cached.mp mem
    grind
  all_goals exact .inl now

theorem configFromSource_installModuleConfig (e : Engine) :
  (s.installModuleConfig recognised e).1.configFromSource = e.configFromSource
  := by
  unfold Site.installModuleConfig
  split <;> simp

attribute [local simp] Site.pool

theorem grows_installFromRegistry :
  Grows s (s.installFromRegistry recognised).1
  := by
  unfold installFromRegistry
  split
  case h_1 => apply Grows.refl
  case h_2 e engine =>
    refine ⟨fun _ => rfl, rfl, fun _ => id, fun p now => ?_⟩
    have before : s.pool = e.active := by simp [engine]
    rw [before]
    exact active_installModuleConfig now

theorem grows_compileModule : Grows s (s.compileModule recognised)
  := by
  refine ⟨fun _ => rfl, rfl, fun _ => id, fun p now => ?_⟩
  cases engine : s.engine with
  | none =>
    simp only [compileModule, engine] at now
    exact .inr ((active_installModuleConfig now).resolve_left nofun)
  | some e =>
    left
    simpa [compileModule, engine] using now

variable {owner : String}

theorem supplyRefs_register :
  (s.registerByDigest k owner).supplyRefs =
    if k ∈ s.supplyRefs then s.supplyRefs else s.supplyRefs ++ [k]
  := by
  unfold registerByDigest
  dsimp only
  split
  · rfl
  · split <;> rfl

theorem mem_supplyRefs_register {k' : Key} :
  k' ∈ (s.registerByDigest k owner).supplyRefs ↔ k' ∈ s.supplyRefs ∨ k' = k
  := by
  grind [supplyRefs_register]

theorem pool_seedSourceDriven : s.seedSourceDriven.pool = s.pool := by
  cases engine : s.engine <;> simp [seedSourceDriven, engine]

attribute [local grind] onSupplyChanged

theorem pool_onSupplyChanged (now : (s.onSupplyChanged k snap).pool = some p) :
  s.pool = some p ∨ p = ⟨snap.hash, snap.revision, some k⟩
  := by
  cases engine : s.engine <;> grind [Site.pool]

theorem grows_register : Grows s (s.registerByDigest k owner)
  := by
  constructor
  case refs => exact fun _ there => mem_supplyRefs_register.mpr (.inl there)
  case pool =>
    have there := (@mem_supplyRefs_register s k owner k).mpr (.inr rfl)
    intro p now
    unfold registerByDigest at now
    dsimp only at now
    split at now
    case isTrue => exact .inl now
    case isFalse =>
      split at now
      case h_1 snap found =>
        rcases pool_onSupplyChanged now with now | rfl
        · exact .inl (pool_seedSourceDriven ▸ now)
        · exact .inr ⟨k, snap, there, found, rfl⟩
      case h_2 => exact .inl (pool_seedSourceDriven ▸ now)
  all_goals grind [registerByDigest, noteSupplyRef, seedSourceDriven]

theorem mem_supplyRefs_ready {supplies : List String} {k : Key} :
  k ∈ (s.ready recognised node supplies).supplyRefs ↔
    k ∈ s.supplyRefs ∨ k.1 = node.ns ∧ k.2 ∈ supplies
  := by
  unfold ready
  have same : (s.compileModule recognised).supplyRefs = s.supplyRefs := rfl
  rw [← same]
  generalize s.compileModule recognised = s at same ⊢
  clear same
  induction supplies generalizing s with
  | nil => simp
  | cons supply supplies ih =>
    rw [List.foldl_cons]
    refine (ih _).trans ?_
    rw [mem_supplyRefs_register]
    grind

/-- The shape of the registrations, and where the active configuration comes from. -/
structure Sound (s : Site) : Prop where
  nodup : s.supplyRefs.Nodup
  slots : ∀ k, k ∈ s.supplyRefs ↔ (s.consumerOwners.get k).isSome
  driven : s.sourceDriven ↔ s.supplyRefs ≠ []
  flag : ∀ e, s.engine = some e → e.configFromSource = s.sourceDriven
  sourced : ∀ p, s.pool = some p → (p.revision ≠ 0 → p.source ≠ none) ∧
    ∀ k, p.source = some k → k ∈ s.supplyRefs ∧ ∃ snap, s.snapshots.get k = some snap ∧
      snap.hash = p.cfg

theorem Grows.sourced (grows : Grows s t) (sound : s.Sound) (now : t.pool = some p) :
  (p.revision ≠ 0 → p.source ≠ none) ∧
    ∀ k, p.source = some k → k ∈ t.supplyRefs ∧ ∃ snap, t.snapshots.get k = some snap ∧
      snap.hash = p.cfg
  := by
  obtain ⟨-, snapshots, refs, pool⟩ := grows
  have sourced := sound.sourced
  grind

theorem Sound.compileModule (sound : s.Sound) : (s.compileModule recognised).Sound
  := by
  refine { sound with flag := ?_, sourced := fun p => grows_compileModule.sourced sound }
  rintro _ ⟨⟩
  cases engine : s.engine with
  | none => simp [Site.compileModule, configFromSource_installModuleConfig]
  | some e => simp [Site.compileModule, sound.flag e engine]

theorem Sound.installFromRegistry (sound : s.Sound) :
  (s.installFromRegistry recognised).1.Sound
  := by
  have sourced (p : Pool) (now : (s.installFromRegistry recognised).1.pool = some p) :=
    grows_installFromRegistry.sourced sound now
  cases engine : s.engine with
  | none => simpa [Site.installFromRegistry, engine] using sound
  | some e =>
    simp only [Site.installFromRegistry, engine] at sourced ⊢
    refine { sound with flag := ?_, sourced := sourced }
    rintro _ ⟨⟩
    exact (configFromSource_installModuleConfig e).trans (sound.flag e engine)

theorem register_of_owned (sound : s.Sound) (owned : owner ∈ (s.consumerOwners.get k).getD []) :
  s.registerByDigest k owner = s
  := by
  have there : k ∈ s.supplyRefs := by
    rw [sound.slots]
    cases held : s.consumerOwners.get k <;> simp_all
  unfold registerByDigest
  rw [if_pos owned]
  simp [noteSupplyRef, there]

theorem register_of_unowned (unowned : owner ∉ (s.consumerOwners.get k).getD []) :
  (s.registerByDigest k owner).consumerOwners =
      s.consumerOwners.put k (owner :: (s.consumerOwners.get k).getD []) ∧
    (s.registerByDigest k owner).sourceDriven ∧
    ∀ e, (s.registerByDigest k owner).engine = some e → e.configFromSource
  := by
  unfold registerByDigest
  rw [if_neg unowned]
  split <;> cases engine : s.engine <;>
    simp [onSupplyChanged, seedSourceDriven]

theorem Sound.register (sound : s.Sound) (k : Key) (owner : String) :
  (s.registerByDigest k owner).Sound
  := by
  by_cases owned : owner ∈ (s.consumerOwners.get k).getD []
  case pos => rwa [register_of_owned sound owned]
  case neg =>
    obtain ⟨owners, driven, flag⟩ := register_of_unowned owned
    constructor
    case nodup =>
      have nodup := sound.nodup
      grind [supplyRefs_register]
    case slots =>
      intro k'
      rw [mem_supplyRefs_register, owners, Table.get_put, sound.slots]
      split <;> simp_all
    case driven =>
      simp [driven, List.ne_nil_of_mem (mem_supplyRefs_register.mpr (.inr rfl))]
    case flag => exact fun e now => (flag e now).trans driven.symm
    case sourced => exact fun p => grows_register.sourced sound

theorem Sound.ready (sound : s.Sound) (node : ScriptNode) (supplies : List String) :
  (s.ready recognised node supplies).Sound
  := by
  have compiled : (s.compileModule recognised).Sound := sound.compileModule
  unfold Site.ready
  generalize s.compileModule recognised = s at compiled
  induction supplies generalizing s with
  | nil => exact compiled
  | cons supply supplies ih => exact ih _ (compiled.register _ _)

theorem Sound.apply (sound : s.Sound) (k : Key) (snap : Snapshot) : (s.apply k snap).Sound
  := by
  unfold Site.apply
  split
  case isTrue changed =>
    obtain ⟨changed, there⟩ := changed
    rw [← sound.slots] at there
    have sourced := sound.sourced
    refine { sound with flag := ?_, sourced := ?_ }
    · intro e now
      obtain ⟨e, engine, rfl⟩ := map_eq_some_iff.mp now
      exact (e.configFromSource_swapConfig ..).trans (sound.flag e engine)
    · cases engine : s.engine <;> grind [Site.pool]
  case isFalse quiet =>
    refine { sound with sourced := ?_ }
    intro p now
    have before := sound.sourced p now
    have slots := sound.slots k
    grind

theorem Sound.message (sound : s.Sound) (cfg : String) : (s.message recognised cfg).Sound
  := by
  unfold Site.message
  have compiled : (s.compileModule recognised).Sound := sound.compileModule
  generalize s.compileModule recognised = s at compiled
  refine { compiled with flag := ?_, sourced := ?_ }
  · intro e now
    obtain ⟨e, engine, rfl⟩ := map_eq_some_iff.mp now
    have flag := compiled.flag e engine
    split <;> simpa
  · have sourced := compiled.sourced
    cases engine : s.engine <;> grind [Site.pool]

variable (recognised) in
theorem guard_cases (s : Site) (node : ScriptNode) :
  let ready := s.ready recognised node (s.lookup node)
  let installed := ready.installFromRegistry recognised
  s.supplyConfigured ∧ s.guard recognised node = (s, .ok ()) ∨
    ready.supplyConfigured ∧ s.guard recognised node = (ready, .ok ()) ∨
    ¬ (s.supplyConfigured ∨ ready.supplyConfigured) ∧ (s.guard recognised node).1 = installed.1 ∧
      ((s.guard recognised node).2 = .ok () ↔ installed.2 = .ok true)
  := by
  unfold guard ensureWasmSupplyConsumers
  grind

theorem Sound.guard (sound : s.Sound) (node : ScriptNode) : (s.guard recognised node).1.Sound
  := by
  have ready : (s.ready recognised node (s.lookup node)).Sound := sound.ready node _
  obtain ⟨-, eq⟩ | ⟨-, eq⟩ | ⟨-, eq, -⟩ := guard_cases recognised s node
  · rwa [eq]
  · rwa [eq]
  · rw [eq]
    exact ready.installFromRegistry

variable (recognised s node) in
theorem grows_registered (supplies : List String) :
  Grows (s.compileModule recognised) (s.ready recognised node supplies)
  := by
  unfold ready
  generalize s.compileModule recognised = s
  induction supplies generalizing s with
  | nil => apply Grows.refl
  | cons supply supplies ih => exact grows_register.trans (ih _)

theorem grows_ready {supplies : List String} : Grows s (s.ready recognised node supplies) :=
  grows_compileModule.trans (grows_registered recognised s node supplies)

theorem Sound.step {a : Event} (sound : s.Sound) (next : step recognised a s = some t) : t.Sound
  := by
  cases a with
  | apply k snap =>
    obtain rfl := some.inj next
    exact sound.apply k snap
  | register k owner =>
    obtain ⟨-, ⟨⟩⟩ := ite_none_left_eq_some.mp next
    exact sound.register k owner
  | activate node supplies =>
    obtain rfl := some.inj next
    simp only [handle, Site.activate]
    split
    · exact sound
    · exact { sound with }
  | execute node cfg =>
    obtain rfl := some.inj next
    simp only [handle, Site.execute]
    split
    · exact sound.message cfg
    · exact sound.guard node
  | compile =>
    obtain rfl := some.inj next
    exact sound.compileModule
  | reclaim =>
    obtain rfl := some.inj next
    exact { sound with flag := nofun, sourced := nofun }

theorem sound_empty : Sound {} := ⟨List.nodup_nil, by simp, by simp, nofun, nofun⟩

theorem sound_of_run {C : Event → Site → Prop} (run : Run (Site.step recognised) C {} s) :
  s.Sound
  := run.invariant sound_empty fun _ _ _ sound _ next => sound.step next

theorem supplyConfigured_iff :
  s.supplyConfigured ↔
    ∃ e p, s.engine = some e ∧ e.configFromSource ∧ e.active = some p ∧ p.revision ≠ 0
  := by
  cases engine : s.engine with
  | none => simp [supplyConfigured, engine]
  | some e => cases active : e.active <;> simp [supplyConfigured, engine, active]

theorem Sound.configured_of_revision (sound : s.Sound) (there : k ∈ s.supplyRefs)
    (now : s.pool = some p) (revision : p.revision ≠ 0) :
  s.supplyConfigured
  := by
  obtain ⟨e, engine, active⟩ := bind_eq_some_iff.mp now
  have flag : e.configFromSource := by
    rw [sound.flag e engine, sound.driven]
    exact List.ne_nil_of_mem there
  exact supplyConfigured_iff.mpr ⟨e, p, engine, flag, active, revision⟩

theorem Sound.source_of_configured (sound : s.Sound) (configured : s.supplyConfigured) :
  ∃ p k, s.pool = some p ∧ p.source = some k
  := by
  obtain ⟨e, p, engine, -, active, revision⟩ := supplyConfigured_iff.mp configured
  have now : s.pool = some p := by simp [engine, active]
  obtain ⟨k, source⟩ := ne_none_iff_exists'.mp ((sound.sourced p now).1 revision)
  exact ⟨p, k, now, source⟩

theorem Sound.source_of_installed (sound : s.Sound)
    (installed : (s.installFromRegistry recognised).2 = .ok true) :
  ∃ p k, (s.installFromRegistry recognised).1.pool = some p ∧ p.source = some k
  := by
  cases engine : s.engine with
  | none => simp [Site.installFromRegistry, engine] at installed
  | some e =>
    simp only [Site.installFromRegistry, engine] at installed ⊢
    unfold Site.installModuleConfig at installed ⊢
    split at installed
    case h_2 k snap only =>
      by_cases same : e.active.any (·.cfg = snap.hash)
      case neg =>
        exact ⟨⟨_, _, _⟩, k, by simp only [Engine.swapConfig, if_neg same]; rfl, rfl⟩
      case pos =>
        obtain ⟨p, active, revision⟩ : ∃ p, e.active = some p ∧ p.revision ≠ 0 := by
          simpa [same, any_eq_true] using installed
        have now : s.pool = some p := by simp [engine, active]
        obtain ⟨k, source⟩ := ne_none_iff_exists'.mp ((sound.sourced p now).1 revision)
        exact ⟨p, k, by simp only [Engine.swapConfig, if_pos same]; exact active, source⟩
    all_goals cases installed

theorem Sound.source_of_passes (sound : s.Sound) (passes : (s.guard recognised node).2 = .ok ()) :
  ∃ p k, (s.guard recognised node).1.pool = some p ∧ p.source = some k
  := by
  have ready : (s.ready recognised node (s.lookup node)).Sound := sound.ready node _
  obtain ⟨configured, eq⟩ | ⟨configured, eq⟩ | ⟨-, eq, outcome⟩ := guard_cases recognised s node
  · rw [eq]
    exact sound.source_of_configured configured
  · rw [eq]
    exact ready.source_of_configured configured
  · rw [eq]
    exact ready.source_of_installed (outcome.mp passes)

end Site

end Xflow.Supply
