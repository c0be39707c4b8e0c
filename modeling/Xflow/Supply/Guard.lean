import Xflow.Supply.Module
import Mathlib.Data.List.Permutation

/-!
# What judges a message

A message that passes the guard is judged by the content of a supply that the module is registered
for; this is one of the node's own if the module serves no other node (`judged_by_own_supply`),
while nodes of different namespaces that run the same module share its configuration
(`foreign_supply_judges`).  Which content is active depends on the order of arrival as soon as there
is more than one supply (`configuration_of_arrivals_iff`), and content without a revision never
satisfies the guard that installed it (`pulled_refused`).
-/

namespace Xflow.Supply

open List Option Site Table Transition

namespace Site

/-- The activation of the node declared the supply. -/
def Activated (s : Site) (node : ScriptNode) (k : Key) : Prop :=
  k.1 = node.ns ∧ (node, k.2) ∈ s.activations

instance (s : Site) (k : Key) : Decidable (s.Activated node k) :=
  inferInstanceAs (Decidable (_ ∧ _))

/-- The supply is declared for the node. -/
def Declared (s : Site) (node : ScriptNode) (k : Key) : Prop :=
  k.1 = node.ns ∧ k.2 ∈ s.lookup node

instance (s : Site) (k : Key) : Decidable (s.Declared node k) :=
  inferInstanceAs (Decidable (_ ∧ _))

/-- The guard changes no content, and registers the module for the supplies declared for the node
only. -/
theorem guard_frame (recognised : String → Bool) (s : Site) (node : ScriptNode) :
  (s.guard recognised node).1.snapshots = s.snapshots ∧
    ∀ k ∈ (s.guard recognised node).1.supplyRefs, k ∈ s.supplyRefs ∨ s.Declared node k
  := by
  have ready : (s.ready recognised node (s.lookup node)).snapshots = s.snapshots :=
    grows_ready.snapshots
  obtain ⟨-, eq⟩ | ⟨-, eq⟩ | ⟨-, eq, -⟩ := guard_cases recognised s node
  · rw [eq]
    exact ⟨rfl, fun _ => .inl⟩
  · rw [eq]
    exact ⟨ready, fun _ => mem_supplyRefs_ready.mp⟩
  · have same : ((s.ready recognised node (s.lookup node)).installFromRegistry
        recognised).1.supplyRefs = (s.ready recognised node (s.lookup node)).supplyRefs := by
      unfold installFromRegistry
      split <;> rfl
    rw [eq, same]
    exact ⟨grows_installFromRegistry.snapshots.trans ready, fun _ => mem_supplyRefs_ready.mp⟩

end Site

namespace Site.Sample

def rules (hash : String) : Bool := hash = "rules"

def node (ns : String) : ScriptNode := ⟨ns, "clean", "tag"⟩

/-- The supply `rules` of a namespace is declared for its node, and delivered. -/
def delivered (ns : String) (revision : Nat) : List Event :=
  [.activate (node ns) ["rules"], .apply (ns, "rules") ⟨"rules", revision⟩]

end Site.Sample

open Site.Sample

namespace Site

section

variable (recognised : String → Bool)

/-- The events that concern a module: it is registered for supplies, their contents are delivered,
and its engine is created. -/
def arrivals (supplies : List Key) (content : Key → Snapshot) (owner : String) : List Event :=
  .compile :: (supplies.map (.register · owner) ++ supplies.map fun k => .apply k (content k))

/-- The active configuration after events. -/
def configuration (events : List Event) : Option String :=
  ((exec (step recognised) events {}).bind (·.pool)).map (·.cfg)

/-- What `installModuleConfigFromRegistry` chooses for an engine that is created last. -/
def chosen (supplies : List Key) (content : Key → Snapshot) : Option String :=
  match supplies.filter (fun k => recognised (content k).hash) with
  | [k] => some (content k).hash
  | _ => none

end

variable {recognised : String → Bool} {s : Site} {k : Key} {supplies : List Key}
  {content : Key → Snapshot} {owner : String} {snap : Snapshot}

theorem exec_step {events : List Event}
    (named : ∀ k owner, .register k owner ∈ events → k.2 ≠ "" ∧ owner ≠ "") :
  exec (step recognised) events s = some (events.foldl (handle recognised) s)
  := by
  induction events generalizing s with
  | nil => rfl
  | cons a events ih =>
    have next : step recognised a s = some (s.handle recognised a) := by
      cases a with
      | register k owner =>
        obtain ⟨supply, caller⟩ := named k owner mem_cons_self
        simp [step, supply, caller]
      | _ => rfl
    rw [exec, next]
    exact ih fun k owner mem => named k owner (mem_cons_of_mem _ mem)

theorem configuration_eq {events : List Event} (named : owner ≠ "" ∧ ∀ k ∈ supplies, k.2 ≠ "")
    (perm : events.Perm (arrivals supplies content owner)) :
  configuration recognised events = (events.foldl (handle recognised) {}).pool.map (·.cfg)
  := by
  rw [configuration, exec_step]
  · rfl
  · intro k caller mem
    obtain ⟨_, _, there, rfl, rfl⟩ := by simpa [arrivals] using perm.mem_iff.mp mem
    exact ⟨named.2 _ there, named.1⟩

/-- The module is registered for a supply without content, and has an engine. -/
def Awaits (s : Site) (k : Key) : Prop :=
  s.engine.isSome ∧ (s.consumerOwners.get k).isSome ∧ s.snapshots.get k = none

theorem Awaits.register {k' : Key} (awaits : s.Awaits k) :
  (s.registerByDigest k' owner).Awaits k
  := by
  obtain ⟨engine, owned, absent⟩ := awaits
  have grows : Grows s (s.registerByDigest k' owner) := grows_register
  refine ⟨grows.engine engine, ?_, grows.snapshots ▸ absent⟩
  by_cases held : owner ∈ (s.consumerOwners.get k').getD []
  · unfold registerByDigest
    rwa [if_pos held]
  · rw [(register_of_unowned held).1]
    grind

theorem Awaits.apply {k' : Key} (awaits : s.Awaits k) (ne : k ≠ k') :
  (s.apply k' snap).Awaits k
  := by
  obtain ⟨engine, owned, absent⟩ := awaits
  unfold Site.apply
  split <;> exact ⟨by simpa [onSupplyChanged] using engine, owned, by
    simpa [onSupplyChanged, get_put_ne _ ne] using absent⟩

theorem Awaits.foldl {events : List Event} (awaits : s.Awaits k)
    (others : ∀ a ∈ events, (∃ k', a = .register k' owner) ∨ ∃ k' ≠ k, ∃ snap, a = .apply k' snap) :
  (events.foldl (handle recognised) s).Awaits k
  := by
  refine foldlRecOn (motive := (Site.Awaits · k)) events _ awaits fun s awaits a mem => ?_
  rcases others a mem with ⟨k', rfl⟩ | ⟨k', ne, snap, rfl⟩
  · exact awaits.register
  · exact awaits.apply ne.symm

theorem Awaits.configured (awaits : s.Awaits k) :
  ((s.apply k snap).pool).map (·.cfg) = some snap.hash
  := by
  obtain ⟨engine, owned, absent⟩ := awaits
  obtain ⟨e, engine⟩ := isSome_iff_exists.mp engine
  cases active : e.active <;>
    grind [Site.apply, onSupplyChanged, Site.pool, Engine.swapConfig]

/-- An order in which the content of `k` comes last. -/
theorem exists_last (named : owner ≠ "" ∧ ∀ k ∈ supplies, k.2 ≠ "") (nodup : supplies.Nodup)
    (there : k ∈ supplies) :
  ∃ events, events.Perm (arrivals supplies content owner) ∧
    configuration recognised events = some (content k).hash
  := by
  have perm : supplies.Perm (k :: supplies.erase k) := perm_cons_erase there
  let others := (supplies.erase k).map (Event.register · owner) ++
    (supplies.erase k).map fun k => Event.apply k (content k)
  have order : (Event.compile :: .register k owner :: (others ++ [.apply k (content k)])).Perm
      (arrivals supplies content owner) := by
    refine .cons _ ?_
    refine .trans ?_ ((perm.map _).append (perm.map _)).symm
    refine .cons _ ?_
    rw [append_assoc]
    refine .append_left _ ?_
    exact perm_append_singleton _ _
  refine ⟨_, order, ?_⟩
  · rw [configuration_eq named order, foldl_cons, foldl_cons, foldl_append]
    apply Awaits.configured
    apply Awaits.foldl
    · have owners := (@register_of_unowned (compileModule recognised {}) k owner
        (by simp [compileModule])).1
      have grows : Grows _ (registerByDigest (compileModule recognised {}) k owner) :=
        grows_register
      refine ⟨grows.engine rfl, by simp [handle, owners], ?_⟩
      exact (congrArg (get · k) grows.snapshots).trans (get_empty k)
    · intro a mem
      rcases mem_append.mp mem with mem | mem
      · obtain ⟨k', -, rfl⟩ := mem_map.mp mem
        exact .inl ⟨k', rfl⟩
      · obtain ⟨k', there, rfl⟩ := mem_map.mp mem
        exact .inr ⟨k', (nodup.mem_erase_iff.mp there).1, _, rfl⟩

end Site

/-- The active configuration does not depend on the order of arrival, and is the one chosen for an
engine that is created last, exactly if there is at most one supply and its content is recognised.
-/
theorem configuration_of_arrivals_iff {recognised : String → Bool} {supplies : List Key}
    {content : Key → Snapshot} {owner : String} (named : owner ≠ "" ∧ ∀ k ∈ supplies, k.2 ≠ "")
    (nodup : supplies.Nodup) :
  (∀ events, events.Perm (arrivals supplies content owner) →
      configuration recognised events = chosen recognised supplies content) ↔
    supplies = [] ∨ ∃ k, supplies = [k] ∧ recognised (content k).hash
  := by
  constructor
  case mp =>
    intro same
    have hash : ∀ k ∈ supplies, chosen recognised supplies content = some (content k).hash := by
      intro k there
      obtain ⟨events, perm, last⟩ :=
        @exists_last recognised k supplies content owner named nodup there
      rw [← same events perm, last]
    unfold chosen at hash
    split at hash
    case h_1 k filtered =>
      -- every content is the one chosen, so all are recognised
      have mem : k ∈ supplies.filter fun k => recognised (content k).hash := by simp [filtered]
      have all : ∀ k' ∈ supplies, recognised (content k').hash := by grind
      rw [filter_eq_self.mpr all] at filtered
      exact .inr ⟨k, filtered, (mem_filter.mp mem).2⟩
    case h_2 =>
      left
      apply eq_nil_iff_forall_not_mem.mpr
      intro k there
      cases hash k there
  case mpr =>
    rintro (rfl | ⟨k, rfl, known⟩) events perm
    · obtain rfl := perm_singleton.mp perm
      rfl
    · have orders := mem_permutations.mpr perm
      rw [configuration_eq named perm, chosen]
      simp [arrivals, permutations, permutationsAux_cons, permutationsAux2]
        at orders
      rcases orders with rfl | rfl | rfl | rfl | rfl | rfl <;>
        simp [handle, compileModule, registerByDigest,
          apply, noteSupplyRef, seedSourceDriven, onSupplyChanged,
          installModuleConfig, cached, pool, Engine.swapConfig, known]

/-- The one supply of a module, with the engine created last. -/
theorem rules_in_reverse_order :
  configuration rules
      (arrivals [("a", "rules")] (fun _ => ⟨"rules", 3⟩) "owner").reverse = some "rules"
  :=
  (configuration_of_arrivals_iff (by decide) (by decide)).mpr (.inr ⟨("a", "rules"), rfl, rfl⟩) _
    (reverse_perm _)

/-- A pointer that is delivered last replaces the rules. -/
theorem pointer_replaces_rules :
  ∃ events, events.Perm (arrivals [("a", "rules"), ("a", "pointer")] (⟨·.2, 3⟩) "owner") ∧
    configuration rules events = some "pointer" ∧
    chosen rules [("a", "rules"), ("a", "pointer")] (⟨·.2, 3⟩) = some "rules"
  := ⟨_, .refl _, by decide, by decide⟩

namespace Site

/-! ### Loaded rules -/

variable {recognised : String → Bool} {s : Site} {k : Key} {snap : Snapshot} {node : ScriptNode}

section

variable (sound : s.Sound) (there : k ∈ s.supplyRefs) (found : s.snapshots.get k = some snap)
  (only : ∀ k' ∈ s.supplyRefs, s.snapshots.get k' ≠ none → k' = k)

include sound there found only

theorem cached_only :
  s.cached = [(k, snap)]
  := by
  obtain ⟨before, after, eq⟩ := append_of_mem there
  have nodup := sound.nodup
  have none (l : List Key) (sub : ∀ k' ∈ l, k' ∈ s.supplyRefs ∧ k' ≠ k) :
      l.filterMap (fun k => (s.snapshots.get k).map fun snap => (k, snap)) = [] := by
    rw [filterMap_eq_nil_iff]
    grind
  rw [cached, eq, filterMap_append, filterMap_cons, none before (by grind),
    none after (by grind), found]
  rfl

theorem Sound.install_only (engine : s.engine.isSome) (known : recognised snap.hash)
    (other : ∀ p, s.pool = some p → p.cfg ≠ snap.hash) :
  (s.installFromRegistry recognised).2 = .ok true ∧
    ∃ p, (s.installFromRegistry recognised).1.pool = some p ∧ p.cfg = snap.hash
  := by
  obtain ⟨e, engine⟩ := isSome_iff_exists.mp engine
  have inactive : ¬ e.active.any (·.cfg = snap.hash) := by
    intro same
    obtain ⟨p, active, same⟩ := (any_eq_true _ _).mp same
    exact other p (by simp [pool, engine, active]) (of_decide_eq_true same)
  have candidates : s.cached.filter (fun c => recognised c.2.hash) = [(k, snap)] := by
    rw [cached_only sound there found only]
    simp [known]
  simp [Site.installFromRegistry, Site.installModuleConfig, engine, candidates, inactive,
    Site.pool, Engine.swapConfig]

end

/-- The revision under which a content is active, or which it has if it is not. -/
def activeRevision (s : Site) (snap : Snapshot) : Nat :=
  ((s.pool.filter (·.cfg = snap.hash)).map (·.revision)).getD snap.revision

theorem activeRevision_of_pool {p : Pool} (now : s.pool = some p) (same : p.cfg = snap.hash) :
  s.activeRevision snap = p.revision
  := by
  simp [activeRevision, now, Option.filter, same]

end Site

/-- The guard of a node passes if one of its supplies has content and this is recognised, provided
that the module is registered for no supply of another node that has content, and that the revision
under which the content is active, or becomes it, is not zero.  Whenever it passes, the active
configuration comes from a supply. -/
theorem guard_passes_loaded {recognised : String → Bool} {C : Site.Event → Site → Prop} {s : Site}
    (run : Run (step recognised) C {} s) (node : ScriptNode) :
  (∀ k snap, s.Declared node k → s.snapshots.get k = some snap → recognised snap.hash →
      (∀ k', s.Declared node k' → s.snapshots.get k' ≠ none → k' = k) →
      (∀ k' ∈ s.supplyRefs, s.snapshots.get k' ≠ none → s.Declared node k') →
      s.activeRevision snap ≠ 0 →
    (s.guard recognised node).2 = .ok () ∧
      ∃ p, (s.guard recognised node).1.pool = some p ∧ p.cfg = snap.hash) ∧
  ((s.guard recognised node).2 = .ok () →
    ∃ p k, (s.guard recognised node).1.pool = some p ∧ p.source = some k)
  := by
  have sound := sound_of_run run
  refine ⟨?_, sound.source_of_passes⟩
  intro k snap declared found known only own stored
  have ready : (s.ready recognised node (s.lookup node)).Sound := sound.ready node _
  have grows : Site.Grows s (s.ready recognised node (s.lookup node)) := grows_ready
  have own' : ∀ k' ∈ (s.ready recognised node (s.lookup node)).supplyRefs,
      s.snapshots.get k' ≠ none → k' = k := by
    intro k' there cached
    have declared' := (mem_supplyRefs_ready.mp there).elim (own k' · cached) id
    exact only k' declared' cached
  -- what comes from a supply is the content of this one
  have content {t : Site} (snapshots : t.snapshots = s.snapshots) (sound : t.Sound)
      (refs : ∀ k' ∈ t.supplyRefs, k' ∈ (s.ready recognised node (s.lookup node)).supplyRefs)
      (configured : t.supplyConfigured) : ∃ p, t.pool = some p ∧ p.cfg = snap.hash := by
    obtain ⟨p, k', now, source⟩ := sound.source_of_configured configured
    obtain ⟨there, snap', found', same⟩ := (sound.sourced p now).2 k' source
    rw [snapshots] at found'
    obtain rfl := own' k' (refs k' there) (by simp [found'])
    rw [found] at found'
    cases found'
    exact ⟨p, now, same.symm⟩
  obtain ⟨configured, eq⟩ | ⟨configured, eq⟩ | ⟨idle, eq, outcome⟩ :=
    guard_cases recognised s node
  · rw [eq]
    exact ⟨rfl, content rfl sound grows.refs configured⟩
  · rw [eq]
    exact ⟨rfl, content grows.snapshots ready (fun _ => id) configured⟩
  · have registered := grows_registered recognised s node (s.lookup node)
    have there := (@mem_supplyRefs_ready recognised s node (s.lookup node) k).mpr (.inr declared)
    obtain ⟨idle, idle'⟩ := not_or.mp idle
    rw [outcome, eq]
    refine ready.install_only there (grows.snapshots ▸ found)
      (fun k' there cached => own' k' there (grows.snapshots ▸ cached))
      (registered.engine rfl) known ?_
    -- the bytes would be active with a revision, and the module configured
    intro p now same
    have revision : p.revision ≠ 0 := by
      obtain before | ⟨k', snap', there', found', rfl⟩ := grows.pool p now
      · rwa [activeRevision_of_pool before same] at stored
      · obtain rfl := own' k' there' (by simp [found'])
        rw [found] at found'
        cases found'
        cases before : s.pool.filter (·.cfg = snap.hash) with
        | none => simpa [activeRevision, before] using stored
        | some q =>
          obtain ⟨before, same⟩ := filter_eq_some_iff.mp before
          rw [activeRevision_of_pool before (of_decide_eq_true same)] at stored
          obtain ⟨k'', source⟩ := ne_none_iff_exists'.mp ((sound.sourced q before).1 stored)
          have there'' := ((sound.sourced q before).2 k'' source).1
          exact absurd (sound.configured_of_revision there'' before stored) idle
    exact idle' (ready.configured_of_revision there now revision)

/-- A node whose supply was delivered from the store. -/
theorem stored_passes :
  ∃ s, Run (step rules) (fun _ _ => True) {} s ∧ (s.guard rules (node "a")).2 = .ok () ∧
    ∃ p, (s.guard rules (node "a")).1.pool = some p ∧ p.cfg = "rules"
  := by
  obtain ⟨s, run, declared, found, lookup, unregistered, unconfigured⟩ : ∃ s,
      Run (step rules) (fun _ _ => True) {} s ∧ s.Declared (node "a") ("a", "rules") ∧
      s.snapshots.get ("a", "rules") = some ⟨"rules", 3⟩ ∧ s.lookup (node "a") = ["rules"] ∧
      s.supplyRefs = [] ∧ s.pool = none :=
    exists_run (delivered "a" 3) (by decide)
  refine ⟨s, run, (guard_passes_loaded run (node "a")).1 _ _ declared found rfl ?_
    (by simp [unregistered]) (by simp [activeRevision, unconfigured])⟩
  rintro k ⟨ns, name⟩ -
  rw [lookup, mem_singleton] at name
  exact Prod.ext ns name

/-- A node whose supply was pulled is refused: its content has no revision. -/
theorem pulled_refused :
  ∃ s, Run (step rules) (fun _ _ => True) {} s ∧ s.lookup (node "a") = ["rules"] ∧
    s.snapshots.get ("a", "rules") = some ⟨"rules", 0⟩ ∧
    (s.guard rules (node "a")).2 = .error none
  := by
  apply exists_run (delivered "a" 0)
  decide

end Xflow.Supply
