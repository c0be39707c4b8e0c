import Xflow.Lib.Run
import Xflow.Lib.Table

/-!
# The supply registry

The registry caches the content of each supply, and notifies the consumers that are registered for
it when the content changes.  Consumers are called outside the lock, so an outcome may come after
the content or the registration it is about has been replaced, and content may return to an earlier
hash.

A supply reads ready exactly when each of its consumers has accepted what is cached
(`isReady_iff_accepted`).  A consumer that is called about older content after it was called about
newer content serves the older one, and the supply reads ready all the same
(`overtaken_serves_old`); consumers that are called in order serve what is cached
(`ready_serves_cached`).

Contents are told apart by their hashes.  The outcomes of one fan-out are recorded here one by one,
which allows more interleavings than the source has.
-/

namespace Xflow.Supply

open List Option Table

/-! ### The registry -/

/-- `Key`, a namespace and a name; an empty namespace has been resolved. -/
abbrev Key := String × String

structure Snapshot where
  hash : String
  revision : Nat := 0
  deriving DecidableEq

/-- `consumerEntry`, apart from the consumer. -/
structure ConsumerEntry where
  regSeq : Nat
  /-- Whether the last outcome was an error. -/
  lastErr : Bool := false
  lastHash : String := ""
  lastEpoch : Nat := 0
  inFlight : Nat := 0
  deriving DecidableEq

/-- The outcome of a notification, written to the entry that was notified. -/
def ConsumerEntry.record (cached : Option Snapshot) (epoch : Nat) (hash : String) (err : Bool)
    (cur : ConsumerEntry) : ConsumerEntry :=
  let cur := { cur with inFlight := cur.inFlight - 1 }
  if cached.any (·.hash = hash) ∧ cur.lastEpoch ≤ epoch then
    { cur with lastErr := err, lastHash := hash, lastEpoch := epoch }
  else cur

structure Registry where
  snapshots : Table Key Snapshot := ∅
  consumers : Table (Key × String) ConsumerEntry := ∅
  regSeq : Nat := 0
  epoch : Nat := 0

namespace Registry

variable (r : Registry) (k : Key) (key : String)

/-- `Apply` notifies if the content is another one, or a consumer has not accepted it. -/
def needNotify (snap : Snapshot) : Bool :=
  (r.snapshots.get k).all (fun prev => prev.hash ≠ snap.hash) ||
    r.consumers.any (fun at_ entry => at_.1 = k ∧
      (entry.lastErr ∨ entry.lastHash ≠ "" ∧ entry.lastHash ≠ snap.hash))

/-- `Apply`, up to the calls of the consumers. -/
def apply (snap : Snapshot) : Registry :=
  let cached := { r with snapshots := r.snapshots.put k snap }
  if r.needNotify k snap then
    { cached with
      epoch := r.epoch + 1
      consumers := r.consumers.adjust (fun at_ entry =>
        if at_.1 = k then { entry with inFlight := entry.inFlight + 1 } else entry) }
  else cached

/-- `RegisterConsumer`, up to the call of the consumer. -/
def registerConsumer : Registry :=
  let has := (r.snapshots.get k).isSome
  { r with
    regSeq := r.regSeq + 1
    epoch := if has then r.epoch + 1 else r.epoch
    consumers := r.consumers.put (k, key)
      { regSeq := r.regSeq + 1, inFlight := if has then 1 else 0 } }

def unregisterConsumer : Registry := { r with consumers := r.consumers.drop (k, key) }

/-- `recordOutcomeLocked`. -/
def recordOutcome (regSeq epoch : Nat) (hash : String) (err : Bool) : Registry :=
  match r.consumers.get (k, key) with
  | none => r
  | some cur =>
    if cur.regSeq ≠ regSeq then r
    else { r with
      consumers := r.consumers.put (k, key) (cur.record (r.snapshots.get k) epoch hash err) }

def isReady : Bool :=
  (r.snapshots.get k).any (fun cached => !r.consumers.any (fun at_ entry => at_.1 = k ∧
    (entry.lastErr ∨ 0 < entry.inFlight ∨ entry.lastHash ≠ "" ∧ entry.lastHash ≠ cached.hash)))

def observed : Option String :=
  ((r.snapshots.filter (fun k _ => r.isReady k)).get k).map (·.hash)

variable {r k key} {snap : Snapshot}

theorem get_consumers_apply (at_ : Key × String) :
  (r.apply k snap).consumers.get at_ = (r.consumers.get at_).map (fun entry =>
    if r.needNotify k snap ∧ at_.1 = k then { entry with inFlight := entry.inFlight + 1 }
    else entry)
  := by
  unfold apply
  split
  case isTrue notify => simp [get_adjust, notify]
  case isFalse quiet => simp [quiet]

theorem snapshots_apply : (r.apply k snap).snapshots = r.snapshots.put k snap
  := by
  unfold apply
  split <;> rfl

theorem hash_of_not_needNotify (quiet : ¬ r.needNotify k snap) :
  ∃ prev, r.snapshots.get k = some prev ∧ prev.hash = snap.hash
  := by
  cases found : r.snapshots.get k <;> simp_all [needNotify]

variable {regSeq epoch : Nat} {hash : String} {err : Bool}

theorem get_consumers_recordOutcome (at_ : Key × String) :
  (r.recordOutcome k key regSeq epoch hash err).consumers.get at_ =
    (r.consumers.get at_).map (fun cur =>
      if at_ = (k, key) ∧ cur.regSeq = regSeq then cur.record (r.snapshots.get k) epoch hash err
      else cur)
  := by
  unfold recordOutcome
  cases found : r.consumers.get at_ <;> grind

theorem snapshots_recordOutcome :
  (r.recordOutcome k key regSeq epoch hash err).snapshots = r.snapshots
  := by
  unfold recordOutcome
  repeat' split
  all_goals rfl

end Registry

/-! ### Calls of consumers -/

/-- A consumer under a key, with the number of its registration. -/
structure Registration where
  key : Key
  consumer : String
  regSeq : Nat
  deriving DecidableEq

/-- A notification: the verdict is there when the consumer has been called, and recorded when its
outcome has been. -/
structure Notification where
  epoch : Nat
  hash : String
  verdict : Option Bool := none
  recorded : Bool := false
  deriving DecidableEq

/-- The registry, what was dispatched to each registration with the newest first, and what each
consumer installed last: registrations of one consumer key are of one module, and share its
engine. -/
structure Rollout where
  registry : Registry := {}
  notifications : Registration → List Notification := fun _ => []
  installed : Key × String → Option Notification := fun _ => none

/-- The sections under the lock, and the calls of consumers between them. -/
inductive Action where
  | apply (k : Key) (snap : Snapshot)
  | register (k : Key) (key : String)
  | unregister (k : Key) (key : String)
  | call (reg : Registration) (i : Nat) (accepts : Bool)
  | record (reg : Registration) (i : Nat)

namespace Rollout

variable (s : Rollout)

/-- The registration is that of a consumer. -/
def registered (reg : Registration) : Bool :=
  (s.registry.consumers.get (reg.key, reg.consumer)).any (·.regSeq = reg.regSeq)

/-- Change one of the notifications of a registration. -/
def setNotification (reg : Registration) (i : Nat) (n : Notification) :
    Registration → List Notification :=
  fun reg' => if reg' = reg then (s.notifications reg).set i n else s.notifications reg'

def step : Action → Rollout → Option Rollout
  | .apply k snap, s =>
    some { s with
      registry := s.registry.apply k snap
      notifications := fun reg =>
        if s.registry.needNotify k snap ∧ reg.key = k ∧ s.registered reg then
          { epoch := s.registry.epoch + 1, hash := snap.hash } :: s.notifications reg
        else s.notifications reg }
  | .register k key, s =>
    some { s with
      registry := s.registry.registerConsumer k key
      notifications := fun reg =>
        match s.registry.snapshots.get k with
        | none => s.notifications reg
        | some snap =>
          if reg = ⟨k, key, s.registry.regSeq + 1⟩ then
            { epoch := s.registry.epoch + 1, hash := snap.hash } :: s.notifications reg
          else s.notifications reg }
  | .unregister k key, s => some { s with registry := s.registry.unregisterConsumer k key }
  | .call reg i accepts, s =>
    match (s.notifications reg)[i]? with
    | none => none
    | some n =>
      if n.verdict ≠ none then none
      else some { s with
        notifications := s.setNotification reg i { n with verdict := some accepts }
        installed := fun at_ =>
          if at_ = (reg.key, reg.consumer) ∧ accepts then some n else s.installed at_ }
  | .record reg i, s =>
    match (s.notifications reg)[i]? with
    | none => none
    | some n =>
      match n.verdict with
      | none => none
      | some accepts =>
        if n.recorded then none
        else some { s with
          registry := s.registry.recordOutcome reg.key reg.consumer reg.regSeq n.epoch n.hash
            (!accepts)
          notifications := s.setNotification reg i { n with recorded := true } }

/-- Every consumer of the supply has been heard on all it was notified of, and has accepted what is
cached the last time. -/
def Accepted (k : Key) : Prop :=
  ∃ cached, s.registry.snapshots.get k = some cached ∧
    ∀ key entry, s.registry.consumers.get (k, key) = some entry →
      (∀ n ∈ s.notifications ⟨k, key, entry.regSeq⟩, n.recorded) ∧
      ∃ n, (s.notifications ⟨k, key, entry.regSeq⟩).head? = some n ∧ n.hash = cached.hash ∧
        n.verdict = some true

/-! ### What an entry says of its notifications -/

/-- The newest notification is about what is cached, and what the entry records comes from it as
soon as its outcome is recorded. -/
def Current (cached : Option Snapshot) (entry : ConsumerEntry) (ns : List Notification) : Prop :=
  entry.inFlight = ns.countP (fun n => !n.recorded) ∧
  match cached, ns with
  | none, [] => entry.lastErr = false ∧ entry.lastHash = "" ∧ entry.lastEpoch = 0
  | some cached, n :: older =>
    n.hash = cached.hash ∧ (∀ m ∈ older, m.epoch < n.epoch) ∧ entry.lastEpoch ≤ n.epoch ∧
      (n.recorded → n.verdict = some (!entry.lastErr) ∧ entry.lastHash = n.hash ∧
        entry.lastEpoch = n.epoch)
  | _, _ => False

/-- Registrations are numbered, notifications are stamped, and every entry is current. -/
structure Sound : Prop where
  stamped : ∀ reg, ∀ n ∈ s.notifications reg, n.epoch ≤ s.registry.epoch
  numbered : ∀ reg, s.registry.regSeq < reg.regSeq → s.notifications reg = []
  issued : ∀ at_ entry, s.registry.consumers.get at_ = some entry →
    entry.regSeq ≤ s.registry.regSeq
  current : ∀ k key entry, s.registry.consumers.get (k, key) = some entry →
    Current (s.registry.snapshots.get k) entry (s.notifications ⟨k, key, entry.regSeq⟩)

variable {s} {k : Key} {key : String} {entry : ConsumerEntry} {ns : List Notification}
  {cached : Option Snapshot} {snap : Snapshot}

theorem Current.dispatch (current : Current cached entry ns) {epoch : Nat}
    (stamped : ∀ n ∈ ns, n.epoch ≤ epoch) :
  Current (some snap) { entry with inFlight := entry.inFlight + 1 }
    ({ epoch := epoch + 1, hash := snap.hash } :: ns)
  := by
  obtain ⟨count, rest⟩ := current
  refine ⟨by simp [count], rfl, fun m mem => Nat.lt_succ_of_le (stamped m mem), ?_, nofun⟩
  cases cached <;> cases ns <;> simp only at rest
  case none.nil => simp [rest.2.2]
  case some.cons n older =>
    have := stamped n mem_cons_self
    simp only
    omega

theorem Current.same {old : Snapshot} (current : Current (some old) entry ns)
    (same : old.hash = snap.hash) :
  Current (some snap) entry ns
  := by
  cases ns with
  | nil => exact current
  | cons n older => exact ⟨current.1, current.2.1.trans same, current.2.2⟩

attribute [local grind] ConsumerEntry.record

section

variable {i : Nat} {n : Notification} {accepts : Bool} (current : Current cached entry ns)
  (there : ns[i]? = some n)

include current there

theorem Current.call (uncalled : n.verdict = none) :
  Current cached entry (ns.set i { n with verdict := some accepts })
  := by
  obtain ⟨count, rest⟩ := current
  obtain ⟨lt, rfl⟩ := List.getElem?_eq_some_iff.mp there
  constructor
  · grind
  · cases cached <;> cases ns <;> simp only at rest
    case none.nil => cases lt
    case some.cons last older => cases i <;> grind

theorem Current.record (open_ : n.recorded = false) (verdict : n.verdict = some accepts) :
  Current cached (entry.record cached n.epoch n.hash (!accepts))
    (ns.set i { n with recorded := true })
  := by
  obtain ⟨count, rest⟩ := current
  obtain ⟨lt, rfl⟩ := List.getElem?_eq_some_iff.mp there
  constructor
  · grind
  · cases cached <;> cases ns <;> simp only at rest
    case none.nil => cases lt
    case some.cons cached last older =>
      cases i with
      | zero =>
        obtain ⟨same, earlier, le, -⟩ := rest
        refine ⟨same, earlier, ?_⟩
        simpa [ConsumerEntry.record, same, le] using verdict
      | succ i => grind

end

/-! ### Runs -/

variable {t : Rollout} {reg : Registration}

theorem step_call {i : Nat} {accepts : Bool}
    (next : step (.call reg i accepts) s = some t) :
  ∃ n, (s.notifications reg)[i]? = some n ∧ n.verdict = none ∧ t = { s with
    notifications := s.setNotification reg i { n with verdict := some accepts }
    installed := fun at_ =>
      if at_ = (reg.key, reg.consumer) ∧ accepts then some n else s.installed at_ }
  := by
  grind [step]

theorem step_record {i : Nat}
    (next : step (.record reg i) s = some t) :
  ∃ n accepts, (s.notifications reg)[i]? = some n ∧ n.verdict = some accepts ∧
    n.recorded = false ∧ t = { s with
      registry := s.registry.recordOutcome reg.key reg.consumer reg.regSeq n.epoch n.hash (!accepts)
      notifications := s.setNotification reg i { n with recorded := true } }
  := by
  grind [step]

attribute [local grind] Registry.registerConsumer Registry.recordOutcome Registry.apply

theorem Sound.step {a : Action} (sound : s.Sound) (next : step a s = some t) :
  t.Sound
  := by
  have stamped := sound.stamped
  have numbered := sound.numbered
  have issued := sound.issued
  cases a with
  | apply k snap =>
    obtain rfl := some.inj next
    constructor
    case stamped => grind
    case numbered =>
      intro reg unused
      have : s.registered reg ↔ ∃ entry, s.registry.consumers.get (reg.key, reg.consumer) =
          some entry ∧ entry.regSeq = reg.regSeq := by
        simp [registered, Option.any_eq_true]
      grind
    case issued =>
      intro at_ entry there
      rw [Registry.get_consumers_apply] at there
      obtain ⟨before, found, rfl⟩ := map_eq_some_iff.mp there
      grind
    case current =>
      intro k' key entry there
      rw [Registry.get_consumers_apply] at there
      obtain ⟨before, found, rfl⟩ := map_eq_some_iff.mp there
      have current := sound.current k' key before found
      have here : ∀ n, n = before.regSeq → s.registered ⟨k', key, n⟩ := by
        simp [registered, found]
      rw [Registry.snapshots_apply]
      by_cases notify : s.registry.needNotify k snap
      · have : Current (some snap) _ _ := current.dispatch (stamped _)
        grind
      · obtain ⟨prev, cached, same⟩ := Registry.hash_of_not_needNotify notify
        grind [Current.same]
  | register k key =>
    obtain rfl := some.inj next
    constructor
    case stamped | numbered | issued => grind
    case current =>
      intro k' key' entry there
      have := sound.current k' key' entry
      by_cases here : k' = k ∧ key' = key
      · obtain ⟨rfl, rfl⟩ := here
        have : entry = ConsumerEntry.mk (s.registry.regSeq + 1) false "" 0
            (if (s.registry.snapshots.get k').isSome then 1 else 0) := by
          grind
        cases cached : s.registry.snapshots.get k' <;> simp_all [Current, Registry.registerConsumer]
      · grind
  | unregister k key =>
    obtain rfl := some.inj next
    refine ⟨stamped, numbered, fun at_ entry there => issued at_ entry ?_,
      fun k' key' entry there => sound.current k' key' entry ?_⟩
    all_goals exact (get_drop_eq_some.mp there).2
  | call reg i accepts =>
    obtain ⟨n, there, uncalled, rfl⟩ := step_call next
    constructor
    case stamped => grind [setNotification, mem_or_eq_of_mem_set]
    case numbered => grind [setNotification]
    case issued => exact issued
    case current =>
      intro k' key entry found
      have := sound.current k' key entry found
      grind [setNotification, Current.call]
  | record reg i =>
    obtain ⟨n, accepts, there, verdict, open_, rfl⟩ := step_record next
    constructor
    case stamped => grind [setNotification, mem_or_eq_of_mem_set]
    case numbered => grind [setNotification]
    case issued => grind
    case current =>
      intro k' key entry now
      rw [Registry.get_consumers_recordOutcome] at now
      obtain ⟨cur, found, rfl⟩ := map_eq_some_iff.mp now
      have current := sound.current k' key cur found
      rw [Registry.snapshots_recordOutcome]
      by_cases here : reg = ⟨k', key, cur.regSeq⟩
      · subst here
        have := current.record there open_ verdict
        grind [setNotification]
      · have other : ¬ ((k', key) = (reg.key, reg.consumer) ∧ cur.regSeq = reg.regSeq) := by
          rintro ⟨same, seq⟩
          cases same
          exact here (seq ▸ rfl)
        rw [if_neg other]
        grind [setNotification]

theorem sound_empty : Sound {}
  := ⟨nofun, fun _ _ => rfl, nofun, nofun⟩

theorem Current.ready_iff (current : Current (some snap) entry ns) :
  ¬ (entry.lastErr ∨ 0 < entry.inFlight ∨ entry.lastHash ≠ "" ∧ entry.lastHash ≠ snap.hash) ↔
    (∀ n ∈ ns, n.recorded) ∧ ∃ n, ns.head? = some n ∧ n.hash = snap.hash ∧ n.verdict = some true
  := by
  obtain ⟨count, rest⟩ := current
  cases ns with
  | nil => exact rest.elim
  | cons last older => grind

theorem Sound.isReady_iff (sound : s.Sound) (k : Key) : s.registry.isReady k ↔ s.Accepted k
  := by
  unfold Registry.isReady
  rw [Option.any_eq_true]
  apply exists_congr
  intro cached
  apply and_congr_right
  intro found
  have current := sound.current k
  rw [found] at current
  rw [Bool.not_eq_true', Bool.eq_false_iff, ne_eq, any_iff]
  constructor
  · intro none key entry there
    apply (current key entry there).ready_iff.mp
    intro bad
    exact none ⟨(k, key), entry, there, decide_eq_true ⟨rfl, bad⟩⟩
  · rintro all ⟨⟨_, key⟩, entry, there, bad⟩
    obtain ⟨rfl, wrong⟩ := of_decide_eq_true bad
    exact (current key entry there).ready_iff.mpr (all key entry there) wrong

end Rollout

open Transition Rollout

/-- A supply reads ready exactly when each of its consumers has been heard on everything it was
notified of, and has accepted what is cached the last time; and what is observed is the hash of what
is cached for a supply that reads ready. -/
theorem isReady_iff_accepted {s : Rollout} (run : Run step (fun _ _ => True) {} s) (k : Key) :
  (s.registry.isReady k ↔ s.Accepted k) ∧
    s.registry.observed k =
      if s.registry.isReady k then (s.registry.snapshots.get k).map (·.hash) else none
  := by
  have sound : s.Sound := run.invariant sound_empty fun _ _ _ sound _ next => sound.step next
  refine ⟨sound.isReady_iff k, ?_⟩
  unfold Registry.observed
  cases found : s.registry.snapshots.get k <;>
    cases kept : (s.registry.snapshots.filter (fun k _ => s.registry.isReady k)).get k <;> grind

namespace Sample

def k : Key := ("default", "rules")

def consumer : Registration := ⟨k, "module", 1⟩

/-- A consumer is notified of two contents one after the other. -/
def notified : List Action :=
  [.register k "module", .apply k { hash := "a" }, .apply k { hash := "b" }]

end Sample

open Sample

/-- A consumer that is called about both contents, and accepts them. -/
theorem accepted_reads_ready :
  ∃ s, Run step (fun _ _ => True) {} s ∧ s.Accepted k ∧ s.registry.observed k = some "b"
  := by
  obtain ⟨s, run, ready, cached⟩ : ∃ s, Run step (fun _ _ => True) {} s ∧ s.registry.isReady k ∧
      (s.registry.snapshots.get k).map (·.hash) = some "b" :=
    exists_run (notified ++ [.call consumer 1 true, .call consumer 0 true, .record consumer 1,
      .record consumer 0]) (by decide)
  obtain ⟨accepted, observed⟩ := isReady_iff_accepted run k
  rw [if_pos ready, cached] at observed
  exact ⟨s, run, accepted.mp ready, observed⟩

namespace Rollout

/-! ### What consumers serve -/

/-- No consumer replaces what it has installed by content that was dispatched before. -/
def InOrder : Action → Rollout → Prop
  | .call reg i true, s => ∀ n ∈ (s.notifications reg)[i]?,
    ∀ m ∈ s.installed (reg.key, reg.consumer), m.epoch < n.epoch
  | _, _ => True

instance (a : Action) (s : Rollout) : Decidable (InOrder a s) := by
  unfold InOrder
  split <;> infer_instance

/-- What a consumer was notified of while it has its last registration came after all before, and it
has installed the newest content that it accepted. -/
structure Serves (s : Rollout) : Prop where
  sound : s.Sound
  replaced : ∀ k key entry, s.registry.consumers.get (k, key) = some entry →
    ∀ seq ≠ entry.regSeq, ∀ m ∈ s.notifications ⟨k, key, seq⟩,
      ∀ n ∈ s.notifications ⟨k, key, entry.regSeq⟩, m.epoch < n.epoch
  origin : ∀ k key m, s.installed (k, key) = some m →
    ∃ seq, ∃ n ∈ s.notifications ⟨k, key, seq⟩, n.epoch = m.epoch
  newest : ∀ k key seq, ∀ n ∈ s.notifications ⟨k, key, seq⟩, n.verdict = some true →
    ∃ m, s.installed (k, key) = some m ∧ n.epoch ≤ m.epoch ∧ (n.epoch = m.epoch → n.hash = m.hash)

section

variable {s t : Rollout} {reg reg' : Registration} {i : Nat} {n n' m : Notification}
  (there : (s.notifications reg)[i]? = some n)

theorem mem_setNotification (mem : m ∈ s.setNotification reg i n' reg') :
  m ∈ s.notifications reg' ∨ reg' = reg ∧ m = n'
  := by
  grind [setNotification, mem_or_eq_of_mem_set]

include there

theorem exists_setNotification (same : n'.epoch = n.epoch) (mem : m ∈ s.notifications reg') :
  ∃ m' ∈ s.setNotification reg i n' reg', m'.epoch = m.epoch
  := by
  unfold setNotification
  by_cases eq : reg' = reg
  · subst eq
    obtain ⟨j, at_j⟩ := mem_iff_getElem?.mp mem
    by_cases j = i
    · exact ⟨n', mem_iff_getElem?.mpr ⟨i, by grind⟩, by grind⟩
    · exact ⟨m, mem_iff_getElem?.mpr ⟨j, by grind⟩, rfl⟩
  · exact ⟨m, by simpa [eq] using mem, rfl⟩

/-- A notification is called or recorded. -/
theorem Serves.change (serves : s.Serves) (sound : t.Sound)
    (notifications : t.notifications = s.setNotification reg i n') (same : n'.epoch = n.epoch)
    (consumers : ∀ k key entry, t.registry.consumers.get (k, key) = some entry →
      ∃ before, s.registry.consumers.get (k, key) = some before ∧ before.regSeq = entry.regSeq)
    (installed : ∀ k key m, t.installed (k, key) = some m → s.installed (k, key) = some m ∨
      (k, key) = (reg.key, reg.consumer) ∧ m = n)
    (newest : ∀ k key seq, ∀ n ∈ t.notifications ⟨k, key, seq⟩, n.verdict = some true →
      ∃ m, t.installed (k, key) = some m ∧ n.epoch ≤ m.epoch ∧
        (n.epoch = m.epoch → n.hash = m.hash)) :
  t.Serves
  := by
  have mem {reg' : Registration} {m : Notification} (mem : m ∈ t.notifications reg') :
      ∃ m' ∈ s.notifications reg', m'.epoch = m.epoch := by
    rw [notifications] at mem
    rcases mem_setNotification mem with mem | ⟨rfl, rfl⟩
    · exact ⟨m, mem, rfl⟩
    · exact ⟨n, mem_of_getElem? there, same.symm⟩
  refine ⟨sound, ?_, ?_, newest⟩
  · intro k key entry found seq other m inside n here
    obtain ⟨before, found, seqs⟩ := consumers k key entry found
    obtain ⟨m', inside, eq⟩ := mem inside
    obtain ⟨n', here, eq'⟩ := mem here
    rw [← eq, ← eq']
    exact serves.replaced k key before found seq (seqs ▸ other) m' inside n' (seqs ▸ here)
  · intro k key m now
    obtain ⟨seq, n₀, inside, epoch⟩ : ∃ seq, ∃ n₀ ∈ s.notifications ⟨k, key, seq⟩,
        n₀.epoch = m.epoch := by
      rcases installed k key m now with before | ⟨eq, rfl⟩
      · exact serves.origin k key m before
      · cases eq
        exact ⟨reg.regSeq, m, mem_of_getElem? there, rfl⟩
    obtain ⟨m', inside, eq⟩ := exists_setNotification there same inside
    exact ⟨seq, m', notifications ▸ inside, eq.trans epoch⟩

end

/-- Content is dispatched to registered consumers. -/
theorem Serves.dispatch {s t : Rollout} (serves : s.Serves) (sound : t.Sound)
    (installed : t.installed = s.installed)
    (kept : ∀ reg, ∀ n ∈ s.notifications reg, n ∈ t.notifications reg)
    (added : ∀ reg, ∀ n ∈ t.notifications reg, n ∈ s.notifications reg ∨
      n.epoch = s.registry.epoch + 1 ∧ n.verdict = none ∧ t.registered reg)
    (consumers : ∀ k key entry, t.registry.consumers.get (k, key) = some entry →
      entry.regSeq = s.registry.regSeq + 1 ∨
      ∃ before, s.registry.consumers.get (k, key) = some before ∧ before.regSeq = entry.regSeq) :
  t.Serves
  := by
  obtain ⟨⟨stamped, numbered, -, -⟩, replaced, origin, newest⟩ := serves
  refine ⟨sound, ?_, ?_, ?_⟩
  · intro k key entry found seq other m inside n here
    have old : m ∈ s.notifications ⟨k, key, seq⟩ := by
      refine (added _ m inside).resolve_right fun fresh => ?_
      have := fresh.2.2
      simp_all [registered]
    rcases added _ n here with there | ⟨fresh, -⟩
    · rcases consumers k key entry found with new | ⟨before, found, seqs⟩
      · rw [numbered _ (by simp [new])] at there
        cases there
      · exact replaced k key before found seq (seqs ▸ other) m old n (seqs ▸ there)
    · have := stamped _ m old
      omega
  · grind
  · grind

theorem Serves.step {s t : Rollout} {a : Action} (serves : s.Serves) (order : InOrder a s)
    (next : step a s = some t) :
  t.Serves
  := by
  have sound := serves.sound.step next
  cases a with
  | apply k snap =>
    obtain rfl := some.inj next
    refine serves.dispatch sound rfl ?_ ?_ ?_
    · intro reg n mem
      dsimp only
      split <;> simp [mem]
    · intro reg n mem
      dsimp only at mem
      split at mem
      case isFalse => exact .inl mem
      case isTrue to_ =>
        refine (mem_cons.mp mem).symm.imp_right ?_
        rintro rfl
        refine ⟨rfl, rfl, ?_⟩
        obtain ⟨entry, found, seq⟩ := (any_eq_true _ _).mp to_.2.2
        have := @Registry.get_consumers_apply s.registry k snap (reg.key, reg.consumer)
        simp only [registered, this, found, Option.map_some, any_some]
        split <;> exact seq
    · intro k' key entry now
      rw [Registry.get_consumers_apply] at now
      obtain ⟨before, found, rfl⟩ := map_eq_some_iff.mp now
      exact .inr ⟨before, found, by split <;> rfl⟩
  | register k key =>
    obtain rfl := some.inj next
    refine serves.dispatch sound rfl ?_ ?_ ?_
    · intro reg n mem
      dsimp only
      split
      · exact mem
      · split <;> simp [mem]
    · intro reg n mem
      dsimp only at mem
      split at mem
      · exact .inl mem
      · split at mem
        case isFalse => exact .inl mem
        case isTrue new =>
          refine (mem_cons.mp mem).symm.imp_right ?_
          rintro rfl
          simp [new, registered, Registry.registerConsumer]
    · intro k' key' entry now
      by_cases here : (k', key') = (k, key)
      · simp [Registry.registerConsumer, here] at now
        exact .inl (by rw [← now])
      · simp only [Registry.registerConsumer, get_put_ne _ here] at now
        exact .inr ⟨entry, now, rfl⟩
  | unregister k key =>
    obtain rfl := some.inj next
    exact { serves with
      sound := sound
      replaced := fun k' key' entry there =>
        serves.replaced k' key' entry (get_drop_eq_some.mp there).2 }
  | call reg i accepts =>
    obtain ⟨n, there, uncalled, rfl⟩ := step_call next
    refine serves.change there sound rfl rfl (fun _ _ entry there => ⟨entry, there, rfl⟩)
      (by grind) ?_
    intro k' key' seq m mem accepted
    rcases mem_setNotification mem with mem | ⟨rfl, rfl⟩
    · obtain ⟨m₀, installed, le, content⟩ := serves.newest k' key' seq m mem accepted
      by_cases here : (k', key') = (reg.key, reg.consumer) ∧ accepts
      · have lt : m₀.epoch < n.epoch := by
          obtain ⟨same, rfl⟩ := here
          exact order n there m₀ (same ▸ installed)
        exact ⟨n, if_pos here, by omega, by omega⟩
      · exact ⟨m₀, (if_neg here).trans installed, le, content⟩
    · exact ⟨n, if_pos ⟨rfl, some.inj accepted⟩, Nat.le_refl _, fun _ => rfl⟩
  | record reg i =>
    obtain ⟨n, accepts, there, verdict, open_, rfl⟩ := step_record next
    refine serves.change there sound rfl rfl ?_ (fun _ _ _ => .inl) ?_
    · intro k key entry now
      rw [Registry.get_consumers_recordOutcome] at now
      obtain ⟨before, found, rfl⟩ := map_eq_some_iff.mp now
      refine ⟨before, found, ?_⟩
      split
      · unfold ConsumerEntry.record
        dsimp only
        split <;> rfl
      · rfl
    · intro k' key' seq m mem accepted
      rcases mem_setNotification mem with mem | ⟨rfl, rfl⟩
      · exact serves.newest k' key' seq m mem accepted
      · exact serves.newest _ _ _ n (mem_of_getElem? there) accepted

end Rollout

/-- As long as no consumer replaces what it has installed by content that was dispatched before,
every consumer of a supply that reads ready serves what is cached. -/
theorem ready_serves_cached {s : Rollout} (run : Run step InOrder {} s) {k : Key}
    (ready : s.registry.isReady k) :
  ∀ key entry, s.registry.consumers.get (k, key) = some entry →
    (s.installed (k, key)).map (·.hash) = (s.registry.snapshots.get k).map (·.hash)
  := by
  have serves : s.Serves := run.invariant ⟨sound_empty, nofun, nofun, nofun⟩
    fun _ _ _ serves order next => serves.step order next
  obtain ⟨cached, found, accepted⟩ := (serves.sound.isReady_iff k).mp ready
  intro key entry there
  obtain ⟨-, last, newest, same, verdict⟩ := accepted key entry there
  obtain ⟨older, ns⟩ := head?_eq_some_iff.mp newest
  have current := serves.sound.current k key entry there
  rw [found, ns] at current
  obtain ⟨m, installed, le, content⟩ := serves.newest k key entry.regSeq last (by simp [ns]) verdict
  have ge : m.epoch ≤ last.epoch := by
    obtain ⟨seq, n, mem, epoch⟩ := serves.origin k key m installed
    have before := serves.replaced k key entry there seq
    have older := current.2.2.1
    grind
  rw [found, installed, Option.map_some, Option.map_some, ← same, content (Nat.le_antisymm le ge)]

/-- A consumer that is registered twice and called in the order of dispatch serves what is cached.
-/
theorem inOrder_serves :
  ∃ s, Run step InOrder {} s ∧ s.registry.isReady k ∧
    (s.installed (k, "module")).map (·.hash) = some "b"
  := by
  obtain ⟨s, run, ready, there, cached⟩ : ∃ s, Run step InOrder {} s ∧ s.registry.isReady k ∧
      (s.registry.consumers.get (k, "module")).isSome ∧
      (s.registry.snapshots.get k).map (·.hash) = some "b" :=
    exists_guarded_run [.register k "module", .apply k { hash := "a" }, .register k "module",
      .apply k { hash := "b" }, .call consumer 0 true, .call ⟨k, "module", 2⟩ 1 true,
      .call ⟨k, "module", 2⟩ 0 true, .record ⟨k, "module", 2⟩ 0, .record ⟨k, "module", 2⟩ 1]
      (by decide)
  obtain ⟨entry, there⟩ := isSome_iff_exists.mp there
  exact ⟨s, run, ready, (ready_serves_cached run ready "module" entry there).trans cached⟩

/-- A consumer that is called about the older content last serves it, and the supply reads ready. -/
theorem overtaken_serves_old :
  ∃ s, Run step (fun _ _ => True) {} s ∧ s.registry.isReady k ∧
    (s.registry.snapshots.get k).map (·.hash) = some "b" ∧
    (s.installed (k, "module")).map (·.hash) = some "a"
  := by
  apply exists_run (notified ++ [.call consumer 0 true, .record consumer 0,
    .call consumer 1 true, .record consumer 1])
  decide

end Xflow.Supply
