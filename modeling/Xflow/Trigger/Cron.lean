import Xflow.Lib.Run
import Mathlib.Order.ConditionallyCompleteLattice.Basic
import Mathlib.Data.Int.ConditionallyCompleteOrder
import Mathlib.Data.List.DropRight

/-!
# The cron trigger

A callback asks a cursor which instant of the schedule it is running, and an activation plans what
to do about the instants that passed while nothing hosted the schedule.
-/

namespace Xflow

namespace Cron

open List

/-- A schedule of `cronlib`.  `Next` answers with the first instant after the one it is given, or
with the zero time, which is 0 here, when there is none.  An `@every` schedule counts from the
instant that it is given, so its instants are those of the chain from the start of one walk. -/
structure Schedule where
  next : Int → Int
  instants : Set Int
  spec : ∀ t, (next t = 0 ∧ ∀ x ∈ instants, x ≤ t) ∨
    (next t ≠ 0 ∧ IsLeast (instants ∩ Set.Ioi t) (next t))

namespace Schedule

variable (sched : Schedule)

/-! ### The cursor -/

/-- The loop of `next`, if it ends within `fuel` rounds. -/
def seek (observed : Int) : Nat → Int → Option Int
  | 0, _ => none
  | fuel + 1, scheduled =>
    let after := sched.next scheduled
    if observed < after then some scheduled else seek observed fuel after

/-- Calls of `next`, in the order in which they take the lock. -/
def calls (fuel : Nat) : Int → List Int → Option (List Int)
  | _, [] => some []
  | prev, observed :: observations =>
    (sched.seek observed fuel (sched.next prev)).bind fun scheduled =>
      (calls fuel scheduled observations).map (scheduled :: ·)

variable {sched} {x t : Int}

theorem next_of_mem (named : x ∈ sched.instants) (later : t < x) :
  sched.next t ≠ 0 ∧ sched.next t ∈ sched.instants ∧ t < sched.next t ∧ sched.next t ≤ x
  := by
  obtain ⟨-, past⟩ | ⟨some, least⟩ := sched.spec t
  · exact absurd (past x named) (by omega)
  · exact ⟨some, least.1.1, least.1.2, least.2 ⟨named, later⟩⟩

theorem next_of_ne (some : sched.next t ≠ 0) :
  sched.next t ∈ sched.instants ∧ t < sched.next t
  := by
  obtain ⟨zero, -⟩ | ⟨-, least⟩ := sched.spec t
  · exact absurd zero some
  · exact least.1

theorem seek_greatest {observed scheduled : Int} {fuel : Nat} (goesOn : sched.next observed ≠ 0)
    (named : scheduled ∈ sched.instants) (past : scheduled ≤ observed)
    (enough : observed - scheduled < fuel) :
  ∃ x, sched.seek observed fuel scheduled = some x ∧
    IsGreatest (sched.instants ∩ Set.Iic observed) x
  := by
  obtain ⟨later, after⟩ := next_of_ne goesOn
  induction fuel generalizing scheduled with
  | zero => omega
  | succ fuel ih =>
    obtain ⟨-, mem, lt, -⟩ := next_of_mem later (past.trans_lt after)
    unfold seek
    dsimp only
    split
    case isTrue beyond =>
      refine ⟨scheduled, rfl, ⟨named, past⟩, fun y ⟨mem, le⟩ => ?_⟩
      by_contra! more
      have := (next_of_mem mem more).2.2.2
      exact absurd (Set.mem_Iic.mp le) (by omega)
    case isFalse => exact ih mem (by omega) (by push_cast at enough; omega)

/-- What is asked of the answers of a cursor that was opened at an activation. -/
def Names (sched : Schedule) (activation observed x : Int) : Prop :=
  activation < x ∧ IsGreatest (sched.instants ∩ Set.Iic observed) x

theorem calls_names {activation before prev : Int} {observations : List Int} {fuel : Nat}
    (apart : (before :: observations).IsChain
      fun earlier later => (sched.instants ∩ Set.Ioc earlier later).Nonempty)
    (goesOn : ∀ o ∈ observations, sched.next o ≠ 0)
    (enough : ∀ o ∈ observations, o - activation < fuel)
    (start : activation ≤ prev) (le : prev ≤ before)
    (none : ∀ x ∈ sched.instants, prev < x → before < x) :
  ∃ answers, sched.calls fuel prev observations = some answers ∧
    Forall₂ (sched.Names activation) observations answers
  := by
  induction observations generalizing before prev with
  | nil => exact ⟨[], rfl, .nil⟩
  | cons o observations ih =>
    rw [isChain_cons_cons] at apart
    obtain ⟨⟨y, named, after, past⟩, apart⟩ := apart
    rw [forall_mem_cons] at goesOn enough
    obtain ⟨-, mem, lt, first⟩ := next_of_mem named (le.trans_lt after)
    have bound : o - sched.next prev < fuel := by omega
    obtain ⟨x, found, greatest⟩ := seek_greatest goesOn.1 mem (first.trans past) bound
    have reached := greatest.2 ⟨mem, first.trans past⟩
    have le : x ≤ o := greatest.1.2
    obtain ⟨answers, rest, names⟩ := ih apart goesOn.2 enough.2 (by omega) le fun z mem more => by
      by_contra! le
      exact absurd (greatest.2 ⟨mem, le⟩) (by omega)
    exact ⟨x :: answers, by simp [calls, found, rest], .cons ⟨by omega, greatest⟩ names⟩

/-- When a new instant has come since the observation before and the schedule goes on, the cursor
names the latest instant that is not in the future, and this is one after the activation. -/
theorem cursor_names_due (sched : Schedule) (activation : Int) (observations : List Int)
    (apart : (activation :: observations).IsChain
      fun earlier later => (sched.instants ∩ Set.Ioc earlier later).Nonempty)
    (goesOn : ∀ o ∈ observations, sched.next o ≠ 0) (fuel : Nat)
    (enough : ∀ o ∈ observations, o - activation < fuel) :
  ∃ answers, sched.calls fuel activation observations = some answers ∧
    Forall₂ (sched.Names activation) observations answers
  := by
  exact calls_names apart goesOn enough le_rfl le_rfl fun _ _ => id

/-- The schedule of the instants 1, 6, 11 and so on. -/
def everyFive : Schedule where
  next t := 5 * ((t + 4) / 5) + 1
  instants := {x | x % 5 = 1}
  spec t := by
    refine .inr ⟨by omega, ⟨by simp, by simp; omega⟩, fun x ⟨named, later⟩ => ?_⟩
    simp at named later
    omega

theorem cursor_names_due_everyFive :
  ∃ answers, everyFive.calls 12 2 [7, 13] = some answers ∧
    Forall₂ (everyFive.Names 2) [7, 13] answers
  := by
  have mem (n : Int) : 5 * n + 1 ∈ everyFive.instants := by simp [everyFive]
  refine cursor_names_due everyFive 2 [7, 13] ?_ (by decide) 12 (by decide)
  exact .cons_cons ⟨6, mem 1, by decide⟩ (.cons_cons ⟨11, mem 2, by decide⟩ (.singleton 13))

/-- Of two callbacks that wake late in one interval, the second is told an instant that has not
come. -/
theorem cursor_names_future : ∃ x, everyFive.calls 12 2 [12, 13] = some [11, x] ∧ 13 < x
  := by
  exact ⟨16, by decide, by decide⟩

/-! ### Catching up -/

end Schedule

inductive MisfirePolicy
  | skip
  | fireOnce
  | fireAll
deriving DecidableEq

structure CatchupConfig where
  policy : MisfirePolicy
  window : Int
  max : Nat
  /-- `catchupConfigFrom` refuses other values. -/
  max_pos : 0 < max

/-- How many of the instants that are due are fired. -/
def CatchupConfig.kept (cfg : CatchupConfig) : Nat :=
  match cfg.policy with
  | .skip => 0
  | .fireOnce => 1
  | .fireAll => cfg.max

structure CatchupPlan where
  policy : MisfirePolicy
  fires : List Int := []
  missed : Int := 0
  watermark : Int := 0
  truncated : Bool := false

def catchupWalkLimit : Nat := 100000

/-- Here `next` is an answer of `Next`. -/
def nextAfter (next now : Int) : Bool := next = 0 ∨ now < next

namespace Schedule

variable (sched : Schedule) (now : Int)

/-- The loop of `walkSchedule`, which may examine `left` more instants. -/
def walkSchedule (max : Nat) : Nat → Int → List Int → Nat → List Int × Nat × Bool
  | left, next, newest, examined =>
    if nextAfter next now then (newest, examined, false)
    else match left with
      | 0 => ([], 0, true)
      | left + 1 =>
        let newest := newest ++ [next]
        walkSchedule max left (sched.next next)
          (if max < newest.length then newest.tail else newest) (examined + 1)

def missedFires (last : Int) (ok : Bool) (cfg : CatchupConfig) : CatchupPlan :=
  if !ok ∨ last = 0 then { policy := cfg.policy }
  else
    let start := if now - cfg.window < last then last else now - cfg.window
    match sched.walkSchedule now cfg.max catchupWalkLimit (sched.next start) [] 0 with
    | (_, _, true) => { policy := cfg.policy, truncated := true }
    | (candidates, examined, false) =>
      match candidates.getLast? with
      | none => { policy := cfg.policy }
      | some watermark =>
        let fires := match cfg.policy with
          | .skip => []
          | .fireOnce => candidates.rtake 1
          | .fireAll => candidates
        { policy := cfg.policy, fires, missed := examined - fires.length, watermark }

/-- The instants after `t` that are due, oldest first, as `Next` gives them. -/
inductive Due : Int → List Int → Prop
  | nil {t : Int} (done : nextAfter (sched.next t) now) : Due t []
  | cons {t : Int} {xs : List Int} (due : ¬ nextAfter (sched.next t) now)
      (rest : Due (sched.next t) xs) : Due t (sched.next t :: xs)

variable {sched now} {t : Int} {xs : List Int}

theorem exists_due (sched : Schedule) (now t : Int) :
  ∃ xs, sched.Due now t xs
  := by
  by_cases done : nextAfter (sched.next t) now
  · exact ⟨[], .nil done⟩
  · have later : sched.next t ≠ 0 ∧ sched.next t ≤ now := by simpa [nextAfter] using done
    have := (next_of_ne later.1).2
    obtain ⟨xs, due⟩ := exists_due sched now (sched.next t)
    exact ⟨_, .cons done due⟩
termination_by (now - t).toNat

theorem Due.mem (due : sched.Due now t xs) (x : Int) :
  x ∈ xs ↔ x ∈ sched.instants ∧ t < x ∧ x ≤ now
  := by
  induction due with
  | @nil t done =>
    refine iff_of_false not_mem_nil fun ⟨named, later, past⟩ => ?_
    obtain ⟨some, -, -, le⟩ := next_of_mem named later
    simp [nextAfter] at done
    omega
  | @cons t xs more rest ih =>
    simp only [nextAfter, decide_eq_true_eq, not_or, not_lt] at more
    obtain ⟨named, lt⟩ := next_of_ne more.1
    rw [mem_cons, ih]
    constructor
    · rintro (rfl | ⟨mem, after, past⟩)
      · exact ⟨named, lt, more.2⟩
      · exact ⟨mem, lt.trans after, past⟩
    · rintro ⟨mem, after, past⟩
      have := (next_of_mem mem after).2.2.2
      grind

theorem Due.sorted (due : sched.Due now t xs) :
  xs.Pairwise (· < ·)
  := by
  induction due with
  | nil => exact .nil
  | cons _ rest ih => exact ih.cons fun x mem => ((rest.mem x).mp mem).2.1

/-- The walk keeps the newest of the instants that it has seen. -/
theorem rtake_concat {max : Nat} (pos : 0 < max) (seen : List Int) (x : Int) :
  (if max < (seen.rtake max ++ [x]).length then (seen.rtake max ++ [x]).tail
    else seen.rtake max ++ [x]) = (seen ++ [x]).rtake max
  := by
  obtain ⟨k, rfl⟩ := Nat.exists_eq_add_one.mpr pos
  rw [rtake_concat_succ]
  simp only [rtake, length_append, length_singleton, length_drop]
  split
  case isTrue full =>
    rw [tail_append_of_ne_nil (by simp; omega), tail_drop]
    congr 2
    omega
  case isFalse room =>
    congr 2
    omega

theorem Due.walk {max : Nat} (pos : 0 < max) (due : sched.Due now t xs) (left : Nat)
    (seen : List Int) :
  sched.walkSchedule now max left (sched.next t) (seen.rtake max) seen.length =
    if left < xs.length then ([], 0, true)
    else ((seen ++ xs).rtake max, (seen ++ xs).length, false)
  := by
  induction due generalizing left seen with
  | nil done =>
    unfold walkSchedule
    simp [done]
  | @cons t _ more rest ih =>
    unfold walkSchedule
    cases left with
    | zero => simp [more]
    | succ left =>
      simp only [more, rtake_concat pos]
      simpa using ih left (seen ++ [sched.next t])

/-- The instants after the watermark that a catch-up looks at. -/
def missing (sched : Schedule) (window last now : Int) : Set Int :=
  sched.instants ∩ Set.Ioc (max last (now - window)) now

/-- The plan for the instants that are due. -/
def planOf (cfg : CatchupConfig) (due : List Int) : CatchupPlan :=
  if catchupWalkLimit < due.length then { policy := cfg.policy, truncated := true }
  else
    let fires := due.rtake cfg.kept
    { policy := cfg.policy, fires, missed := due.length - fires.length,
      watermark := due.getLastD 0 }

theorem Due.missedFires {cfg : CatchupConfig} {last : Int}
    (walk : sched.Due now (max last (now - cfg.window)) xs) (ok : Bool) :
  sched.missedFires now last ok cfg =
    if !ok ∨ last = 0 then { policy := cfg.policy } else planOf cfg xs
  := by
  have start : (if now - cfg.window < last then last else now - cfg.window) =
      max last (now - cfg.window) := by
    grind
  have walked := walk.walk cfg.max_pos catchupWalkLimit []
  simp only [rtake_nil, length_nil] at walked
  unfold Schedule.missedFires planOf CatchupConfig.kept
  simp only [start, walked]
  split
  · rfl
  by_cases many : catchupWalkLimit < xs.length
  · simp only [many, if_true]
  obtain ⟨k, size⟩ := Nat.exists_eq_add_one.mpr cfg.max_pos
  simp only [many]
  cases xs using reverseRecOn with
  | nil => simp
  | append_singleton xs x => cases cfg.policy <;> simp [size]

/-- The plan is the one that the policy asks for the instants that are due. -/
theorem catchup_matches_policy (sched : Schedule) (cfg : CatchupConfig) (last now : Int)
    (ok : Bool) :
  ∃ due : List Int, due.Pairwise (· < ·) ∧ (∀ x, x ∈ due ↔ x ∈ sched.missing cfg.window last now) ∧
    sched.missedFires now last ok cfg =
      if !ok ∨ last = 0 then { policy := cfg.policy } else planOf cfg due
  := by
  obtain ⟨due, walk⟩ := exists_due sched now (max last (now - cfg.window))
  exact ⟨due, walk.sorted, walk.mem, walk.missedFires ok⟩

/-- Of instants in their order, the newest `n` are kept. -/
theorem mem_rtake {x : Int} (sorted : xs.Pairwise (· < ·)) (mem : x ∈ xs) (n : Nat) :
  x ∈ xs.rtake n ↔ (xs.filter (x ≤ ·)).length ≤ n
  := by
  obtain ⟨older, newer, rfl⟩ := append_of_mem mem
  obtain ⟨-, later, before⟩ := pairwise_append.mp sorted
  rw [pairwise_cons] at later
  have none : older.filter (x ≤ ·) = [] := by simpa using fun y old => before y old x (by simp)
  have all : newer.filter (x ≤ ·) = newer := by simpa using fun y new => (later.1 y new).le
  simp only [filter_append, none, filter_cons, all, rtake, drop_append, mem_append, le_refl,
    decide_true, if_true, nil_append, length_append, length_cons]
  constructor
  · rintro (old | new)
    · exact absurd (before x ((drop_sublist _ _).subset old) x (by simp)) (lt_irrefl x)
    · by_contra! few
      obtain ⟨k, size⟩ := Nat.exists_eq_add_of_lt few
      rw [show older.length + (newer.length + 1) - n - older.length = k + 1 by omega,
        drop_succ_cons] at new
      exact absurd (later.1 x ((drop_sublist _ _).subset new)) (lt_irrefl x)
  · intro few
    rw [show older.length + (newer.length + 1) - n - older.length = 0 by omega]
    simp

theorem mem_planOf {x : Int} (sorted : xs.Pairwise (· < ·)) (mem : x ∈ xs) (cfg : CatchupConfig) :
  x ∈ (planOf cfg xs).fires ↔
    xs.length ≤ catchupWalkLimit ∧ (xs.filter (x ≤ ·)).length ≤ cfg.kept
  := by
  unfold planOf
  split
  case isTrue many => simp [many]
  case isFalse few => simp [not_lt.mp few, mem_rtake sorted mem]

theorem zero_notMem (sched : Schedule) :
  0 ∉ sched.instants
  := by
  intro named
  obtain ⟨some, -, after, le⟩ := next_of_mem named (show -1 < 0 by decide)
  omega

/-- What is due after a watermark is planned up to the limits of a catch-up. -/
theorem planned_again {last x : Int} {cfg : CatchupConfig} (set : last ≠ 0)
    (missing : x ∈ sched.missing cfg.window last now) :
  ∃ due : List Int, due.Pairwise (· < ·) ∧ (∀ y, y ∈ due ↔ y ∈ sched.missing cfg.window last now) ∧
    (x ∈ (sched.missedFires now last true cfg).fires ↔
      due.length ≤ catchupWalkLimit ∧ (due.filter (x ≤ ·)).length ≤ cfg.kept)
  := by
  obtain ⟨due, walk⟩ := exists_due sched now (max last (now - cfg.window))
  refine ⟨due, walk.sorted, walk.mem, ?_⟩
  rw [walk.missedFires, if_neg (by simp [set]), mem_planOf walk.sorted ((walk.mem x).mpr missing)]

/-- The plan fires instants that are due after a watermark, in their order, and then records the
last one that is due. -/
theorem planned (sched : Schedule) (cfg : CatchupConfig) (last now : Int) (ok : Bool) :
  let plan := sched.missedFires now last ok cfg
  let due := {x ∈ sched.missing cfg.window last now | last ≠ 0}
  plan.fires.Pairwise (· < ·) ∧ (∀ x ∈ plan.fires, x ∈ due) ∧
    (plan.watermark ≠ 0 → plan.watermark ∈ due ∧ ∀ x ∈ plan.fires, x ≤ plan.watermark)
  := by
  obtain ⟨xs, walk⟩ := exists_due sched now (max last (now - cfg.window))
  rw [walk.missedFires]
  split
  · simp
  case isFalse set =>
    have set : last ≠ 0 := fun zero => set (.inr zero)
    unfold planOf
    split
    · simp
    have sub : xs.rtake cfg.kept <+ xs := drop_sublist _ _
    have sorted := walk.sorted
    have mem := walk.mem
    refine ⟨sorted.sublist sub, fun x kept => ⟨(mem x).mp (sub.subset kept), set⟩, ?_⟩
    cases xs using reverseRecOn with
    | nil => simp
    | append_singleton xs x =>
      simp only [getLastD_concat]
      intro _
      refine ⟨⟨(mem x).mp (by simp), set⟩, fun y kept => ?_⟩
      grind

end Schedule

/-! ### The watermark -/

/-- What a firing meets. -/
structure Answers where
  /-- The answer of the deduplicator, if it does not fail. -/
  dedup : Option Bool
  /-- The overlap policy lets the firing through. -/
  admits : Bool := true
  /-- The watermark can be written. -/
  write : Bool := true

structure CronFire where
  scheduled : Int
  catchup : Bool
deriving DecidableEq

/-- An activation of the embedded path. -/
structure Hosted where
  /-- The planned instants that `applyCatchup` has not come to. -/
  pending : List Int
  /-- What it writes to the watermark after them, or the zero time. -/
  closing : Int
  /-- The watermark at the start. -/
  found : Option Int
  /-- What was written to the watermark since then, the present one last. -/
  records : List CronFire := []
  /-- The firings whose deduplication failed. -/
  undecided : List CronFire := []
  /-- The firings that were handed to `Emit`. -/
  emitted : List CronFire := []

namespace Hosted

def recordFiring (s : Hosted) (write : Bool) (fire : CronFire) : Hosted :=
  if write then { s with records := s.records ++ [fire] } else s

def emitScheduledFire (s : Hosted) (fire : CronFire) (answers : Answers) : Hosted :=
  match answers.dedup with
  | none => { s with undecided := s.undecided ++ [fire] }
  | some ok =>
    recordFiring (if ok ∧ answers.admits then { s with emitted := s.emitted ++ [fire] } else s)
      answers.write fire

/-- Firings of this activation, or of another one that keeps the same watermark, are recorded at
any time during the catch-up. -/
inductive Event
  | catchup (answers : Answers)
  | live (scheduled : Int) (answers : Answers)

/-- The loop of `applyCatchup` and the write after it, between live firings. -/
def applyCatchup : Event → Hosted → Option Hosted
  | .catchup answers, s =>
    match s.pending with
    | x :: pending => some ({ s with pending }.emitScheduledFire ⟨x, true⟩ answers)
    | [] =>
      if s.closing = 0 then none
      else some ({ s with closing := 0 }.recordFiring answers.write ⟨s.closing, true⟩)
  | .live x answers, s => some (s.emitScheduledFire ⟨x, false⟩ answers)

def watermark (s : Hosted) : Option Int := (s.records.getLast?.map (·.scheduled)).or s.found

/-- The plan of an activation that finds the watermark `w`. -/
def plan (sched : Schedule) (cfg : CatchupConfig) (now : Int) (w : Option Int) : CatchupPlan :=
  sched.missedFires now (w.getD 0) w.isSome cfg

/-- Such an activation, before its catch-up. -/
def activate (sched : Schedule) (cfg : CatchupConfig) (now : Int) (w : Option Int) : Hosted :=
  let plan := plan sched cfg now w
  if plan.truncated then { pending := [], closing := 0, found := w }
  else { pending := plan.fires, closing := plan.watermark, found := w }

/-- The step writes the watermark. -/
def Writes : Event → Hosted → Prop
  | .catchup answers, s =>
    answers.write ∧ if s.pending = [] then s.closing ≠ 0 else answers.dedup.isSome
  | .live _ answers, _ => answers.write ∧ answers.dedup.isSome

instance (event : Event) (s : Hosted) : Decidable (Writes event s) := by
  cases event <;> unfold Writes <;> infer_instance

/-- The catch-up writes the watermark only before its first failure and before a live firing does.
Live firings are of instants after the activation, and write it in the order of their instants. -/
def InOrder (now : Int) (event : Event) (s : Hosted) : Prop :=
  match event with
  | .catchup _ => Writes event s → (∀ f ∈ s.undecided, ¬ f.catchup) ∧ ∀ f ∈ s.records, f.catchup
  | .live x _ => now < x ∧ (Writes event s → (∀ r ∈ s.found, r ≤ x) ∧
      ∀ f ∈ s.records, ¬ f.catchup → f.scheduled ≤ x)

instance (now : Int) (event : Event) (s : Hosted) : Decidable (InOrder now event s) := by
  cases event <;> unfold InOrder <;> infer_instance

/-- The watermark, which was `w` at the start, against what the catch-up has done and has left to
do.  Here `due` are the instants that it looks at. -/
structure Follows (due : Set Int) (now : Int) (w : Option Int) (s : Hosted) : Prop where
  late : ∀ x ∈ due, x ≤ now ∧ ∀ r ∈ w, r < x
  start : s.found = w
  sorted : s.pending.Pairwise (· < ·)
  ahead : ∀ x ∈ s.pending, x ∈ due
  closes : s.closing ≠ 0 → s.closing ∈ due ∧ ∀ x ∈ s.pending, x ≤ s.closing
  failed : ∀ f ∈ s.undecided, f.catchup → f.scheduled ∈ due
  recorded : ∀ f ∈ s.records, if f.catchup then f.scheduled ∈ due else now < f.scheduled
  before : (∀ f ∈ s.records, f.catchup) → ∀ f ∈ s.records,
    (∀ x ∈ s.pending, f.scheduled < x) ∧ (s.closing ≠ 0 → f.scheduled ≤ s.closing) ∧
      ∀ u ∈ s.undecided, u.catchup → f.scheduled < u.scheduled
  rising : (w.toList ++ s.records.map (·.scheduled)).Pairwise (· ≤ ·)

variable {sched : Schedule} {cfg : CatchupConfig} {now : Int} {w : Option Int} {s t : Hosted}
  {due : Set Int}

theorem emitScheduledFire_cases (s : Hosted) (fire : CronFire) (answers : Answers) :
  ∃ emitted,
    s.emitScheduledFire fire answers = { s with undecided := s.undecided ++ [fire], emitted } ∨
    s.emitScheduledFire fire answers = { s with emitted } ∨
    (answers.write ∧ answers.dedup.isSome) ∧
      s.emitScheduledFire fire answers = { s with records := s.records ++ [fire], emitted }
  := by
  unfold emitScheduledFire recordFiring
  obtain ⟨dedup, admits, write⟩ := answers
  cases dedup with
  | none => exact ⟨_, .inl rfl⟩
  | some ok =>
    refine ⟨if ok ∧ admits then s.emitted ++ [fire] else s.emitted, .inr ?_⟩
    cases write <;> by_cases hands : ok ∧ admits <;> simp [hands]

theorem follows_activate :
  (activate sched cfg now w).Follows {x ∈ sched.missing cfg.window (w.getD 0) now | w.getD 0 ≠ 0}
    now w
  := by
  obtain ⟨sorted, mem, top⟩ := sched.planned cfg (w.getD 0) now w.isSome
  have late (x : Int) (missing : x ∈ sched.missing cfg.window (w.getD 0) now) :
      x ≤ now ∧ ∀ r ∈ w, r < x := by
    refine ⟨missing.2.2, fun r held => ?_⟩
    cases held
    exact (le_max_left _ _).trans_lt missing.2.1
  unfold activate plan
  dsimp only
  split
  · constructor <;> grind
  · constructor <;> grind

/-- A write at or after all earlier ones. -/
theorem Follows.rise (inv : s.Follows due now w) (fire : CronFire)
    (first : ∀ r ∈ w, r ≤ fire.scheduled)
    (last : ∀ f ∈ s.records, f.scheduled ≤ fire.scheduled) :
  (w.toList ++ (s.records ++ [fire]).map (·.scheduled)).Pairwise (· ≤ ·)
  := by
  have := inv.rising
  grind

theorem Follows.live (inv : s.Follows due now w) {x : Int} {answers : Answers}
    (cond : InOrder now (.live x answers) s) :
  (s.emitScheduledFire ⟨x, false⟩ answers).Follows due now w
  := by
  obtain ⟨late, rfl, sorted, ahead, closes, failed, recorded, before, rising⟩ := id inv
  obtain ⟨after, order⟩ := cond
  obtain ⟨emitted, eq | eq | ⟨wrote, eq⟩⟩ := emitScheduledFire_cases s ⟨x, false⟩ answers
  · rw [eq]
    constructor <;> grind
  · rw [eq]
    constructor <;> grind
  · obtain ⟨first, last⟩ := order wrote
    have rise := inv.rise ⟨x, false⟩ first (by grind)
    rw [eq]
    constructor <;> grind

theorem Follows.fire (inv : s.Follows due now w) {x : Int} {pending : List Int} {answers : Answers}
    (rest : s.pending = x :: pending) (cond : InOrder now (.catchup answers) s) :
  ({ s with pending }.emitScheduledFire ⟨x, true⟩ answers).Follows due now w
  := by
  obtain ⟨late, rfl, sorted, ahead, closes, failed, recorded, before, rising⟩ := id inv
  rw [rest, pairwise_cons] at sorted
  obtain ⟨emitted, eq | eq | ⟨wrote, eq⟩⟩ :=
    emitScheduledFire_cases { s with pending } ⟨x, true⟩ answers
  · rw [eq]
    constructor <;> grind
  · rw [eq]
    constructor <;> grind
  · obtain ⟨undecided, records⟩ := cond (by simp [Writes, rest, wrote])
    have named : x ∈ s.pending := by simp [rest]
    have first (r : Int) (held : r ∈ s.found) := ((late x (ahead x named)).2 r held).le
    have rise := inv.rise ⟨x, true⟩ first (by grind)
    rw [eq]
    constructor <;> grind

theorem Follows.close (inv : s.Follows due now w) {answers : Answers} (rest : s.pending = [])
    (more : s.closing ≠ 0) (cond : InOrder now (.catchup answers) s) :
  ({ s with closing := 0 }.recordFiring answers.write ⟨s.closing, true⟩).Follows due now w
  := by
  obtain ⟨late, rfl, sorted, ahead, closes, failed, recorded, before, rising⟩ := id inv
  unfold recordFiring
  split
  case isTrue wrote =>
    obtain ⟨undecided, records⟩ := cond (by simp [Writes, rest, wrote, more])
    have first (r : Int) (held : r ∈ s.found) := ((late _ (closes more).1).2 r held).le
    have rise := inv.rise ⟨s.closing, true⟩ first (by grind)
    constructor <;> grind
  case isFalse => constructor <;> grind

theorem Follows.next (inv : s.Follows due now w) {event : Event} (cond : InOrder now event s)
    (next : applyCatchup event s = some t) :
  t.Follows due now w
  := by
  revert next
  fun_cases applyCatchup event s
  case case1 rest =>
    rintro ⟨⟩
    exact inv.fire rest cond
  case case2 => nofun
  case case3 rest more =>
    rintro ⟨⟩
    exact inv.close rest more cond
  case case4 =>
    rintro ⟨⟩
    exact inv.live cond

/-- Where the last write is one of the catch-up, all are. -/
theorem Follows.all (inv : s.Follows due now w) (last : ∀ f ∈ s.records.getLast?, f.catchup) :
  ∀ f ∈ s.records, f.catchup
  := by
  have := inv.rising
  have := inv.recorded
  have := inv.late
  rcases eq_nil_or_concat s.records with none | ⟨init, f, eq⟩
  · simp [none]
  · grind

/-- The watermark is before a planned instant whose deduplication failed. -/
theorem Follows.behind {window : Int}
    (inv : s.Follows {x ∈ sched.missing window (w.getD 0) now | w.getD 0 ≠ 0} now w)
    {f : CronFire} (failed : f ∈ s.undecided) (planned : f.catchup)
    (last : ∀ f ∈ s.records.getLast?, f.catchup) :
  ∃ r, s.watermark = some r ∧ r ≠ 0 ∧ r < f.scheduled
  := by
  have all := inv.all last
  obtain ⟨missing, set⟩ := inv.failed f failed planned
  unfold watermark
  rcases eq_nil_or_concat s.records with none | ⟨init, g, eq⟩
  · cases w with
    | none => exact absurd rfl set
    | some r =>
      exact ⟨r, by simp [none, inv.start], set, (inv.late _ ⟨missing, set⟩).2 r rfl⟩
  · have mem : g ∈ s.records := by simp [eq]
    have recorded := inv.recorded g mem
    rw [if_pos (all g mem)] at recorded
    refine ⟨g.scheduled, by simp [eq], ?_, (inv.before all g mem).2.2 f failed planned⟩
    intro zero
    exact sched.zero_notMem (zero ▸ recorded.1.1)

/-- The watermark stays before the planned instants whose deduplication failed, unless a live firing
moved it, so that a later activation plans them up to its limits, and it never goes back. -/
theorem watermark_stays_behind
    (run : Transition.Run applyCatchup (InOrder now) (activate sched cfg now w) s) :
  (∀ f ∈ s.undecided, f.catchup → (∀ last ∈ s.records.getLast?, last.catchup) →
    ∃ r, s.watermark = some r ∧ r < f.scheduled ∧
      ∀ again, now ≤ again → again - cfg.window < f.scheduled →
        ∃ due : List Int, due.Pairwise (· < ·) ∧
          (∀ x, x ∈ due ↔ x ∈ sched.missing cfg.window r again) ∧
          (f.scheduled ∈ (plan sched cfg again s.watermark).fires ↔
            due.length ≤ catchupWalkLimit ∧
              (due.filter (f.scheduled ≤ ·)).length ≤ cfg.kept)) ∧
  (w.toList ++ s.records.map (·.scheduled)).Pairwise (· ≤ ·)
  := by
  have inv := run.invariant follows_activate fun _ _ _ inv cond next => inv.next cond next
  refine ⟨fun f failed planned last => ?_, inv.rising⟩
  obtain ⟨r, present, set, before⟩ := inv.behind failed planned last
  obtain ⟨missing, -⟩ := inv.failed f failed planned
  refine ⟨r, present, before, fun again past inWindow => ?_⟩
  rw [present]
  exact Schedule.planned_again set
    ⟨missing.1, max_lt before inWindow, missing.2.2.trans past⟩

/-- A catch-up of up to ten instants. -/
def fireAll : CatchupConfig := ⟨.fireAll, 100, 10, by decide⟩

/-- The deduplicator fails for a live firing and for the last planned one, whose write after the
loop fails as well; later a live firing is recorded. -/
theorem watermark_stays_behind_offline :
  let start := activate Schedule.everyFive fireAll 12 (some 1)
  (∃ s, Transition.Run applyCatchup (InOrder 12) start s ∧
    (⟨11, true⟩ ∈ s.undecided ∧ ∀ last ∈ s.records.getLast?, last.catchup) ∧
    ∃ r, s.watermark = some r ∧ r < 11) ∧
  ∃ s : Hosted, Transition.Run applyCatchup (InOrder 12) start s ∧
    s.records = [⟨6, true⟩, ⟨16, false⟩] ∧
    (1 :: s.records.map (·.scheduled)).Pairwise (· ≤ ·)
  := by
  constructor
  · refine Transition.exists_guarded_run_and
      [.catchup { dedup := some true }, .live 16 { dedup := none }, .catchup { dedup := none },
        .catchup { dedup := none, write := false }]
      (by decide +kernel) fun s run ⟨failed, last⟩ => ?_
    obtain ⟨r, present, before, -⟩ := (watermark_stays_behind run).1 _ failed rfl last
    exact ⟨r, present, before⟩
  · exact Transition.exists_guarded_run_and
      [.catchup { dedup := some true }, .catchup { dedup := none },
        .catchup { dedup := none, write := false }, .live 16 { dedup := some true }]
      (by decide +kernel) fun s run _ => (watermark_stays_behind run).2

/-- The deduplicator fails for an instant that is planned, and the watermark passes it. -/
theorem watermark_passes_failed :
  ∃ s, Transition.Run applyCatchup (fun _ _ => True)
      (activate Schedule.everyFive fireAll 7 (some 1)) s ∧
    s.undecided = [⟨6, true⟩] ∧ s.emitted = [] ∧ s.records = [⟨6, true⟩] ∧
    (plan Schedule.everyFive fireAll 8 s.watermark).fires = []
  := by
  exact Transition.exists_run [.catchup { dedup := none }, .catchup { dedup := none }]
    (by decide +kernel)

end Hosted

end Cron

end Xflow
