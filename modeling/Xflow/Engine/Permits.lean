import Mathlib.Data.Finset.Card
import Mathlib.Data.List.Nodup

/-!
# The permits of map batches and items

A call of `acquire` takes a permit or joins the line.  Who gives a permit back hands it to the head
of the line, and a call that is canceled leaves the line or gives back what it was handed meanwhile.
-/

namespace Xflow

open List Function

/-- Where a call of `acquire` is. -/
inductive AcquirePhase
  | outside
  | selecting
  /-- It has seen the cancellation and has not taken the lock. -/
  | leaving
  /-- It has returned a release function that was not called. -/
  | holding
  | released
  | failed
deriving DecidableEq

/-- `permitLimiter`, with the calls of `acquire`. -/
structure PermitLimiter where
  available : Nat
  waiters : List Nat := []
  /-- `granted` of the waiter of a call. -/
  granted : Nat → Bool := fun _ => false
  phase : Nat → AcquirePhase := fun _ => .outside
  /-- The calls that joined the line, and those that were granted a permit there. -/
  joined : List Nat := []
  grants : List Nat := []

namespace PermitLimiter

/-- The loop of `grantWaitersLocked`. -/
def grantWaiters (s : PermitLimiter) : Nat → List Nat → PermitLimiter
  | available + 1, waiter :: waiters =>
    { s with
      granted := update s.granted waiter true
      grants := s.grants ++ [waiter] }.grantWaiters available waiters
  | available, waiters => { s with available, waiters }

def grantWaitersLocked (s : PermitLimiter) : PermitLimiter :=
  s.grantWaiters s.available s.waiters

inductive Action
  /-- A call looks at its context and takes the lock. -/
  | acquire (call : Nat) (canceled : Bool)
  /-- A call finds its waiter ready. -/
  | ready (call : Nat)
  /-- A call finds its context done. -/
  | done (call : Nat)
  /-- A call that found its context done takes the lock. -/
  | leave (call : Nat)
  /-- The release function of a call is called. -/
  | release (call : Nat)

/-- An action that is not possible changes nothing. -/
def step (s : PermitLimiter) : Action → PermitLimiter
  | .acquire call canceled =>
    if s.phase call ≠ .outside then s
    else if canceled then { s with phase := update s.phase call .failed }
    else if s.waiters = [] ∧ 0 < s.available then
      { s with available := s.available - 1, phase := update s.phase call .holding }
    else
      { s with
        waiters := s.waiters ++ [call]
        joined := s.joined ++ [call]
        phase := update s.phase call .selecting }
  | .ready call =>
    if s.phase call = .selecting ∧ s.granted call then
      { s with phase := update s.phase call .holding }
    else s
  | .done call =>
    if s.phase call = .selecting then { s with phase := update s.phase call .leaving } else s
  | .leave call =>
    if s.phase call ≠ .leaving then s
    else
      let s' := { s with phase := update s.phase call .failed }
      if s.granted call then { s' with available := s.available + 1 }.grantWaitersLocked
      else { s' with waiters := s.waiters.erase call }.grantWaitersLocked
  | .release call =>
    if s.phase call = .holding then
      { s with
        available := s.available + 1
        phase := update s.phase call .released }.grantWaitersLocked
    else s

/-- The state after some actions. -/
def run (capacity : Nat) (actions : List Action) : PermitLimiter :=
  actions.foldl step { available := capacity }

/-- A call holds a permit, whether it has noticed or not. -/
def Holds (s : PermitLimiter) (call : Nat) : Prop :=
  s.phase call = .holding ∨
    s.granted call ∧ (s.phase call = .selecting ∨ s.phase call = .leaving)

/-- What holds while permits are handed out. -/
structure Accounted (capacity : Nat) (s : PermitLimiter) : Prop where
  conserved : ∃ holders : Finset Nat, (∀ call, call ∈ holders ↔ s.Holds call) ∧
    s.available + holders.card = capacity
  ordered : (s.grants ++ s.waiters).Sublist s.joined
  distinct : s.joined.Nodup
  waits : ∀ call ∈ s.waiters, s.granted call = false ∧
    (s.phase call = .selecting ∨ s.phase call = .leaving)
  fresh : ∀ call, s.phase call = .outside → s.granted call = false ∧ call ∉ s.joined

structure Sound (capacity : Nat) (s : PermitLimiter) : Prop extends Accounted capacity s where
  settled : 0 < s.available → s.waiters = []

variable {capacity : Nat} {s : PermitLimiter}

attribute [local grind] Holds

theorem Accounted.granting {available : Nat} {waiters : List Nat}
    (h : Accounted capacity { s with available, waiters }) :
  Sound capacity (s.grantWaiters available waiters)
  := by
  fun_induction grantWaiters s available waiters with
  | case1 s available waiter waiters ih =>
    apply ih
    obtain ⟨holders, held, count⟩ := h.conserved
    have waits := h.waits waiter mem_cons_self
    have distinct := (h.ordered.nodup h.distinct).of_append_right
    refine { h with
      conserved := ⟨insert waiter holders, ?_, ?_⟩, ordered := ?_, waits := ?_, fresh := ?_ }
    · grind
    · rw [Finset.card_insert_of_notMem (by grind)]
      dsimp only at count ⊢
      omega
    · simpa using h.ordered
    · grind [h.waits]
    · grind [h.fresh]
  | case2 s available waiters other =>
    refine { h with settled := fun free => ?_ }
    match available, waiters with
    | _ + 1, [] => rfl
    | n + 1, w :: ws => exact (other n w ws rfl rfl).elim

section

variable (h : Sound capacity s) {call : Nat} {phase : AcquirePhase}

include h

/-- A call goes on and holds what it held. -/
theorem Sound.turn
    (same : { s with phase := update s.phase call phase }.Holds call ↔ s.Holds call)
    (waits : call ∈ s.waiters → phase = .leaving) (inside : phase ≠ .outside) :
  Sound capacity { s with phase := update s.phase call phase }
  := by
  obtain ⟨holders, held, count⟩ := h.conserved
  refine { h with conserved := ⟨holders, ?_, count⟩, waits := ?_, fresh := ?_ }
  · grind
  · grind [h.waits]
  · grind [h.fresh]

theorem Sound.giveBack (holds : s.Holds call) (gone : phase = .failed ∨ phase = .released) :
  Accounted capacity { s with available := s.available + 1, phase := update s.phase call phase }
  := by
  obtain ⟨holders, held, count⟩ := h.conserved
  refine { h with conserved := ⟨holders.erase call, ?_, ?_⟩, waits := ?_, fresh := ?_ }
  · grind
  · have := Finset.card_erase_add_one ((held call).mpr holds)
    dsimp only
    omega
  · grind [h.waits]
  · grind [h.fresh]

theorem Sound.step (action : Action) :
  Sound capacity (s.step action)
  := by
  obtain ⟨holders, held, count⟩ := h.conserved
  fun_cases PermitLimiter.step s action with
  | case2 call =>
    have waits := h.waits call
    exact h.turn (by grind) (by grind) nofun
  | case3 call =>
    refine { h with
      conserved := ⟨insert call holders, ?_, ?_⟩, waits := ?_, fresh := ?_, settled := ?_ }
    · grind
    · rw [Finset.card_insert_of_notMem (by grind)]
      dsimp only
      omega
    · grind
    · grind [h.fresh]
    · grind
  | case4 call canceled outside =>
    refine ⟨⟨⟨holders, ?_, count⟩, ?_, ?_, ?_, ?_⟩, ?_⟩
    · grind [h.fresh]
    · simpa using h.ordered.append_right [call]
    · exact nodup_append_comm.mp (nodup_cons.mpr ⟨(h.fresh call (by grind)).2, h.distinct⟩)
    · grind [h.waits, h.fresh]
    · grind [h.fresh]
    · grind [h.settled]
  | case5 => exact h.turn (by grind) (by grind [h.waits]) nofun
  | case7 => exact h.turn (by grind) (by grind) nofun
  | case10 => exact (h.giveBack (by grind) (.inl rfl)).granting
  | case11 =>
    apply Accounted.granting
    refine { h with conserved := ⟨holders, ?_, count⟩, ordered := ?_, waits := ?_, fresh := ?_ }
    · grind
    · exact (erase_sublist.append_left _).trans h.ordered
    · grind [h.waits, (h.ordered.nodup h.distinct).of_append_right]
    · grind [h.fresh]
  | case12 => exact (h.giveBack (by grind) (.inr rfl)).granting
  | _ => exact h

end

@[simp]
theorem phase_grantWaitersLocked :
  s.grantWaitersLocked.phase = s.phase
  := by
  unfold grantWaitersLocked
  fun_induction grantWaiters s s.available s.waiters with
  | case1 _ _ _ _ ih => exact ih
  | case2 => rfl

/-- A call is in `acquire` or has a permit. -/
def Asks (s : PermitLimiter) (call : Nat) : Prop :=
  s.phase call = .selecting ∨ s.phase call = .leaving ∨ s.phase call = .holding

theorem asks_of_step {a : Action} {call : Nat} (asks : (s.step a).Asks call) :
  s.Asks call ∨ a = .acquire call false
  := by
  unfold Asks at *
  revert asks
  fun_cases PermitLimiter.step s a with
  | case10 | case11 | case12 =>
    rw [phase_grantWaitersLocked]
    grind
  | _ => grind

theorem acquire_of_asks (capacity : Nat) {actions : List Action} {call : Nat}
    (asks : (run capacity actions).Asks call) :
  .acquire call false ∈ actions
  := by
  induction actions using reverseRecOn with
  | nil => simp [run, Asks] at asks
  | append_singleton actions a ih =>
    rw [run, foldl_append] at asks
    rcases asks_of_step asks with before | rfl
    · exact mem_append_left _ (ih before)
    · simp

/-- The head of the line gets the permit that is given back. -/
theorem Sound.release (h : Sound capacity s) {call waiter : Nat} {waiters : List Nat}
    (holds : s.phase call = .holding) (line : s.waiters = waiter :: waiters) :
  (s.step (.release call)).waiters = waiters ∧
    (s.step (.release call)).grants = s.grants ++ [waiter] ∧
    (s.step (.release call)).Holds waiter ∧ ¬ (s.step (.release call)).Holds call
  := by
  have empty : s.available = 0 := by
    have := h.settled
    grind
  have waits := h.waits waiter (by simp [line])
  have done (s : PermitLimiter) :
      s.grantWaiters 0 waiters = { s with available := 0, waiters } := by
    cases waiters <;> rfl
  rw [PermitLimiter.step, if_pos holds, grantWaitersLocked]
  dsimp only
  rw [empty, line, grantWaiters, done]
  refine ⟨rfl, rfl, ?_, ?_⟩ <;> grind

/-- Whatever happens: the permits that are available and those that are held are all there are, and
are held by calls that were made; nobody waits while one is available, the line is served in the
order in which it was joined, its head gets a permit that is given back, and a call that has failed
holds nothing and does not wait. -/
theorem permits_conserved (capacity : Nat) (actions : List Action) :
  let s := run capacity actions
  (∃ holders : Finset Nat, (∀ call, call ∈ holders ↔ s.Holds call) ∧
    s.available + holders.card = capacity) ∧
  (0 < s.available → s.waiters = []) ∧
  s.joined.Nodup ∧ (s.grants ++ s.waiters).Sublist s.joined ∧
  (∀ call, s.phase call = .failed → ¬ s.Holds call ∧ call ∉ s.waiters) ∧
  (∀ call, s.Holds call → .acquire call false ∈ actions) ∧
  ∀ call waiter waiters, s.phase call = .holding → s.waiters = waiter :: waiters →
    (s.step (.release call)).waiters = waiters ∧
      (s.step (.release call)).grants = s.grants ++ [waiter] ∧
      (s.step (.release call)).Holds waiter ∧ ¬ (s.step (.release call)).Holds call
  := by
  have sound : Sound capacity (run capacity actions) := by
    apply foldlRecOn
    · constructor <;> try constructor
      all_goals simp [Holds]
    · exact fun s sound action _ => sound.step action
  refine ⟨sound.conserved, sound.settled, sound.distinct, sound.ordered, fun call failed => ?_,
    fun call holds => acquire_of_asks capacity ?_, fun _ _ _ => sound.release⟩
  · have waits := sound.waits call
    grind
  · unfold Asks
    grind

end PermitLimiter

end Xflow
