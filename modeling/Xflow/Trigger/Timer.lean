import Mathlib.Algebra.Order.Group.Unbundled.Int
import Mathlib.Data.List.TFAE
import Xflow.Lib.Keys

/-!
# The timer trigger

A tick of a timer is a delivery of its ticker, truncated to the interval.  The embedded engine knows
it by the identifier of its event, which names the nanosecond, and the control plane by its fire
key, which names the second.  Instants are nanoseconds since the zero time.
-/

namespace Xflow

namespace Timer

def second : Int := 1000000000

def unixEpoch : Int := 62135596800 * second

/-- `Time.Unix`. -/
def unix (t : Int) : Int := (t - unixEpoch) / second

/-- `Time.UnixNano`, which has 64 bits. -/
def unixNano (t : Int) : Int := (t - unixEpoch).bmod (2 ^ 64)

/-- `TriggerActivateInput`, as far as the identity of a tick depends on it. -/
structure TriggerActivateInput where
  workflowID : String
  nodeName : String
  /-- The parameter `entry_unit_id`, empty if it is not a string. -/
  entryUnit : String := ""

variable (input : TriggerActivateInput) (interval : Int)

def entryUnitID : String :=
  if input.entryUnit ≠ "" then input.entryUnit else input.nodeName

def kindTimer : String := "timer"

def fireKey (workflowID entryUnitID kind id : String) : String :=
  "trigger:" ++ workflowID ++ ":" ++ entryUnitID ++ ":" ++ kind ++ ":" ++ id

def scheduledTick (tick : Int) : Int :=
  if 0 < interval then tick - tick % interval else tick

structure TriggerEvent where
  id : String
  kind : String
  source : String
  time : Int
  /-- `scheduled_time` of the data, before it is rendered. -/
  scheduledTime : Int

def newTimerTriggerEvent (tick observed : Int) : TriggerEvent where
  id := input.workflowID ++ "/" ++ input.nodeName ++ "/" ++
    toString (unixNano (scheduledTick interval tick))
  kind := "timer"
  source := input.nodeName
  time := observed
  scheduledTime := scheduledTick interval tick

/-- The admission key of the request that `activateEntrySeed` makes for a delivery. -/
def admissionKey (tick : Int) : String :=
  fireKey input.workflowID (entryUnitID input) kindTimer
    (toString (unix (scheduledTick interval tick)))

/-- The nanoseconds of an instant fit into 64 bits. -/
def Nameable (t : Int) : Prop := -2 ^ 63 ≤ t - unixEpoch ∧ t - unixEpoch < 2 ^ 63

instance (t : Int) : Decidable (Nameable t) := instDecidableAnd

variable {interval} {t₁ t₂ : Int}

theorem unixNano_inj (h₁ : Nameable t₁) (h₂ : Nameable t₂) :
  unixNano t₁ = unixNano t₂ ↔ t₁ = t₂
  := by
  constructor
  · intro same
    unfold unixNano at same
    unfold Nameable at h₁ h₂
    rw [Int.bmod_eq_of_le (by omega) (by omega), Int.bmod_eq_of_le (by omega) (by omega)] at same
    omega
  · rintro rfl
    rfl

theorem dvd_scheduledTick (h : 0 < interval) (t : Int) :
  interval ∣ scheduledTick interval t
  := by
  rw [scheduledTick, if_pos h]
  apply Int.dvd_self_sub_emod

/-- Points of a grid that is not finer than a second do not share one. -/
theorem unix_scheduledTick (h : second ≤ interval) :
  unix (scheduledTick interval t₁) = unix (scheduledTick interval t₂)
    ↔ scheduledTick interval t₁ = scheduledTick interval t₂
  := by
  constructor
  · intro same
    have near : |scheduledTick interval t₁ - scheduledTick interval t₂| < interval := by
      unfold unix second at same
      unfold second at h
      rw [abs_lt]
      omega
    have hpos : 0 < interval := lt_of_lt_of_le (by decide) h
    apply Int.eq_of_sub_eq_zero
    apply Int.eq_zero_of_abs_lt_dvd _ near
    exact Int.dvd_sub (dvd_scheduledTick hpos t₁) (dvd_scheduledTick hpos t₂)
  · intro same
    rw [same]

/-- A grid that is finer than a second has two points in one: one at the beginning of a second, and
the next. -/
theorem exists_shared_second (h : 0 < interval) (fine : interval < second) :
  ∃ t, scheduledTick interval t = t ∧ scheduledTick interval (t + interval) = t + interval ∧
    unix (t + interval) = unix t ∧ Nameable t ∧ Nameable (t + interval)
  := by
  have hpos : 0 < interval * second := Int.mul_pos h (by decide)
  have hsmall : interval * second ≤ second * second :=
    Int.mul_le_mul_of_nonneg_right (Int.le_of_lt fine) (by decide)
  have hmod := Int.emod_lt_of_pos (unixEpoch + interval * second) hpos
  have hmod' := Int.emod_nonneg (unixEpoch + interval * second) (Int.ne_of_gt hpos)
  have hdvd := dvd_scheduledTick hpos (unixEpoch + interval * second)
  have ht : scheduledTick (interval * second) (unixEpoch + interval * second)
      = unixEpoch + interval * second - (unixEpoch + interval * second) % (interval * second) := by
    rw [scheduledTick, if_pos hpos]
  generalize scheduledTick (interval * second) (unixEpoch + interval * second) = t at hdvd ht
  generalize (unixEpoch + interval * second) % (interval * second) = r at hmod hmod' ht
  have onGrid : t % interval = 0 :=
    Int.emod_eq_zero_of_dvd (Int.dvd_trans (Int.dvd_mul_right interval second) hdvd)
  have onSecond : second ∣ t := Int.dvd_trans (Int.dvd_mul_left interval second) hdvd
  generalize interval * second = n at hmod hsmall ht
  unfold Nameable unix
  unfold second at hsmall fine onSecond ⊢
  refine ⟨t, ?_, ?_, ?_, ?_⟩
  · rw [scheduledTick, if_pos h, onGrid, Int.sub_zero]
  · rw [scheduledTick, if_pos h, Int.add_emod_right, onGrid, Int.sub_zero]
  · unfold unixEpoch second
    omega
  · omega

/-- That of any two deliveries the events have one identifier exactly if the fire keys are equal and
exactly if they are of one tick, means that the interval is a second at least. -/
theorem tick_identities_agree (h : 0 < interval) :
  (∀ t₁ t₂ observed₁ observed₂ : Int,
    Nameable (scheduledTick interval t₁) → Nameable (scheduledTick interval t₂) →
    [(newTimerTriggerEvent input interval t₁ observed₁).id
        = (newTimerTriggerEvent input interval t₂ observed₂).id,
      admissionKey input interval t₁ = admissionKey input interval t₂,
      scheduledTick interval t₁ = scheduledTick interval t₂].TFAE)
    ↔ second ≤ interval
  := by
  constructor
  · intro agree
    by_contra fine
    obtain ⟨t, first, next, same, h₁, h₂⟩ := exists_shared_second h (by omega)
    have folded := (agree (t + interval) t 0 0 (by rwa [next]) (by rwa [first])).out 1 2
    rw [admissionKey, admissionKey, next, first, same] at folded
    have := folded.mp rfl
    omega
  · intro coarse t₁ t₂ observed₁ observed₂ h₁ h₂
    have render {i j : Int} (s : String) : s ++ toString i = s ++ toString j ↔ i = j := by
      rw [String.append_right_inj]
      exact ⟨Keys.toString_int_inj, congrArg _⟩
    unfold newTimerTriggerEvent admissionKey fireKey
    rw [render, render, unixNano_inj h₁ h₂, unix_scheduledTick coarse]
    simp

/-- Deliveries of an interval of a second and a half agree, those of half a second do not. -/
theorem tick_identities_agree_sample :
  let input : TriggerActivateInput := { workflowID := "w", nodeName := "n" }
  let Agree (interval : Int) : Prop := ∀ t₁ t₂ observed₁ observed₂ : Int,
    Nameable (scheduledTick interval t₁) → Nameable (scheduledTick interval t₂) →
    [(newTimerTriggerEvent input interval t₁ observed₁).id
        = (newTimerTriggerEvent input interval t₂ observed₂).id,
      admissionKey input interval t₁ = admissionKey input interval t₂,
      scheduledTick interval t₁ = scheduledTick interval t₂].TFAE
  Agree 1500000000 ∧ ¬ Agree 500000000
  := by
  intro input Agree
  constructor
  · exact (tick_identities_agree input (by decide)).mpr (by decide)
  · exact fun agree => absurd ((tick_identities_agree input (by decide)).mp agree) (by decide)

/-- The ticks of an interval of half a second that lie in one second have one fire key. -/
theorem half_second_ticks_share_key :
  let input : TriggerActivateInput := { workflowID := "w", nodeName := "n" }
  let half : Int := 500000000
  (newTimerTriggerEvent input half unixEpoch 0).id
      ≠ (newTimerTriggerEvent input half (unixEpoch + half) 0).id ∧
    admissionKey input half unixEpoch = admissionKey input half (unixEpoch + half) ∧
    scheduledTick half unixEpoch ≠ scheduledTick half (unixEpoch + half)
  := by
  refine ⟨?_, rfl, by decide⟩
  intro same
  have := Keys.toString_int_inj ((String.append_right_inj _).mp same)
  revert this
  decide

end Timer

end Xflow
