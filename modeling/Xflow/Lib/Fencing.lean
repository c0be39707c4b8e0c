import Mathlib.Data.List.Pairwise
import Mathlib.Order.Lattice

/-!
# Fencing by grants

A record is held under a grant, which its holder shows to settle it; a grant may be withdrawn, and
the record is then granted again.  Records are settled once per activation, and a new activation
opens them again.  A trace is the list of what happened to a record, the latest first.
-/

namespace Fencing

open List

variable {K A T : Type*}

/-- What a holder shows: a key, the attempt and the activation it was granted for. -/
structure Grant (K A T : Type*) where
  key : K
  attempt : T
  activation : A
  deriving DecidableEq

inductive Phase where
  | held
  | idle
  | settled
  deriving DecidableEq

/-- A record with its last grant. -/
structure Row (K A T : Type*) where
  phase : Phase
  grant : Grant K A T

inductive Event (K A T : Type*) where
  | granted (grant : Grant K A T)
  | withdrawn
  /-- The record was settled by the holder of a grant, or without one. -/
  | settled (activation : A) (holder : Option (Grant K A T))
  | quiet

/-- The last grant that was not withdrawn. -/
def openGrant : List (Event K A T) → Option (Grant K A T)
  | [] => none
  | .granted grant :: _ => some grant
  | .withdrawn :: _ => none
  | _ :: past => openGrant past

/-- The grants of a trace. -/
def grants (past : List (Event K A T)) : List (Grant K A T) :=
  past.filterMap (fun | .granted grant => some grant | _ => none)

/-- The activations that were settled. -/
def settledActivations (past : List (Event K A T)) : List A :=
  past.filterMap (fun | .settled activation _ => some activation | _ => none)

variable {past : List (Event K A T)} {row : Option (Row K A T)} {grant : Grant K A T}

variable {activation : A}

variable [LinearOrder A] [LinearOrder T] {row row' : Option (Row K A T)}
  {holder : Option (Grant K A T)}

/-- What each event does to a record. -/
inductive Step : Option (Row K A T) → Event K A T → Option (Row K A T) → Prop
  | quiet {row : Option (Row K A T)} : Step row .quiet row
  | grant {row : Option (Row K A T)} {grant : Grant K A T}
      (fresh : ∀ old ∈ row, old.grant.activation ≤ grant.activation ∧
        (old.phase = .settled → old.grant.activation < grant.activation) ∧
        (old.grant.activation = grant.activation → old.grant.attempt < grant.attempt)) :
      Step row (.granted grant) (some ⟨.held, grant⟩)
  | withdraw {row row' : Row K A T} (held : row.phase = .held) (idle : row'.phase = .idle)
      (attempt : row'.grant.attempt = row.grant.attempt)
      (activation : row'.grant.activation = row.grant.activation) :
      Step (some row) .withdrawn (some row')
  | settle {row row' : Row K A T} (held : row.phase = .held) (settled : row'.phase = .settled)
      (activation : row'.grant.activation = row.grant.activation) :
      Step (some row) (.settled row.grant.activation (some row.grant)) (some row')
  | settleAlone {row : Option (Row K A T)} {row' : Row K A T}
      (fresh : ∀ old ∈ row, old.phase ≠ .settled ∧ old.grant.activation ≤ row'.grant.activation)
      (settled : row'.phase = .settled) :
      Step row (.settled row'.grant.activation none) (some row')

theorem Step.phase
    (step : Step row (.settled activation holder) row') :
  ∀ r ∈ row', r.phase = .settled
  := by
  cases step with
  | settle held settled => simpa using settled
  | settleAlone fresh settled => simpa using settled

/-- The record after the events of a trace; it was absent before them. -/
inductive Trace : Option (Row K A T) → List (Event K A T) → Prop
  | nil : Trace none []
  | cons {row row' : Option (Row K A T)} {event : Event K A T} {past : List (Event K A T)}
      (trace : Trace row past) (step : Step row event row') : Trace row' (event :: past)

/-- What the record tells of its trace. -/
structure Recorded (row : Option (Row K A T)) (past : List (Event K A T)) : Prop where
  held : ∀ r ∈ row, r.phase = .held → openGrant past = some r.grant
  granted : ∀ grant ∈ grants past, ∃ r ∈ row, grant.activation ≤ r.grant.activation ∧
    (r.phase ≠ .settled → grant.activation = r.grant.activation →
      grant.attempt ≤ r.grant.attempt)
  settled : ∀ activation ∈ settledActivations past, ∃ r ∈ row,
    activation ≤ r.grant.activation ∧ (r.phase ≠ .settled → activation < r.grant.activation)

theorem Recorded.outrun {earlier : Grant K A T}
    (h : Recorded row past) (step : Step row (.granted grant) row') (mem : earlier ∈ grants past)
    (same : earlier.activation = grant.activation) :
  earlier.attempt < grant.attempt
  := by
  cases step with
  | grant fresh =>
    obtain ⟨r, hr, hle, hattempt⟩ := h.granted earlier mem
    obtain ⟨hmono, hsettled, hmore⟩ := fresh r hr
    have hact := le_antisymm hmono (same ▸ hle)
    have hopen : r.phase ≠ .settled := fun hphase => (hsettled hphase).ne hact
    exact lt_of_le_of_lt (hattempt hopen (same.trans hact.symm)) (hmore hact)

theorem Recorded.settle {r' : Row K A T}
    (h : Recorded row past) (settled : r'.phase = .settled)
    (up : ∀ r ∈ row, r.grant.activation ≤ r'.grant.activation) :
  Recorded (some r') (.settled r'.grant.activation holder :: past)
  := by
  constructor
  · rintro _ ⟨⟩ hheld
    rw [settled] at hheld
    cases hheld
  · intro g hg
    obtain ⟨r, hr, hle, -⟩ := h.granted g hg
    exact ⟨r', rfl, le_trans hle (up r hr), absurd settled⟩
  · intro a ha
    rcases mem_cons.mp ha with rfl | hold
    · exact ⟨r', rfl, le_refl _, absurd settled⟩
    · obtain ⟨r, hr, hle, -⟩ := h.settled a hold
      exact ⟨r', rfl, le_trans hle (up r hr), absurd settled⟩

theorem Recorded.step {event : Event K A T}
    (h : Recorded row past) (step : Step row event row') :
  Recorded row' (event :: past)
  := by
  cases step with
  | quiet => exact { h with }
  | @grant _ grant fresh =>
    constructor
    · rintro _ ⟨⟩ -
      rfl
    · intro g hg
      use ⟨.held, grant⟩, rfl
      rcases mem_cons.mp hg with rfl | hold
      · exact ⟨le_refl _, fun _ _ => le_refl _⟩
      · obtain ⟨r, hr, hle, -⟩ := h.granted g hold
        exact ⟨le_trans hle (fresh r hr).1, fun _ same => (h.outrun (.grant fresh) hold same).le⟩
    · intro activation hact
      use ⟨.held, grant⟩, rfl
      obtain ⟨r, hr, hle, hlt⟩ := h.settled activation hact
      obtain ⟨hmono, hsettled, -⟩ := fresh r hr
      have hless : activation < grant.activation := by grind
      exact ⟨hless.le, fun _ => hless⟩
  | @withdraw r r' held idle attempt activation =>
    constructor
    · rintro _ ⟨⟩ hheld
      rw [idle] at hheld
      cases hheld
    · intro g hg
      obtain ⟨_, ⟨⟩, hle, hattempt⟩ := h.granted g hg
      use r', rfl
      rw [activation, attempt]
      exact ⟨hle, fun _ => hattempt (by simp [held])⟩
    · intro a ha
      obtain ⟨_, ⟨⟩, hle, hlt⟩ := h.settled a ha
      use r', rfl
      rw [activation]
      exact ⟨hle, fun _ => hlt (by simp [held])⟩
  | settle held settled activation =>
    rw [← activation]
    exact h.settle settled (by rintro _ ⟨⟩; exact activation.ge)
  | settleAlone fresh settled => exact h.settle settled (fun r hr => (fresh r hr).2)

theorem Trace.recorded (trace : Trace row past) :
  Recorded row past
  := by
  induction trace with
  | nil => constructor <;> simp [grants, settledActivations]
  | cons _ step ih => apply ih.step step

theorem Trace.settled_by_holder {later earlier : List (Event K A T)}
    (trace : Trace row (later ++ .settled activation (some grant) :: earlier)) :
  openGrant earlier = some grant ∧ grant.activation = activation
  := by
  generalize hpast : later ++ .settled activation (some grant) :: earlier = past at trace
  induction trace generalizing later with
  | nil => simp at hpast
  | cons trace step ih =>
    cases later with
    | nil =>
      obtain ⟨rfl, rfl⟩ := hpast
      cases step with
      | settle held => exact ⟨trace.recorded.held _ rfl held, rfl⟩
    | cons event later =>
      simp only [cons_append, cons.injEq] at hpast
      apply ih hpast.2

theorem Trace.settled_nodup (trace : Trace row past) :
  (settledActivations past).Nodup
  := by
  induction trace with
  | nil => exact nodup_nil
  | cons trace step ih =>
    cases step with
    | quiet | grant | withdraw => exact ih
    | settle held =>
      refine nodup_cons.mpr ⟨?_, ih⟩
      intro hmem
      obtain ⟨_, ⟨⟩, -, hlt⟩ := trace.recorded.settled _ hmem
      exact (hlt (by simp [held])).false
    | settleAlone fresh =>
      refine nodup_cons.mpr ⟨?_, ih⟩
      intro hmem
      obtain ⟨r, hr, -, hlt⟩ := trace.recorded.settled _ hmem
      obtain ⟨hopen, hle⟩ := fresh r hr
      exact (lt_of_lt_of_le (hlt hopen) hle).false

theorem Trace.attempts_increase (trace : Trace row past) :
  (grants past).Pairwise (fun later earlier =>
    later.activation = earlier.activation → earlier.attempt < later.attempt)
  := by
  induction trace with
  | nil => exact List.Pairwise.nil
  | cons trace step ih =>
    cases step with
    | quiet | settle | settleAlone | withdraw => exact ih
    | grant fresh =>
      refine pairwise_cons.mpr ⟨?_, ih⟩
      exact fun earlier hmem heq => trace.recorded.outrun (.grant fresh) hmem heq.symm

end Fencing
