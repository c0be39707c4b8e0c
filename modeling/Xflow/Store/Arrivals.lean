import Xflow.Graph.Arrivals
import Xflow.Store.State

/-!
# Folding arrivals into the counters

What `applyArrivals` does to the state: each arrival takes its edges off the in-degree of its unit
and adds the active ones to its active inputs, markers are written once, and every marker that is
written comes with an intent.  An arrival that leaves no in-degree behind leaves a marker
(`applyArrivals_decides`).
-/

namespace Xflow

open Function Int List

namespace MemoryState

variable {s : MemoryState} {act depth : Int} {a : DownstreamArrival}
  {arrivals : List DownstreamArrival}

/-! ### One arrival -/

/-- The marker that an arrival writes, `none` if it writes none. -/
def decision (s : MemoryState) (a : DownstreamArrival) : Marker :=
  if a.arrivalCount ≤ 0 ∨ s.scheduled a.unitIdx ≠ .none then .none
  else (s.countArrival a).schedule a (s.activeIns a.unitIdx)

@[simp]
theorem countArrival_scheduled :
  (s.countArrival a).scheduled = s.scheduled
  := by
  rfl

attribute [local simp] countArrival

theorem applyArrival_fst :
  (s.applyArrival act depth a).1 =
    { s with
      inDegrees := if a.arrivalCount ≤ 0 then s.inDegrees else (s.countArrival a).inDegrees
      activeIns := if a.arrivalCount ≤ 0 then s.activeIns else (s.countArrival a).activeIns
      scheduled :=
        if s.decision a = .none then s.scheduled
        else update s.scheduled a.unitIdx (s.decision a)
      outbox :=
        if s.decision a = .none then s.outbox
        else putEntry s.outbox (arrivalEntry s.id act depth a (s.decision a)) }
  := by
  unfold applyArrival decision
  by_cases hcount : a.arrivalCount ≤ 0
  · simp [hcount]
  · by_cases hmark : s.scheduled a.unitIdx = .none
    · by_cases hsched : (s.countArrival a).schedule a (s.activeIns a.unitIdx) = .none
      all_goals
        simp only [hcount, hmark, hsched, countArrival_scheduled, if_false, ne_eq,
          not_true_eq_false, or_self]
        rfl
    · simp [hcount, hmark]

theorem applyArrival_inDegrees (hcount : 0 < a.arrivalCount) :
  (s.applyArrival act depth a).1.inDegrees
    = update s.inDegrees a.unitIdx (s.inDegrees a.unitIdx - a.arrivalCount)
  := by
  rw [applyArrival_fst]
  simp [not_le.mpr hcount]

theorem applyArrival_activeIns (hcount : 0 < a.arrivalCount) (hactive : 0 ≤ a.activeCount) :
  (s.applyArrival act depth a).1.activeIns
    = update s.activeIns a.unitIdx (s.activeIns a.unitIdx + a.activeCount)
  := by
  rw [applyArrival_fst]
  simp only [not_le.mpr hcount, if_false, countArrival]
  split
  · rfl
  · have hzero : a.activeCount = 0 := by omega
    simp [hzero]

theorem applyArrival_outbox :
  (s.applyArrival act depth a).1.outbox
    = if s.decision a = .none then s.outbox
      else putEntry s.outbox (arrivalEntry s.id act depth a (s.decision a))
  := by
  rw [applyArrival_fst]

theorem decision_of_scheduled (h : s.scheduled a.unitIdx ≠ .none) :
  s.decision a = .none
  := by
  rw [decision, if_pos (.inr h)]

/-- Only `execute` and `skip` are decided. -/
theorem decision_ne_seed :
  s.decision a ≠ .seed
  := by
  unfold decision schedule
  repeat' split
  all_goals simp

theorem applyArrival_scheduled_apply (d : Int) :
  (s.applyArrival act depth a).1.scheduled d
    = if s.decision a ≠ .none ∧ d = a.unitIdx then s.decision a else s.scheduled d
  := by
  rw [applyArrival_fst]
  by_cases h : s.decision a = .none
  · simp [h]
  · simp [h, update_apply]

/-! ### All arrivals -/

theorem applyArrivals_fst :
  (applyArrivals act depth arrivals s).1
    = arrivals.foldl (fun s a => (s.applyArrival act depth a).1) s
  := by
  induction arrivals generalizing s with
  | nil => rfl
  | cons a arrivals ih =>
    rw [foldl_cons, ← ih]
    simp only [applyArrivals]
    split <;> rfl

@[simp]
theorem applyArrivals_nil :
  (applyArrivals act depth [] s).1 = s
  := by
  rfl

theorem applyArrivals_cons :
  (applyArrivals act depth (a :: arrivals) s).1
    = (applyArrivals act depth arrivals (s.applyArrival act depth a).1).1
  := by
  rw [applyArrivals_fst, applyArrivals_fst, foldl_cons]

theorem applyArrivals_induction {P : MemoryState → Prop} (h : P s)
    (step : ∀ s, ∀ a ∈ arrivals, P s → P (s.applyArrival act depth a).1) :
  P (applyArrivals act depth arrivals s).1
  := by
  induction arrivals generalizing s with
  | nil => apply h
  | cons a arrivals ih =>
    rw [applyArrivals_cons]
    apply ih
    · apply step s a mem_cons_self h
    · intro s b hb
      apply step s b (mem_cons_of_mem a hb)

theorem applyArrivals_frame :
  (applyArrivals act depth arrivals s).1 =
    { s with
      inDegrees := (applyArrivals act depth arrivals s).1.inDegrees
      activeIns := (applyArrivals act depth arrivals s).1.activeIns
      scheduled := (applyArrivals act depth arrivals s).1.scheduled
      outbox := (applyArrivals act depth arrivals s).1.outbox }
  := by
  apply applyArrivals_induction (P := fun t => t = { s with
      inDegrees := t.inDegrees, activeIns := t.activeIns, scheduled := t.scheduled,
      outbox := t.outbox })
  · rfl
  · intro t b _ ht
    rw [applyArrival_fst]
    rw [ht]

@[simp]
theorem applyArrivals_id :
  (applyArrivals act depth arrivals s).1.id = s.id
  := by
  rw [applyArrivals_frame]

@[simp]
theorem applyArrivals_execution :
  (applyArrivals act depth arrivals s).1.execution = s.execution
  := by
  rw [applyArrivals_frame]

@[simp]
theorem applyArrivals_nodes :
  (applyArrivals act depth arrivals s).1.nodes = s.nodes
  := by
  rw [applyArrivals_frame]

@[simp]
theorem applyArrivals_remaining :
  (applyArrivals act depth arrivals s).1.remaining = s.remaining
  := by
  rw [applyArrivals_frame]

@[simp]
theorem applyArrivals_failed :
  (applyArrivals act depth arrivals s).1.failed = s.failed
  := by
  rw [applyArrivals_frame]

@[simp]
theorem applyArrivals_groupUnits :
  (applyArrivals act depth arrivals s).1.groupUnits = s.groupUnits
  := by
  rw [applyArrivals_frame]

/-! ### Counters -/

/-- The edges that arrivals take off the in-degree of a unit; arrivals without edges do not count.
-/
def takenOff (arrivals : List DownstreamArrival) (d : Int) : Int :=
  (arrivals.map (fun a => if a.unitIdx = d ∧ 0 < a.arrivalCount then a.arrivalCount else 0)).sum

/-- The active edges that arrivals add to the active inputs of a unit. -/
def turnedActive (arrivals : List DownstreamArrival) (d : Int) : Int :=
  (arrivals.map (fun a =>
    if a.unitIdx = d ∧ 0 < a.arrivalCount ∧ 0 < a.activeCount then a.activeCount else 0)).sum

theorem inDegrees_takenOff (d : Int) :
  (applyArrivals act depth arrivals s).1.inDegrees d = s.inDegrees d - takenOff arrivals d
  := by
  induction arrivals generalizing s with
  | nil => simp [takenOff]
  | cons a arrivals ih =>
    rw [applyArrivals_cons, ih, applyArrival_fst]
    simp only [takenOff, map_cons, sum_cons]
    by_cases hcount : a.arrivalCount ≤ 0
    · simp [hcount]
    · by_cases hd : a.unitIdx = d
      · subst hd
        simp only [hcount, if_false, countArrival, update_self, not_le.mp hcount,
          and_self, if_true]
        omega
      · simp [hcount, hd, update_of_ne (Ne.symm hd)]

theorem activeIns_turnedActive (d : Int) :
  (applyArrivals act depth arrivals s).1.activeIns d = s.activeIns d + turnedActive arrivals d
  := by
  induction arrivals generalizing s with
  | nil => simp [turnedActive]
  | cons a arrivals ih =>
    rw [applyArrivals_cons, ih, applyArrival_fst]
    simp only [turnedActive, map_cons, sum_cons]
    by_cases hcount : a.arrivalCount ≤ 0
    · simp [hcount]
    · by_cases hactive : 0 < a.activeCount
      · by_cases hd : a.unitIdx = d
        · subst hd
          simp only [hcount, if_false, countArrival, hactive, if_true, update_self,
            not_le.mp hcount, and_self]
          omega
        · simp [hcount, hactive, hd, update_of_ne (Ne.symm hd)]
      · simp [hactive]

theorem applyArrivals_inDegrees (hcount : ∀ a ∈ arrivals, 0 < a.arrivalCount) (d : Int) :
  (applyArrivals act depth arrivals s).1.inDegrees d = s.inDegrees d - arrivedAt arrivals d
  := by
  rw [inDegrees_takenOff]
  congr 1
  induction arrivals with
  | nil => rfl
  | cons a arrivals ih =>
    rw [forall_mem_cons] at hcount
    rw [arrivedAt_cons, ← ih hcount.2]
    simp [takenOff, hcount.1]

theorem applyArrivals_activeIns (hcount : ∀ a ∈ arrivals, 0 < a.arrivalCount)
    (hactive : ∀ a ∈ arrivals, 0 ≤ a.activeCount) (d : Int) :
  (applyArrivals act depth arrivals s).1.activeIns d = s.activeIns d + activeAt arrivals d
  := by
  rw [activeIns_turnedActive]
  congr 1
  induction arrivals with
  | nil => rfl
  | cons a arrivals ih =>
    rw [forall_mem_cons] at hcount hactive
    rw [activeAt_cons, ← ih hcount.2 hactive.2]
    rcases hactive.1.eq_or_lt with none | some
    · simp [turnedActive, ← none]
    · simp [turnedActive, hcount.1, some]

/-! ### Markers -/

variable {mergeMode : String} {d : Int} {inDegree activeIn : Int} {e : OutboxEntry}

theorem applyArrival_scheduled_of_ne (h : s.scheduled d ≠ .none) :
  (s.applyArrival act depth a).1.scheduled d = s.scheduled d
  := by
  rw [applyArrival_scheduled_apply]
  split
  · rename_i hd
    obtain ⟨hne, rfl⟩ := hd
    exact absurd (decision_of_scheduled h) hne
  · rfl

theorem applyArrivals_scheduled_of_ne (h : s.scheduled d ≠ .none) :
  (applyArrivals act depth arrivals s).1.scheduled d = s.scheduled d
  := by
  apply applyArrivals_induction (P := fun t => t.scheduled d = s.scheduled d) rfl
  intro t b _ ht
  rw [applyArrival_scheduled_of_ne (by rwa [ht]), ht]

theorem applyArrivals_ne_seed (h : s.scheduled d ≠ .seed) :
  (applyArrivals act depth arrivals s).1.scheduled d ≠ .seed
  := by
  apply applyArrivals_induction (P := fun t => t.scheduled d ≠ .seed) h
  intro t b _ ht
  rw [applyArrival_scheduled_apply]
  split
  · apply decision_ne_seed
  · exact ht

theorem applyArrival_decides (hcount : 0 < a.arrivalCount)
    (hzero : s.inDegrees a.unitIdx - a.arrivalCount ≤ 0) :
  (s.applyArrival act depth a).1.scheduled a.unitIdx ≠ .none
  := by
  by_cases hmark : s.scheduled a.unitIdx = .none
  · have hdecision : s.decision a ≠ .none := by
      rw [decision, if_neg (by simp [hmark, hcount])]
      unfold schedule
      split
      · simp
      · rw [if_pos (by simpa using hzero)]
        split <;> simp
    rw [applyArrival_scheduled_apply, if_pos ⟨hdecision, rfl⟩]
    apply hdecision
  · rwa [applyArrival_scheduled_of_ne hmark]

theorem applyArrivals_decides (hcount : ∀ a ∈ arrivals, 0 < a.arrivalCount)
    (hd : ∃ a ∈ arrivals, a.unitIdx = d)
    (hzero : (applyArrivals act depth arrivals s).1.inDegrees d ≤ 0) :
  (applyArrivals act depth arrivals s).1.scheduled d ≠ .none
  := by
  -- By induction from the left: either some later arrival is at `d`, or this is the last one and
  -- sees the final in-degree.
  induction arrivals generalizing s with
  | nil => simp at hd
  | cons a arrivals ih =>
    have hcount' : ∀ b ∈ arrivals, 0 < b.arrivalCount := fun b hb => hcount b (mem_cons_of_mem a hb)
    rw [applyArrivals_cons] at hzero ⊢
    by_cases hlater : ∃ b ∈ arrivals, b.unitIdx = d
    · apply ih hcount' hlater hzero
    · have had : a.unitIdx = d := by grind
      subst had
      rw [applyArrivals_inDegrees hcount', arrivedAt_of_none hlater,
        applyArrival_inDegrees (hcount a mem_cons_self), update_self] at hzero
      have hmark : (s.applyArrival act depth a).1.scheduled a.unitIdx ≠ .none := by
        apply applyArrival_decides (hcount a mem_cons_self)
        omega
      rwa [applyArrivals_scheduled_of_ne hmark]

/-! ### Due markers -/

/-- The marker that is due for a unit with the given merge mode, in-degree and active inputs. -/
def dueMarker (mergeMode : String) (inDegree activeIn : Int) : Marker :=
  if mergeMode = "wait_any" ∧ 0 < activeIn then .execute
  else if inDegree ≤ 0 then if 0 < activeIn then .execute else .skip
  else .none

theorem dueMarker_eq_none :
  dueMarker mergeMode inDegree activeIn = .none ↔
    0 < inDegree ∧ ¬ (mergeMode = "wait_any" ∧ 0 < activeIn)
  := by
  fun_cases dueMarker mergeMode inDegree activeIn <;> grind

theorem dueMarker_eq_skip :
  dueMarker mergeMode inDegree activeIn = .skip ↔ inDegree ≤ 0 ∧ activeIn ≤ 0
  := by
  fun_cases dueMarker mergeMode inDegree activeIn <;> grind

theorem dueMarker_eq_execute :
  dueMarker mergeMode inDegree activeIn = .execute ↔
    0 < activeIn ∧ (mergeMode = "wait_any" ∨ inDegree ≤ 0)
  := by
  fun_cases dueMarker mergeMode inDegree activeIn <;> grind

attribute [local simp] dueMarker

theorem applyArrival_due (hcount : 0 < a.arrivalCount) (hactive : 0 ≤ a.activeCount)
    (hunit : a.unitIdx = d) (hopen : 0 < s.inDegrees d) (hins : 0 ≤ s.activeIns d)
    (hmark : s.scheduled d = dueMarker a.mergeMode (s.inDegrees d) (s.activeIns d)) :
  (s.applyArrival act depth a).1.scheduled d
    = dueMarker a.mergeMode (s.inDegrees d - a.arrivalCount) (s.activeIns d + a.activeCount)
  := by
  subst hunit
  by_cases hdue : s.scheduled a.unitIdx = .none
  · have hschedule : s.decision a
        = dueMarker a.mergeMode (s.inDegrees a.unitIdx - a.arrivalCount)
          (s.activeIns a.unitIdx + a.activeCount) := by
      have hzero : ¬ (a.mergeMode = "wait_any" ∧ 0 < s.activeIns a.unitIdx) := by
        intro hany
        rw [hmark, dueMarker, if_pos hany] at hdue
        cases hdue
      rw [decision, if_neg (by simp [hdue, hcount])]
      by_cases hmode : a.mergeMode = "wait_any"
      · have hins0 : s.activeIns a.unitIdx = 0 := by grind
        by_cases hpos : 0 < a.activeCount <;> simp [schedule, hins0, hpos]
      · by_cases hpos : 0 < a.activeCount
        · simp [schedule, hmode, hpos]
        · have hactive0 : a.activeCount = 0 := by omega
          simp [schedule, hmode, hactive0]
    rw [applyArrival_scheduled_apply, ← hschedule]
    grind
  · -- only the active inputs of a merge that waits for any can have decided before
    have hany : a.mergeMode = "wait_any" ∧ 0 < s.activeIns a.unitIdx := by
      by_contra hany
      rw [hmark, dueMarker, if_neg hany, if_neg (by omega)] at hdue
      exact hdue rfl
    rw [applyArrival_scheduled_of_ne hdue, hmark, dueMarker, if_pos hany, dueMarker, if_pos]
    exact ⟨hany.1, by omega⟩

/-- Arrivals keep a unit at the marker that is due, as long as they report no more edges than it
waits for. -/
theorem applyArrivals_due
    (hcount : ∀ a ∈ arrivals, 0 < a.arrivalCount) (hactive : ∀ a ∈ arrivals, 0 ≤ a.activeCount)
    (hmode : ∀ a ∈ arrivals, a.unitIdx = d → a.mergeMode = mergeMode)
    (hle : arrivedAt arrivals d ≤ s.inDegrees d) (hins : 0 ≤ s.activeIns d)
    (hmark : s.scheduled d = dueMarker mergeMode (s.inDegrees d) (s.activeIns d)) :
  (applyArrivals act depth arrivals s).1.scheduled d
    = dueMarker mergeMode ((applyArrivals act depth arrivals s).1.inDegrees d)
      ((applyArrivals act depth arrivals s).1.activeIns d)
  := by
  induction arrivals generalizing s with
  | nil => exact hmark
  | cons a arrivals ih =>
    rw [forall_mem_cons] at hcount hactive hmode
    rw [arrivedAt_cons] at hle
    have hrest := arrivedAt_nonneg hcount.2 d
    have hin : (s.applyArrival act depth a).1.inDegrees = _ := applyArrival_inDegrees hcount.1
    have hout : (s.applyArrival act depth a).1.activeIns = _ :=
      applyArrival_activeIns hcount.1 hactive.1
    rw [applyArrivals_cons]
    by_cases hd : a.unitIdx = d
    · subst hd
      obtain rfl := hmode.1 rfl
      apply ih hcount.2 hactive.2 hmode.2
      · rw [hin, update_self]
        omega
      · rw [hout, update_self]
        omega
      · rw [hin, hout, update_self, update_self]
        apply applyArrival_due hcount.1 hactive.1 rfl _ hins hmark
        omega
    · apply ih hcount.2 hactive.2 hmode.2
      · rw [hin, update_of_ne (Ne.symm hd)]
        omega
      · rwa [hout, update_of_ne (Ne.symm hd)]
      · rw [hin, hout, update_of_ne (Ne.symm hd), update_of_ne (Ne.symm hd),
          applyArrival_scheduled_apply, if_neg (fun h => hd h.2.symm), hmark]

/-! ### Intents -/

theorem applyArrivals_outbox_mono (he : e ∈ s.outbox) :
  e ∈ (applyArrivals act depth arrivals s).1.outbox
  := by
  apply applyArrivals_induction (P := fun t => e ∈ t.outbox) he
  intro t b _ ht
  rw [applyArrival_outbox]
  split
  · apply ht
  · apply mem_putEntry.mpr (.inl ht)

theorem applyArrivals_nodup (h : (s.outbox.map (·.id)).Nodup) :
  ((applyArrivals act depth arrivals s).1.outbox.map (·.id)).Nodup
  := by
  apply applyArrivals_induction (P := fun t => (t.outbox.map (·.id)).Nodup) h
  intro t b _ ht
  rw [applyArrival_outbox]
  split
  · apply ht
  · apply putEntry_nodup ht

@[simp]
theorem applyArrival_id :
  (s.applyArrival act depth a).1.id = s.id
  := by
  rw [applyArrival_fst]

theorem applyArrivals_marker (hbefore : s.scheduled d = .none)
    (hafter : (applyArrivals act depth arrivals s).1.scheduled d ≠ .none) :
  ∃ a ∈ arrivals, a.unitIdx = d ∧
    (arrivalEntry s.id act depth a ((applyArrivals act depth arrivals s).1.scheduled d)).id
      ∈ (applyArrivals act depth arrivals s).1.outbox.map (·.id)
  := by
  induction arrivals generalizing s with
  | nil => exact absurd hbefore hafter
  | cons a arrivals ih =>
    rw [applyArrivals_cons] at hafter ⊢
    by_cases hnow : (s.applyArrival act depth a).1.scheduled d = .none
    · obtain ⟨b, hb, hd, hid⟩ := ih hnow hafter
      rw [applyArrival_id] at hid
      exact ⟨b, mem_cons_of_mem a hb, hd, hid⟩
    · have hdecided := hnow
      rw [applyArrival_scheduled_apply] at hdecided
      split at hdecided
      · rename_i hd
        obtain ⟨hne, rfl⟩ := hd
        refine ⟨a, mem_cons_self, rfl, ?_⟩
        rw [applyArrivals_scheduled_of_ne hnow, applyArrival_scheduled_apply, if_pos ⟨hne, rfl⟩]
        have hmem : (arrivalEntry s.id act depth a (s.decision a)).id
            ∈ (s.applyArrival act depth a).1.outbox.map (·.id) := by
          rw [applyArrival_outbox, if_neg hne, putEntry]
          split
          · simp
          · rename_i hno
            have hempty : (arrivalEntry s.id act depth a (s.decision a)).id ≠ "" := by
              simp only [arrivalEntry]
              split <;> apply outboxID_ne_empty
            by_contra hnot
            apply hno
            simp [accepts, hempty, hnot]
        obtain ⟨e, he, hid⟩ := mem_map.mp hmem
        exact mem_map.mpr ⟨e, applyArrivals_outbox_mono he, hid⟩
      · exact absurd hbefore hdecided

/-- What an arrival writes, it writes with a marker. -/
theorem applyArrival_new (he : e ∈ (s.applyArrival act depth a).1.outbox)
    (hnew : e ∉ s.outbox) :
  e = arrivalEntry s.id act depth a (s.decision a) ∧ s.decision a ≠ .none ∧
    (s.applyArrival act depth a).1.scheduled a.unitIdx = s.decision a
  := by
  rw [applyArrival_outbox] at he
  split at he
  · exact absurd he hnew
  · rename_i hne
    rw [applyArrival_scheduled_apply, if_pos ⟨hne, rfl⟩]
    exact ⟨((mem_putEntry.mp he).resolve_left hnew).1, hne, rfl⟩

section

variable {e : OutboxEntry} (he : e ∈ (applyArrivals act depth arrivals s).1.outbox)
  (hnew : e ∉ s.outbox)

include he hnew

theorem applyArrivals_new :
  ∃ a ∈ arrivals, s.scheduled a.unitIdx = .none ∧
    ((applyArrivals act depth arrivals s).1.scheduled a.unitIdx = .execute ∨
      (applyArrivals act depth arrivals s).1.scheduled a.unitIdx = .skip) ∧
    e = arrivalEntry s.id act depth a ((applyArrivals act depth arrivals s).1.scheduled a.unitIdx)
  := by
  induction arrivals generalizing s with
  | nil => exact absurd he hnew
  | cons a arrivals ih =>
    rw [applyArrivals_cons] at he ⊢
    by_cases hnow : e ∈ (s.applyArrival act depth a).1.outbox
    · obtain ⟨rfl, hne, hmark⟩ := applyArrival_new hnow hnew
      rw [← hmark] at hne
      use a, mem_cons_self
      rw [applyArrivals_scheduled_of_ne hne, hmark]
      refine ⟨?_, ?_, rfl⟩
      · by_contra hsched
        exact hne (hmark.trans (decision_of_scheduled hsched))
      · have hseed : s.decision a ≠ .seed := decision_ne_seed
        cases hdec : s.decision a <;> simp_all
    · obtain ⟨b, hb, hbefore, hafter, heq⟩ := ih he hnow
      refine ⟨b, mem_cons_of_mem a hb, ?_, hafter, ?_⟩
      · by_contra hsched
        rw [applyArrival_scheduled_of_ne hsched] at hbefore
        exact hsched hbefore
      · rwa [applyArrival_id] at heq

theorem applyArrivals_new_unique {e' : OutboxEntry}
    (he' : e' ∈ (applyArrivals act depth arrivals s).1.outbox) (hnew' : e' ∉ s.outbox)
    (hunit : e.task.unitIdx = e'.task.unitIdx) :
  e = e'
  := by
  induction arrivals generalizing s with
  | nil => exact absurd he hnew
  | cons a arrivals ih =>
    rw [applyArrivals_cons] at he he'
    -- the marker of the first arrival keeps later ones out
    have hlater {x y : OutboxEntry} (hx : x ∈ (s.applyArrival act depth a).1.outbox)
        (hxnew : x ∉ s.outbox)
        (hy : y ∈ (applyArrivals act depth arrivals (s.applyArrival act depth a).1).1.outbox)
        (hynew : y ∉ (s.applyArrival act depth a).1.outbox) :
        x.task.unitIdx ≠ y.task.unitIdx := by
      obtain ⟨rfl, hne, hmark⟩ := applyArrival_new hx hxnew
      obtain ⟨b, -, hnone, -, rfl⟩ := applyArrivals_new hy hynew
      intro heq
      change a.unitIdx = b.unitIdx at heq
      rw [← hmark, heq] at hne
      exact hne hnone
    by_cases hin : e ∈ (s.applyArrival act depth a).1.outbox
    · by_cases hin' : e' ∈ (s.applyArrival act depth a).1.outbox
      · rw [(applyArrival_new hin hnew).1, (applyArrival_new hin' hnew').1]
      · exact absurd hunit (hlater hin hnew he' hin')
    · grind

end

end MemoryState

end Xflow
