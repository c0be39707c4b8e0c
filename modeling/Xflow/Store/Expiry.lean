import Xflow.Store.Slots

/-!
# Expiry of the queued

`ExpireQueuedExecutions` first collects the executions whose wait is over and then ends them one
after the other.  The end of one is followed by a promotion pass, which may give a slot to another
that was collected: that one runs by the time its turn comes, and is ended all the same.  Whether
this happens can be told from the state before the call (`Spares`).
-/

namespace Xflow

open List Option ConcurrencyState

namespace ConcurrencyState

variable {s s' : ConcurrencyState} {key : SlotKey} {id : String} {ids : List String}

/-- The transitions that the second loop makes: who was ended, and the state in which it was. -/
def transitions : List String → ConcurrencyState → List (String × ConcurrencyState)
  | [], _ => []
  | id :: ids, s =>
    let (s', landed) := s.updateExecutionStatus id .timeout concurrencyQueueTimeoutError
    (if landed then [(id, s)] else []) ++ transitions ids s'

/-- Whoever is ended is queued and holds no slot. -/
def EndsOnlyQueued (ids : List String) (s : ConcurrencyState) : Prop :=
  ∀ t ∈ transitions ids s, t.2.status? t.1 = some .queued ∧ t.2.slotHolders t.1 = none

/-- The execution is queued, in the line of the slot. -/
def waitsIn (s : ConcurrencyState) (key : SlotKey) (id : String) : Bool :=
  s.status? id = some .queued ∧ id ∈ (s.slotFor key).queued

/-- Who gets a slot when `id` leaves the line. -/
def heirs (s : ConcurrencyState) (key : SlotKey) (id : String) : List String :=
  ((s.slotFor key).queued.erase id).take (s.slotFor key).free

/-- Once the first of `ids` that is queued for the slot has left the line, no other of them gets the
slot. -/
def SparesAt (s : ConcurrencyState) (ids : List String) (key : SlotKey) : Prop :=
  ∀ first rest, ids.filter (s.waitsIn key) = first :: rest → ∀ id ∈ rest, id ∉ s.heirs key first

def Spares (s : ConcurrencyState) (ids : List String) : Prop :=
  ∀ key, s.SparesAt ids key

theorem sparesAt_cons_self (waits : s.waitsIn key id) :
  s.SparesAt (id :: ids) key ↔ ∀ x ∈ ids, s.waitsIn key x → x ∉ s.heirs key id
  := by
  simp [SparesAt, waits]

theorem sparesAt_cons_other (other : ¬ s.waitsIn key id) :
  s.SparesAt (id :: ids) key ↔ s.SparesAt ids key
  := by
  simp [SparesAt, other]

theorem sparesAt_settled (settled : (s.slotFor key).free = 0 ∨ (s.slotFor key).queued = []) :
  s.SparesAt ids key
  := by
  intro first rest _ x _
  rcases settled with full | empty
  · simp [heirs, full]
  · simp [heirs, empty]

theorem sparesAt_congr (slot : s'.slotFor key = s.slotFor key)
    (same : ∀ x ∈ ids, s'.waitsIn key x = s.waitsIn key x) :
  s'.SparesAt ids key ↔ s.SparesAt ids key
  := by
  simp [SparesAt, heirs, slot, filter_congr same]

/-! ### One transition -/

attribute [local simp] promotedSnapshot

/-- The end of a queued execution: who gets a slot then can be told before. -/
theorem Sound.expire_queued (h : Sound s) (queued : s.status? id = some .queued) :
  ∃ key s', s.updateExecutionStatus id .timeout concurrencyQueueTimeoutError = (s', true) ∧
    id ∈ (s.slotFor key).queued ∧ s.slotHolders id = none ∧
    (∀ k, k ≠ key → s'.slotFor k = s.slotFor k) ∧
    ((s'.slotFor key).free = 0 ∨ (s'.slotFor key).queued = []) ∧
    s'.status? id = some .timeout ∧
    ∀ x, x ≠ id → s'.status? x =
      if x ∈ s.heirs key id then
        (s.executions x).map fun snap => (promotedSnapshot snap).status
      else s.status? x
  := by
  obtain ⟨snap, found, status⟩ := map_eq_some_iff.mp queued
  have live : snap.status.isTerminal = false := by
    rw [status]
    rfl
  have agrees := h.consistent.agrees id
  rw [queued] at agrees
  obtain ⟨key, t, left, pass⟩ := h.consistent.release found live
    { snap with status := .timeout, error := concurrencyQueueTimeoutError }
  have absent : id ∉ (s.slotFor key).holders := by
    rw [← h.consistent.holder, agrees.1]
    simp
  have taken : (t.slotFor key).taken = s.heirs key id := by
    simp [heirs, Semaphore.taken, Semaphore.free, left.line, left.held, left.limit,
      erase_of_not_mem absent]
  refine ⟨key, _, ?_, left.place.resolve_left absent, agrees.1, ?_, pass.settled, ?_, ?_⟩
  · simp only [updateExecutionStatus, found, status]
    rfl
  · intro k other
    rw [pass.others k other, left.others k other]
  · rw [status?, pass.executions, left.executions]
    simp
  · intro x other
    rw [status?, pass.executions, taken, left.executions]
    split <;> simp [status?, Function.comp_def]

attribute [local simp] ExecutionStatus.isTerminal

theorem Sound.expire_refused (h : Sound s) (queued : s.status? id ≠ some .queued)
    (running : s.status? id ≠ some .running) :
  s.updateExecutionStatus id .timeout concurrencyQueueTimeoutError = (s, false)
  := by
  have agrees := h.consistent.agrees id
  unfold updateExecutionStatus
  cases found : s.executions id with
  | none => rfl
  | some snap =>
    simp only [status?] at agrees queued running
    cases status : snap.status <;> simp_all [Agrees]

theorem Sound.expire_other {other : String} (h : Sound s) (ne : id ≠ other)
    (running : s.status? id = some .running) :
  (s.updateExecutionStatus other .timeout concurrencyQueueTimeoutError).1.status? id =
    some .running
  := by
  obtain ⟨mine, found, status⟩ := map_eq_some_iff.mp running
  fun_cases s.updateExecutionStatus other .timeout concurrencyQueueTimeoutError with
  | case4 snap there live _ t' =>
    obtain ⟨key, t, left, pass⟩ := h.consistent.release there (by simpa using live)
      { snap with status := .timeout, error := concurrencyQueueTimeoutError }
    have same : t.executions id = some mine := by
      rw [left.executions]
      simpa [ne] using found
    have eq : (((s.setExecution other
        { snap with status := .timeout, error := concurrencyQueueTimeoutError }
        ).releaseWorkflowSlot other).executions id).map (·.status) = some .running := by
      rw [pass.executions, same]
      split <;> simp [status]
    simpa [concurrencyQueueTimeoutError, status?, t'] using eq
  | _ => exact running

/-! ### The loop -/

attribute [local simp] transitions

theorem Sound.ends_running (h : Sound s) (running : s.status? id = some .running)
    (member : id ∈ ids) :
  ¬ EndsOnlyQueued ids s
  := by
  induction ids generalizing s with
  | nil => cases member
  | cons a ids ih =>
    intro only
    by_cases self : id = a
    · subst self
      obtain ⟨snap, found, status⟩ := map_eq_some_iff.mp running
      have first : (id, s) ∈ transitions (id :: ids) s := by
        simp [updateExecutionStatus, found, status]
      have queued := (only _ first).1
      rw [running] at queued
      cases queued
    · apply ih (h.update (.inl rfl)) (h.expire_other self running)
      · exact (mem_cons.mp member).resolve_left self
      · intro t later
        apply only
        exact mem_append_right _ later

attribute [local simp] EndsOnlyQueued

theorem Sound.endsOnlyQueued_iff (h : Sound s) (idle : ∀ id ∈ ids, s.status? id ≠ some .running) :
  EndsOnlyQueued ids s ↔ Spares s ids
  := by
  induction ids generalizing s with
  | nil => simp [Spares, SparesAt]
  | cons a ids ih =>
    rw [forall_mem_cons] at idle
    by_cases queued : s.status? a = some .queued
    · obtain ⟨key, s', eq, line, free, others, settled, ended, later⟩ := h.expire_queued queued
      have sound : Sound s' := by
        have next : Sound (s.updateExecutionStatus a .timeout concurrencyQueueTimeoutError).1 :=
          h.update (.inl rfl)
        rwa [eq] at next
      have head : EndsOnlyQueued (a :: ids) s ↔ EndsOnlyQueued ids s' := by
        simp [eq, queued, free]
      have waits : s.waitsIn key a := by simp [waitsIn, queued, line]
      have inLine : ∀ x ∈ s.heirs key a, x ≠ a ∧ x ∈ (s.slotFor key).queued := fun x took =>
        (h.consistent.valid key).queued.mem_erase_iff.mp (mem_of_mem_take took)
      rw [head]
      by_cases clear : ∀ x ∈ ids, s.waitsIn key x → x ∉ s.heirs key a
      · have idle' : ∀ x ∈ ids, s'.status? x ≠ some .running := by
          intro x member
          by_cases self : x = a
          · simp [self, ended]
          · rw [later x self]
            split
            · rename_i took
              have notQueued : s.status? x ≠ some .queued := fun same =>
                clear x member (by simp [waitsIn, same, (inLine x took).2]) took
              have notRunning := idle.2 x member
              cases found : s.executions x <;> simp_all [status?]
            · exact idle.2 x member
        rw [ih sound idle']
        apply forall_congr'
        intro k
        by_cases same : k = key
        · subst same
          rw [sparesAt_cons_self waits]
          exact iff_of_true (sparesAt_settled settled) clear
        · -- in the other lines nobody was promoted, and `a` stands in none of them
          have elsewhere : ∀ x ∈ (s.slotFor k).queued, x ∉ (s.slotFor key).queued := by
            intro x there here
            rw [← h.consistent.waiting] at there here
            rw [there] at here
            exact same (some.inj here)
          rw [sparesAt_cons_other]
          · apply sparesAt_congr (others k same)
            intro x _
            rw [waitsIn, waitsIn, others k same]
            by_cases there : x ∈ (s.slotFor k).queued
            · have self : x ≠ a := fun eq => elsewhere x there (eq ▸ line)
              have kept : x ∉ s.heirs key a := fun took => elsewhere x there (inLine x took).2
              rw [later x self, if_neg kept]
            · simp [there]
          · simp only [waitsIn, decide_eq_true_eq]
            exact fun there => elsewhere a there.2 line
      · apply iff_of_false
        · push Not at clear
          obtain ⟨x, member, stands, took⟩ := clear
          apply sound.ends_running _ member
          rw [later x (inLine x took).1, if_pos took]
          simp only [waitsIn, decide_eq_true_eq] at stands
          obtain ⟨snap, found, status⟩ := map_eq_some_iff.mp stands.1
          simp [found, status]
        · intro spares
          exact clear ((sparesAt_cons_self waits).mp (spares key))
    · have refused := h.expire_refused queued idle.1
      have head : EndsOnlyQueued (a :: ids) s ↔ EndsOnlyQueued ids s := by
        simp [refused]
      rw [head, ih h idle.2]
      apply forall_congr'
      intro k
      rw [sparesAt_cons_other]
      simp [waitsIn, queued]

theorem collected_waits {walk : List String} {limit now : Int}
    (member : id ∈ s.collectExpired walk limit now) :
  (s.queued id).isSome
  := by
  have due : s.due now id := by
    unfold collectExpired at member
    grind
  cases waits : s.queued id with
  | none => simp [ConcurrencyState.due, waits] at due
  | some w => rfl

/-- In every state of every run, whatever the walk, the bound and the clock: the call ends only
executions that are queued and hold no slot just if, for each workflow, no other collected one gets
a slot when the first collected one leaves the line. -/
theorem expiry_ends_only_queued_iff (run : Reaches s) (walk : List String) (limit now : Int) :
  (∀ t ∈ transitions (s.collectExpired walk limit now) s,
      t.2.status? t.1 = some .queued ∧ t.2.slotHolders t.1 = none) ↔
    Spares s (s.collectExpired walk limit now)
  := by
  apply run.sound.endsOnlyQueued_iff
  intro id member running
  have agrees := run.sound.consistent.agrees id
  rw [running] at agrees
  simpa [agrees.2] using collected_waits member

open Sample

/-- Two executions wait for the one slot: as none is free, the expiry of both ends no other. -/
theorem full_slot_expires_only_queued :
  ∃ s, Reaches s ∧ s.collectExpired ["b", "c"] 0 9 = ["b", "c"] ∧
    EndsOnlyQueued (s.collectExpired ["b", "c"] 0 9) s
  := by
  have run : Reaches _ := @Transition.Run.of_exec _ _ step
    [submit "a" 1 0, submit "b" 1 5, submit "c" 1 5] _ _ rfl
  refine ⟨_, run, by decide, (expiry_ends_only_queued_iff run _ 0 9).mpr ?_⟩
  intro key
  by_cases same : key = shop
  · subst same
    exact sparesAt_settled (.inl (by decide))
  · apply sparesAt_settled
    simp [createExecutionWithConcurrency, chargeOrPark, parkOrCharge, chargeSlot,
      park, slotFor, setSlot, same]

/-- The limit is raised while executions wait.  The expiry of the first gives the second a slot; it
runs, holds the slot, and is ended by the same call. -/
theorem promoted_execution_expired :
  ∃ s, Reaches s ∧ s.Walks ["b", "c", "d"] ∧
    ∃ t ∈ transitions (s.collectExpired ["b", "c", "d"] 0 9) s,
      t.1 = "c" ∧ s.status? "c" = some .queued ∧
        t.2.status? "c" = some .running ∧ t.2.slotHolders "c" = some shop
  := by
  have run : Reaches _ := @Transition.Run.of_exec _ _ step
    [submit "a" 1 0, submit "b" 1 5, submit "c" 1 5, submit "d" 2 5] _ _ rfl
  refine ⟨_, run, ⟨by decide, ?_⟩, ("c", _), mem_cons_of_mem _ mem_cons_self,
    rfl, by decide, by decide, by decide⟩
  intro id
  by_cases b : id = "b"
  · subst b
    decide
  · by_cases c : id = "c"
    · subst c
      decide
    · by_cases d : id = "d"
      · subst d
        decide
      · simp [createExecutionWithConcurrency, chargeOrPark, parkOrCharge, chargeSlot,
          park, slotFor, setSlot, shop, b, c, d]

end ConcurrencyState

end Xflow
