import Xflow.Lib.Run
import Xflow.Trigger.Aggregate

/-!
# The commit frontier of the aggregating trigger

The records that a coordinator holds lie in blocks, the batches, the buffer and the record that
waits to be published, and the offsets of a block are below those of the next.  Every other record
that was received is settled.  A commit takes the batches at the front that succeeded, whose records
are settled, so nothing below its largest offset is unsettled (`commit_frontier`).
-/

namespace Xflow

open List

namespace Kafka

namespace Aggregate

open PartitionAggregator Transition

variable {rt : AggregateRuntime} {s t : PartitionAggregator} {events later : List Event}
  {m : Message} {now : Nat}

/-- The record was emitted in a batch whose attempt succeeded, resolved as an invalid one, or
published to the overflow topic. -/
def Settled (events : List Event) (m : Message) : Prop :=
  (∃ msgs, .emitted msgs ∈ events ∧ m ∈ msgs) ∨ .resolved m ∈ events ∨ .published m ∈ events

theorem Settled.mono (h : Settled events m) (sub : events ⊆ later) :
  Settled later m
  := by
  rcases h with ⟨msgs, mem, here⟩ | mem | mem
  · exact .inl ⟨msgs, sub mem, here⟩
  · exact .inr (.inl (sub mem))
  · exact .inr (.inr (sub mem))

/-- No record that was received with an offset up to the largest of these is unsettled. -/
def Covers (events : List Event) (msgs : List Message) : Prop :=
  ∀ m, .received m ∈ events → (∃ c ∈ msgs, m.offset ≤ c.offset) → Settled events m

/-! ### Blocks -/

/-- The records of a batch. -/
def records (batch : AggregateBatch) : List Message :=
  batch.messages ++ batch.discarded ++ batch.unresolved

variable {batch : AggregateBatch} {batches : List AggregateBatch}

theorem mem_records :
  m ∈ records batch ↔ m ∈ batch.messages ∨ m ∈ batch.discarded ∨ m ∈ batch.unresolved
  := by
  simp [records]

theorem mem_records_batchOf {items : List BufferedMessage} :
  m ∈ records (batchOf items) ↔ m ∈ items.map (·.message)
  := by
  rw [mem_records]
  simp only [batchOf, mem_map, mem_filter]
  grind

/-- Every offset of the first list is below those of the second. -/
def Below (as bs : List Message) : Prop :=
  ∀ a ∈ as, ∀ b ∈ bs, a.offset < b.offset

/-- What a coordinator holds, in the order of the offsets. -/
def blocks (s : PartitionAggregator) : List (List Message) :=
  s.batches.map records ++ [s.buffer.map (·.message), s.pendingOverflow.toList]

/-- The coordinator holds the record. -/
def Held (s : PartitionAggregator) (m : Message) : Prop :=
  ∃ block ∈ blocks s, m ∈ block

theorem held_iff :
  Held s m ↔ (∃ batch ∈ s.batches, m ∈ records batch) ∨
    m ∈ s.buffer.map (·.message) ∨ s.pendingOverflow = some m
  := by
  simp [Held, blocks, or_and_right, exists_or]

theorem ascending_iff :
  (blocks s).Pairwise Below ↔ (s.batches.map records).Pairwise Below ∧
    Below (s.buffer.map (·.message)) s.pendingOverflow.toList ∧
    ∀ block ∈ s.batches.map records,
      Below block (s.buffer.map (·.message)) ∧ Below block s.pendingOverflow.toList
  := by
  rw [blocks, pairwise_append]
  simp

/-- The records held are in order, the others that were received are settled, and so are the records
of the batches that succeeded. -/
structure Sound (s : PartitionAggregator) : Prop where
  ascending : (blocks s).Pairwise Below
  sorted : (s.buffer.map (·.message)).Pairwise (fun a b => a.offset < b.offset)
  arrived : ∀ m, Held s m → .received m ∈ s.events
  covered : ∀ m, .received m ∈ s.events → Settled s.events m ∨ Held s m
  discarded : ∀ batch ∈ s.batches, ∀ m ∈ batch.discarded, Settled s.events m
  succeeded : ∀ batch ∈ s.batches, batch.state = .succeeded →
    batch.unresolved = [] ∧ ∀ m ∈ batch.messages, Settled s.events m
  inFlight : ∀ n, s.commitInFlight = some n →
    n ≤ s.batches.length ∧ ∀ batch ∈ s.batches.take n, batch.state = .succeeded
  commits : ∀ before msgs after, s.events = before ++ .commit msgs :: after → Covers before msgs

theorem Sound.settled (h : Sound s) (mem : batch ∈ s.batches)
    (state : batch.state = .succeeded) (here : m ∈ records batch) :
  Settled s.events m
  := by
  obtain ⟨none, messages⟩ := h.succeeded batch mem state
  have discarded := h.discarded batch mem
  grind [mem_records]

/-- What is to be settled of a batch is. -/
structure Done (events : List Event) (batch : AggregateBatch) : Prop where
  discarded : ∀ m ∈ batch.discarded, Settled events m
  succeeded : batch.state = .succeeded →
    batch.unresolved = [] ∧ ∀ m ∈ batch.messages, Settled events m

theorem Done.mono (h : Done events batch) (sub : events ⊆ later) :
  Done later batch
  where
  discarded m here := (h.discarded m here).mono sub
  succeeded state := (h.succeeded state).imp_right fun messages m here => (messages m here).mono sub

theorem Sound.done (h : Sound s) (mem : batch ∈ s.batches) :
  Done s.events batch
  :=
  ⟨h.discarded batch mem, h.succeeded batch mem⟩

/-- Records move between the blocks, and those that leave are settled. -/
theorem Sound.move (h : Sound s) (events : t.events = s.events)
    (ascending : (blocks t).Pairwise Below)
    (sorted : (t.buffer.map (·.message)).Pairwise (fun a b => a.offset < b.offset))
    (held : ∀ m, Held t m → Held s m) (gone : ∀ m, Held s m → Held t m ∨ Settled s.events m)
    (batches : ∀ batch ∈ t.batches, batch ∈ s.batches ∨ Done s.events batch)
    (inFlight : ∀ n, t.commitInFlight = some n →
      n ≤ t.batches.length ∧ ∀ batch ∈ t.batches.take n, batch.state = .succeeded) :
  Sound t
  := by
  have done (batch) (mem : batch ∈ t.batches) : Done t.events batch := by
    rw [events]
    exact (batches batch mem).elim h.done id
  refine ⟨ascending, sorted, ?_, ?_, fun b mem => (done b mem).discarded,
    fun b mem => (done b mem).succeeded, inFlight, ?_⟩
  all_goals rw [events]
  · exact fun m here => h.arrived m (held m here)
  · intro m mem
    exact (h.covered m mem).elim .inl fun here => (gone m here).symm
  · exact h.commits

theorem Sound.congr (h : Sound s) (batches : t.batches = s.batches) (buffer : t.buffer = s.buffer)
    (pending : t.pendingOverflow = s.pendingOverflow)
    (flight : t.commitInFlight = s.commitInFlight ∨ t.commitInFlight = none)
    (events : t.events = s.events) :
  Sound t
  := by
  cases t
  subst batches buffer pending events
  refine { h with inFlight := fun n eq => ?_ }
  rcases flight with kept | none
  · exact h.inFlight n (kept ▸ eq)
  · cases none.symm.trans eq

/-! ### Events -/

/-- The event is neither a record that arrives nor a commit. -/
def Quiet : Event → Prop
  | .received _ | .commit _ => False
  | _ => True

theorem Sound.extend (h : Sound s) (old : ∀ m, .received m ∉ later)
    (commits : ∀ before msgs after, s.events ++ later = before ++ .commit msgs :: after →
      Covers before msgs) :
  Sound { s with events := s.events ++ later }
  := by
  have sub : s.events ⊆ s.events ++ later := subset_append_left _ _
  constructor
  case ascending => exact h.ascending
  case sorted => exact h.sorted
  case arrived => exact fun m here => sub (h.arrived m here)
  case covered =>
    intro m mem
    have mem := (mem_append.mp mem).resolve_right (old m)
    exact (h.covered m mem).imp_left (·.mono sub)
  case discarded => exact fun batch mem => ((h.done mem).mono sub).discarded
  case succeeded => exact fun batch mem => ((h.done mem).mono sub).succeeded
  case inFlight => exact h.inFlight
  case commits => exact commits

theorem Sound.log (h : Sound s) (quiet : ∀ e ∈ later, Quiet e) :
  Sound { s with events := s.events ++ later }
  := by
  apply h.extend fun m mem => quiet _ mem
  intro before msgs after eq
  obtain ⟨rest, eq⟩ := (append_split eq).resolve_right fun ⟨_, _, within⟩ =>
    quiet (.commit msgs) (by simp [within])
  exact h.commits before msgs rest eq

/-! ### Batches that change -/

/-- The batch has the same records and succeeded if it did before, and what is to be settled of it
is. -/
structure Replaced (events : List Event) (batch next : AggregateBatch) : Prop
    extends Done events next where
  same : ∀ m, m ∈ records next ↔ m ∈ records batch
  kept : batch.state = .succeeded → next.state = .succeeded

theorem Done.replaced (h : Done events batch) :
  Replaced events batch batch
  :=
  { h with same := fun _ => Iff.rfl, kept := id }

theorem Done.launchBatch (h : Done events batch) (unfinished : batch.state ≠ .succeeded) :
  Replaced events batch (launchBatch batch)
  where
  discarded := h.discarded
  succeeded := nofun
  same _ := Iff.rfl
  kept state := absurd state unfinished

theorem Done.closeBatch (h : Done events batch) :
  Replaced events batch (closeBatch batch)
  := by
  rw [PartitionAggregator.closeBatch]
  split
  · exact ⟨⟨h.discarded, h.succeeded⟩, fun _ => Iff.rfl, id⟩
  · exact h.replaced

/-- Lists of blocks with the same records. -/
theorem ascending_congr {as bs : List (List Message)}
    (same : Forall₂ (fun a b => ∀ m, m ∈ b ↔ m ∈ a) as bs) :
  (as.Pairwise Below → bs.Pairwise Below) ∧ ∀ m, (∃ b ∈ bs, m ∈ b) ↔ ∃ a ∈ as, m ∈ a
  := by
  induction same with
  | nil => simp
  | @cons a b as bs head rest ih =>
    obtain ⟨keep, members⟩ := ih
    refine ⟨fun ascending => ?_, by simp [head, members]⟩
    obtain ⟨first, rest⟩ := pairwise_cons.mp ascending
    refine pairwise_cons.mpr ⟨fun block mem m here n there => ?_, keep rest⟩
    obtain ⟨old, held, there⟩ := (members n).mp ⟨block, mem, there⟩
    exact first old held m ((head m).mp here) n there

theorem Sound.replace (h : Sound s) (same : Forall₂ (Replaced s.events) s.batches batches) :
  Sound { s with batches := batches }
  := by
  have origin {old new : List AggregateBatch} (same : Forall₂ (Replaced s.events) old new) :
      ∀ next ∈ new, ∃ batch ∈ old, Replaced s.events batch next := by
    induction same with
    | nil => exact nofun
    | cons => grind
  have blocks_same : Forall₂ (fun a b => ∀ m, m ∈ b ↔ m ∈ a) (blocks s)
      (blocks { s with batches := batches }) := by
    refine rel_append (forall₂_map_left_iff.mpr (forall₂_map_right_iff.mpr ?_)) ?_
    · exact same.imp fun _ _ next => next.same
    · simp
  obtain ⟨ascending, members⟩ := ascending_congr blocks_same
  apply h.move
  case events => rfl
  case ascending => exact ascending h.ascending
  case sorted => exact h.sorted
  case held => exact fun _ => (members _).mp
  case gone => exact fun _ here => .inl ((members _).mpr here)
  case batches =>
    intro batch mem
    obtain ⟨_, -, next⟩ := origin same batch mem
    exact .inr next.toDone
  case inFlight =>
    intro n flight
    obtain ⟨short, ready⟩ := h.inFlight n flight
    refine ⟨same.length_eq ▸ short, fun batch mem => ?_⟩
    obtain ⟨old, before, next⟩ := origin (forall₂_take n same) batch mem
    exact next.kept (ready old before)

theorem replaced_relaunchFirst (now : Nat) (batches : List AggregateBatch)
    (done : ∀ batch ∈ batches, Done events batch) :
  Forall₂ (Replaced events) batches (relaunchFirst now batches)
  := by
  induction batches with
  | nil => exact .nil
  | cons batch batches ih =>
    obtain ⟨here, later⟩ := forall_mem_cons.mp done
    have rest : Forall₂ (Replaced events) batches batches :=
      forall₂_same.mpr fun batch mem => (later batch mem).replaced
    unfold relaunchFirst
    split
    · exact .cons here.replaced (ih later)
    · rename_i unfinished
      split
      · exact .cons (here.launchBatch unfinished) rest
      · exact .cons here.replaced rest

theorem Sound.launchEligible (h : Sound s) :
  Sound (s.launchEligible now)
  := by
  have launched : Sound { s with
      batches := s.batches.map (fun batch =>
        if batch.state = .new then launchBatch batch else batch) } := by
    apply h.replace
    rw [forall₂_map_right_iff, forall₂_same]
    intro batch mem
    split
    · rename_i new
      exact (h.done mem).launchBatch (by simp [new])
    · exact (h.done mem).replaced
  exact launched.replace (replaced_relaunchFirst now _ fun _ => launched.done)

/-! ### Records that move -/

theorem Sound.promote (h : Sound s) (cut : Nat) :
  Sound (s.promote cut)
  := by
  have split : s.buffer.map (·.message)
      = (s.buffer.take cut).map (·.message) ++ (s.buffer.drop cut).map (·.message) := by
    rw [← map_append, take_append_drop]
  have sorted := h.sorted
  rw [split, pairwise_append] at sorted
  have parts {m : Message} : m ∈ s.buffer.map (·.message) ↔
      m ∈ (s.buffer.take cut).map (·.message) ∨ m ∈ (s.buffer.drop cut).map (·.message) := by
    rw [split, mem_append]
  have members {m : Message} : Held (s.promote cut) m ↔ Held s m := by
    simp only [held_iff, PartitionAggregator.promote, mem_append, mem_singleton, or_and_right,
      exists_or, exists_eq_left, mem_records_batchOf, parts, or_assoc]
  apply h.move
  case events => rfl
  case ascending =>
    obtain ⟨batches, low, above⟩ := ascending_iff.mp h.ascending
    simp only [ascending_iff, PartitionAggregator.promote, map_append, pairwise_append, Below]
    simp only [Below] at low above
    grind [mem_records_batchOf]
  case sorted => exact sorted.2.1
  case held => exact fun _ => members.mp
  case gone => exact fun _ here => .inl (members.mpr here)
  case batches =>
    intro batch mem
    apply (mem_append.mp mem).imp_right
    intro new
    rw [mem_singleton.mp new]
    exact ⟨nofun, nofun⟩
  case inFlight =>
    intro n flight
    obtain ⟨short, ready⟩ := h.inFlight n flight
    simp only [PartitionAggregator.promote, length_append]
    rw [take_append_of_le_length short]
    exact ⟨by omega, ready⟩

theorem Sound.promoteSizes (fuel : Nat) (h : Sound s) :
  Sound (promoteSizes rt fuel s)
  := by
  induction fuel generalizing s with
  | zero => exact h
  | succ fuel ih =>
    rw [promoteSizes]
    split
    · exact h
    · rename_i t promoted
      apply ih
      rw [promoteSize] at promoted
      split at promoted
      · cases promoted
      · dsimp only at promoted
        obtain ⟨-, ⟨⟩⟩ := Option.ite_none_left_eq_some.mp promoted
        exact h.promote _

theorem Sound.promoteTail (h : Sound s) :
  Sound (s.promoteTail rt)
  := by
  rw [PartitionAggregator.promoteTail]
  split
  · exact h
  · exact h.promote _

theorem Sound.fillWindow (h : Sound s) (tail : Bool) :
  Sound (s.fillWindow rt now tail)
  := by
  apply Sound.launchEligible
  have filled : Sound (PartitionAggregator.promoteSizes rt rt.maxPending s) := h.promoteSizes _
  cases tail with
  | false => exact filled
  | true => exact filled.promoteTail

theorem lt_of_past {a : Message} (new : past events m) (mem : .received a ∈ events) :
  a.offset < m.offset
  := by
  simpa using all_eq_true.mp new _ mem

theorem Sound.arrive {buffer : List BufferedMessage} {pending : Option Message} (h : Sound s)
    (free : s.pendingOverflow = none) (new : past s.events m)
    (placed : (buffer.map (·.message) = s.buffer.map (·.message) ++ [m] ∧ pending = none) ∨
      (buffer = s.buffer ∧ pending = some m)) :
  Sound { s with
    events := s.events ++ [.received m]
    buffer := buffer
    pendingOverflow := pending }
  := by
  have sub : s.events ⊆ s.events ++ [.received m] := subset_append_left _ _
  have low {a : Message} (held : Held s a) : a.offset < m.offset :=
    lt_of_past new (h.arrived a held)
  have members {a : Message} : Held { s with
      events := s.events ++ [.received m]
      buffer := buffer
      pendingOverflow := pending } a ↔ Held s a ∨ a = m := by
    rw [held_iff, held_iff]
    grind
  obtain ⟨batches, -, above⟩ := ascending_iff.mp h.ascending
  constructor
  case ascending =>
    simp only [held_iff] at low
    refine ascending_iff.mpr ⟨batches, ?_, ?_⟩
    all_goals simp only [Below] at above ⊢
    all_goals grind
  case sorted =>
    have sorted := h.sorted
    simp only [held_iff] at low
    grind
  case arrived =>
    have arrived := h.arrived
    grind
  case covered =>
    have covered := h.covered
    grind [Settled.mono]
  case discarded => exact fun batch mem => ((h.done mem).mono sub).discarded
  case succeeded => exact fun batch mem => ((h.done mem).mono sub).succeeded
  case inFlight => exact h.inFlight
  case commits =>
    intro before msgs after eq
    obtain ⟨rest, eq⟩ | ⟨-, ⟨⟩⟩ := concat_split eq
    exact h.commits before msgs rest eq

/-! ### Records that leave -/

theorem Sound.published (h : Sound s) (held : s.pendingOverflow = some m) (attempts retryAt : Nat) :
  Sound { s with
    pendingOverflow := none
    dlqAttempts := attempts
    dlqRetryAt := retryAt
    events := s.events ++ [.published m] }
  := by
  have logged : Sound { s with events := s.events ++ [.published m] } := h.log (by simp [Quiet])
  obtain ⟨batches, -, above⟩ := ascending_iff.mp h.ascending
  apply logged.move
  case events => rfl
  case ascending =>
    exact ascending_iff.mpr
      ⟨batches, by simp [Below], fun block mem => ⟨(above block mem).1, by simp [Below]⟩⟩
  case sorted => exact h.sorted
  case held =>
    simp only [held_iff]
    grind
  case gone =>
    simp only [held_iff, Settled]
    grind
  case batches => exact fun batch => .inl
  case inFlight => exact h.inFlight

theorem Sound.drop {count : Nat} (h : Sound s) (flight : s.commitInFlight = some count) :
  Sound { s with commitInFlight := none, batches := s.batches.drop count }
  := by
  have sub : (blocks { s with commitInFlight := none, batches := s.batches.drop count }).Sublist
      (blocks s) :=
    ((drop_sublist _ _).map _).append_right _
  apply h.move
  case events => rfl
  case ascending => exact h.ascending.sublist sub
  case sorted => exact h.sorted
  case held => exact fun m ⟨block, mem, here⟩ => ⟨block, sub.subset mem, here⟩
  case gone =>
    intro m
    simp only [held_iff]
    rintro (⟨batch, held, here⟩ | rest)
    · rw [← take_append_drop count s.batches] at held
      rcases mem_append.mp held with first | rest
      · right
        exact h.settled (mem_of_mem_take first) ((h.inFlight _ flight).2 batch first) here
      · exact .inl (.inl ⟨batch, rest, here⟩)
    · exact .inl (.inr rest)
  case batches => exact fun batch mem => .inl (drop_subset _ _ mem)
  case inFlight => exact nofun

/-! ### Commits and attempts -/

theorem mem_ready (mem : batch ∈ s.ready) :
  batch.state = .succeeded
  := by
  have all := all_takeWhile (p := fun b : AggregateBatch => decide (b.state = .succeeded))
    (l := s.batches)
  simpa using all_eq_true.mp all batch mem

theorem Sound.covers_ready (h : Sound s) :
  Covers s.events s.readyMessages
  := by
  intro m received ⟨c, mem, le⟩
  obtain ⟨batch, front, here⟩ := mem_flatMap.mp ((mem_insertionSort _).mp mem)
  have split : blocks s = s.ready.map records ++
      ((s.batches.dropWhile (·.state = .succeeded)).map records ++
        [s.buffer.map (·.message), s.pendingOverflow.toList]) := by
    rw [blocks, ← append_assoc, ← map_append, ready, takeWhile_append_dropWhile]
  have ascending := h.ascending
  rw [split, pairwise_append] at ascending
  rcases h.covered m received with settled | ⟨block, held, inside⟩
  · exact settled
  · rw [split] at held
    rcases mem_append.mp held with held | held
    · obtain ⟨ready, here, rfl⟩ := mem_map.mp held
      exact h.settled ((takeWhile_sublist _).subset here) (mem_ready here) inside
    · -- the record lies in a block past the batches that are ready
      have below : c.offset < m.offset := by
        apply ascending.2.2 (records batch) (mem_map_of_mem front) block held c _ m inside
        rcases mem_append.mp here with here | here
        · exact mem_records.mpr (.inl here)
        · exact mem_records.mpr (.inr (.inl here))
      omega

theorem Sound.startCommit (h : Sound s) :
  Sound (s.startCommit now)
  := by
  rw [PartitionAggregator.startCommit]
  split
  case isTrue => exact h
  case isFalse =>
    have extended : Sound { s with events := s.events ++ [.commit s.readyMessages] } := by
      apply h.extend (by simp)
      intro before msgs after eq
      rcases concat_split eq with ⟨init, eq⟩ | ⟨rfl, ⟨⟩⟩
      · exact h.commits before msgs init eq
      · exact h.covers_ready
    refine { extended with inFlight := ?_ }
    intro n eq
    cases eq
    have front : s.ready <+: s.batches := takeWhile_prefix _
    refine ⟨front.length_le, fun batch mem => ?_⟩
    rw [← prefix_iff_eq_take.mp front] at mem
    exact mem_ready mem

/-- A batch gets the result of an attempt. -/
theorem Sound.set {k : Nat} {batch next : AggregateBatch} (h : Sound s)
    (found : s.batches[k]? = some batch) (replaced : Replaced s.events batch next) :
  Sound { s with batches := s.batches.set k next }
  := by
  apply h.replace
  rw [forall₂_iff_get]
  refine ⟨length_set.symm, fun i low _ => ?_⟩
  have same := (h.done (getElem_mem low)).replaced
  simp only [get_eq_getElem, getElem_set]
  grind

theorem resolveInvalid_append (resolves : Message → Bool) (msgs : List Message) :
  (resolveInvalid rt resolves msgs).1 ++ (resolveInvalid rt resolves msgs).2 = msgs
  := by
  induction msgs with
  | nil => rfl
  | cons msg msgs ih =>
    rw [resolveInvalid]
    split
    · exact congrArg (msg :: ·) ih
    · rfl

variable {resolves : Message → Bool} {closing : Bool} {emits : Bool}

theorem quiet_executeBatch (batch : AggregateBatch) :
  ∀ e ∈ (executeBatch rt batch resolves emits).events, Quiet e
  := by
  simp only [executeBatch]
  grind [Quiet]

theorem attempted_eq {batch next : AggregateBatch} {result : AttemptResult}
    (eq : attempted rt closing now batch result = some next) :
  next.messages = batch.messages ∧ next.discarded = result.discarded ∧
    next.unresolved = result.unresolved ∧ (next.state = .succeeded → result.ok = true)
  := by
  revert eq
  fun_cases attempted rt closing now batch result with
  | case1 _ ok =>
    rintro ⟨⟩
    exact ⟨rfl, rfl, rfl, fun _ => ok⟩
  | case3 | case4 =>
    rintro ⟨⟩
    exact ⟨rfl, rfl, rfl, nofun⟩
  | _ => exact nofun

theorem Sound.attempted {k : Nat} {batch next : AggregateBatch}
    (h : Sound s) (found : s.batches[k]? = some batch) (running : batch.state = .running)
    (eq : attempted rt closing now batch (executeBatch rt batch resolves emits) = some next) :
  Sound { s with
    events := s.events ++ (executeBatch rt batch resolves emits).events
    batches := s.batches.set k next }
  := by
  obtain ⟨messages, discarded, unresolved, succeeded⟩ := attempted_eq eq
  refine (h.log (quiet_executeBatch batch)).set found ⟨⟨?discarded, ?succeeded⟩, ?same, ?kept⟩
  case kept => simp [running]
  case same =>
    intro m
    have parts : m ∈ batch.unresolved ↔ m ∈ (resolveInvalid rt resolves batch.unresolved).1 ∨
        m ∈ (resolveInvalid rt resolves batch.unresolved).2 := by
      rw [← mem_append, resolveInvalid_append]
    rw [mem_records, mem_records, messages, discarded, unresolved, parts]
    simp only [executeBatch, mem_append]
    tauto
  case discarded =>
    intro m mem
    rw [discarded] at mem
    rcases mem_append.mp mem with mem | mem
    · exact (h.discarded batch (mem_of_getElem? found) m mem).mono (subset_append_left _ _)
    · exact .inr (.inl (by simp [executeBatch, mem]))
  case succeeded =>
    intro state
    obtain ⟨none, done⟩ : (resolveInvalid rt resolves batch.unresolved).2 = [] ∧
        (batch.messages = [] ∨ emits = true) := by
      simpa [executeBatch] using succeeded state
    refine ⟨unresolved.trans none, fun m mem => ?_⟩
    rw [messages] at mem
    -- a batch with a valid record was emitted
    have some : batch.messages ≠ [] := ne_nil_of_mem mem
    exact .inl ⟨batch.messages, by simp [executeBatch, none, some, done.resolve_left some], mem⟩

/-! ### Rounds -/

variable {published : Bool}

theorem Sound.publishOverflow {attempts : Nat} (h : Sound s) (held : s.pendingOverflow = some m) :
  Sound (s.publishOverflow rt m published now attempts)
  := by
  rw [PartitionAggregator.publishOverflow]
  split
  · exact h.published held 0 0
  · exact h.congr rfl rfl held.symm (.inl rfl) rfl

theorem Sound.retryDeadLetter (h : Sound s) :
  Sound (s.retryDeadLetter rt now published)
  := by
  rw [PartitionAggregator.retryDeadLetter]
  split
  · exact h
  · rename_i msg held
    split
    · exact h
    · exact h.publishOverflow held

theorem Sound.advance (h : Sound s) :
  Sound (s.advance rt now published)
  :=
  (h.fillWindow s.closing).launchEligible.startCommit.retryDeadLetter

section

variable (h : Sound s)

include h

theorem Sound.beginClose :
  Sound (s.beginClose rt now published)
  := by
  apply Sound.advance
  have closed : Sound { s with batches := s.batches.map closeBatch } := by
    apply h.replace
    rw [forall₂_map_right_iff, forall₂_same]
    exact fun batch mem => (h.done mem).closeBatch
  exact closed.congr rfl rfl rfl (.inl rfl) rfl

theorem Sound.settle :
  Sound (settle s)
  := by
  rw [Aggregate.settle]
  split
  · exact h.congr rfl rfl rfl (.inl rfl) rfl
  · exact h

theorem Sound.handleOverflow
    (keeps : rt.cfg.onOverflow = .block ∨ rt.cfg.onOverflow = .deadLetter)
    (new : past s.events m) (unblocked : ¬ s.blocked rt) (full : rt.maxRetained ≤ s.retainedCount) :
  Sound (({ s with events := s.events ++ [.received m] } : PartitionAggregator).handleOverflow rt m
    now published)
  := by
  simp only [blocked, decide_eq_true_eq, not_or, not_and, Option.not_isSome_iff_eq_none]
    at unblocked
  obtain ⟨room, free⟩ := unblocked
  rcases keeps with block | deadLetter
  · exact absurd full (room block)
  · have held := h.arrive free new (.inr ⟨rfl, rfl⟩)
    rw [PartitionAggregator.handleOverflow, deadLetter]
    exact (held.publishOverflow rfl).congr rfl rfl rfl (.inl rfl) rfl

theorem Sound.receive (new : past s.events m) (unblocked : ¬ s.blocked rt) :
  Sound (({ s with
      events := s.events ++ [.received m]
      buffer := s.buffer ++ [⟨m, rt.accepts m⟩] } : PartitionAggregator).fillWindow rt now false)
  := by
  have free : s.pendingOverflow = none := by
    simp only [blocked, decide_eq_true_eq, not_or, Option.not_isSome_iff_eq_none] at unblocked
    exact unblocked.2
  have arrived : Sound { s with
      events := s.events ++ [.received m]
      buffer := s.buffer ++ [⟨m, rt.accepts m⟩]
      pendingOverflow := none } := h.arrive free new (.inl ⟨by simp, rfl⟩)
  apply Sound.fillWindow
  exact arrived.congr rfl rfl free (.inl rfl) rfl

theorem Sound.step {a : Action}
    (keeps : rt.cfg.onOverflow = .block ∨ rt.cfg.onOverflow = .deadLetter)
    (increasing : Increasing a s) (eq : step rt a s = some t) :
  Sound t
  := by
  revert eq
  fun_cases Aggregate.step rt a s with
  | case2 m _ _ _ taken _ full =>
    rintro ⟨⟩
    exact h.handleOverflow keeps increasing (by tauto) full
  | case3 m _ _ _ taken =>
    rintro ⟨⟩
    exact h.receive increasing (by tauto)
  | case7 _ _ _ _ _ _ _ batch =>
    rintro ⟨⟩
    exact (h.log (quiet_executeBatch batch)).congr rfl rfl rfl (.inl rfl) rfl
  | case8 _ _ _ _ _ _ _ _ found running _ _ _ result =>
    rintro ⟨⟩
    exact (h.attempted found (not_not.mp running) result).advance.settle
  | case11 _ _ _ _ _ flight =>
    rintro ⟨⟩
    apply Sound.settle
    apply Sound.advance
    exact (h.drop flight).congr rfl rfl rfl (.inl rfl) rfl
  | case12 =>
    rintro ⟨⟩
    exact h.congr rfl rfl rfl (.inr rfl) rfl
  | case13 | case14 =>
    rintro ⟨⟩
    apply Sound.settle
    apply Sound.advance
    exact h.congr rfl rfl rfl (.inr rfl) rfl
  | case16 =>
    rintro ⟨⟩
    exact (h.fillWindow true).advance.settle
  | case18 =>
    rintro ⟨⟩
    exact h.advance.settle
  | case20 | case25 =>
    rintro ⟨⟩
    exact h.congr rfl rfl rfl (.inl rfl) rfl
  | case21 =>
    rintro ⟨⟩
    exact h
  | case23 =>
    rintro ⟨⟩
    exact h.beginClose.settle
  -- the action is not enabled
  | _ => exact nofun

end

theorem sound_initial :
  Sound {}
  where
  ascending := by simp [blocks, Below]
  sorted := .nil
  arrived := by simp [held_iff]
  covered := nofun
  discarded := nofun
  succeeded := nofun
  inFlight := nofun
  commits := by simp

/-- In every run of a coordinator whose overflow is blocked or published, each call to
`CommitMessages` covers what was received before it. -/
theorem commit_frontier (keeps : rt.cfg.onOverflow = .block ∨ rt.cfg.onOverflow = .deadLetter)
    (run : Run (Aggregate.step rt) Increasing {} s) {before after : List Event}
    {msgs : List Message} (called : s.events = before ++ .commit msgs :: after) :
  Covers before msgs
  := by
  have sound : Sound s :=
    run.invariant sound_initial (fun _ _ _ h increasing eq => h.step keeps increasing eq)
  exact sound.commits before msgs after called

namespace Sample

/-- Two batches of one record each may be attempted at a time, and overflow is published. -/
def pair : AggregateRuntime where
  cfg := { maxSize := 1, flushInterval := 100, onOverflow := .deadLetter }
  deadLetterPublisher := true
  emitSlots := 2

/-- The second batch succeeds first, and nothing is committed until the first one did. -/
def outOfOrder : List Action := [
  .receive ⟨3, "", ""⟩ 0 true,
  .receive ⟨7, "", ""⟩ 1 true,
  .attemptResult 1 (fun _ => true) true 2 true,
  .attemptResult 0 (fun _ => true) false 3 true,
  .retryTimer 103 true,
  .attemptResult 0 (fun _ => true) true 104 true]

def outOfOrderEvents : List Event := [
  .received ⟨3, "", ""⟩,
  .received ⟨7, "", ""⟩,
  .emitted [⟨7, "", ""⟩],
  .emitted [⟨3, "", ""⟩]]

end Sample

open Sample in
theorem outOfOrder_covered :
  ∃ s, Run (Aggregate.step pair) Increasing {} s ∧
    s.events = outOfOrderEvents ++ [.commit [⟨3, "", ""⟩, ⟨7, "", ""⟩]] ∧
      Covers outOfOrderEvents [⟨3, "", ""⟩, ⟨7, "", ""⟩]
  := by
  apply exists_guarded_run_and outOfOrder (by decide)
  exact fun _ run events => commit_frontier (.inr rfl) run events

end Aggregate

end Kafka

end Xflow
