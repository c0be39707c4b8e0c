import Mathlib.Data.List.Nodup
import Mathlib.Order.Lattice
import Xflow.Lib.Run

/-!
# Rosters

A roster is a chain of signatories who are asked in order, with a record of who has signed and of
whose place was closed in another way.  A signatory who is neither is open.  An open member of the
chain may sign, hand the place over to somebody else, or have somebody added beside them.

A hand-over or an addition is fresh when the one it names is open and is not the one who made it.
Fresh moves keep it so that nobody whose place was closed without a signature is in the chain
(`step_sound`), and if moreover everybody moves in turn, that the chain is the list of those who
signed followed by open members (`step_ordered`).
-/

/-- A chain of signatories and what is on record of them. -/
structure Roster (α : Type*) where
  /-- Who is asked, in order. -/
  chain : List α
  /-- Who has signed, in the order of signing. -/
  signed : List α := []
  /-- Whose place was closed without a signature. -/
  closed : List α := []

namespace Roster

open Transition List Option

variable {α : Type*} {a : α} {before : Bool}

/-! ### Adding beside a member -/

/-- The two members `a` and `b`, in the one or the other order. -/
def pair (before : Bool) (a b : α) : List α :=
  if before then [b, a] else [a, b]

@[simp]
theorem mem_pair {b c : α} :
  c ∈ pair before a b ↔ c = a ∨ c = b
  := by
  cases before <;> simp [pair, or_comm]

theorem nodup_pair {b : α} (h : b ≠ a) :
  (pair before a b).Nodup
  := by
  cases before <;> simp [pair, h, Ne.symm h]

@[simp]
theorem length_pair (before : Bool) (a b : α) :
  (pair before a b).length = 2
  := by
  cases before <;> rfl

variable [DecidableEq α]

/-- The list with `b` put before or after each occurrence of `a`. -/
def insertBeside (before : Bool) (a b : α) (l : List α) : List α :=
  l.flatMap (fun x => if x = a then pair before a b else [x])

theorem insertBeside_of_notMem {before : Bool} {a b : α} {l : List α} (h : a ∉ l) :
  insertBeside before a b l = l
  := by
  induction l with
  | nil => rfl
  | cons x l ih =>
    simp only [mem_cons, not_or] at h
    have rest := ih h.2
    simp only [insertBeside] at rest ⊢
    simp [rest, Ne.symm h.1]

theorem split_at {l : List α} (distinct : l.Nodup) (h : a ∈ l) :
  ∃ l₁ l₂, l = l₁ ++ a :: l₂ ∧ a ∉ l₁ ∧ a ∉ l₂ ∧ l.erase a = l₁ ++ l₂ ∧
    (∀ b, l.replace a b = l₁ ++ b :: l₂) ∧
    ∀ before b, insertBeside before a b l = l₁ ++ pair before a b ++ l₂
  := by
  obtain ⟨l₁, l₂, rfl, h₁⟩ := eq_append_cons_of_mem h
  have h₂ : a ∉ l₂ := by
    intro h₂
    simp [nodup_append, h₂] at distinct
  use l₁, l₂
  refine ⟨rfl, h₁, h₂, ?_, ?_, ?_⟩
  · simp [erase_append_right _ h₁]
  · intro b
    simp [replace_append_right h₁]
  · intro before b
    have left := @insertBeside_of_notMem _ _ before _ b _ h₁
    have right := @insertBeside_of_notMem _ _ before _ b _ h₂
    simp only [insertBeside] at left right ⊢
    simp [left, right]

/-! ### Moves -/

/-- What an open member of the chain may do. -/
inductive Move (α : Type*) where
  | sign (a : α)
  | handOver (a b : α)
  | add (before : Bool) (a b : α)

/-- Who makes a move. -/
def Move.mover : Move α → α
  | .sign a | .handOver a _ | .add _ a _ => a

/-- Nothing is on record of `a`. -/
def Open (r : Roster α) (a : α) : Prop :=
  a ∉ r.signed ∧ a ∉ r.closed

instance (r : Roster α) (a : α) : Decidable (r.Open a) :=
  inferInstanceAs (Decidable (_ ∧ _))

/-- The roster after a move, which only an open member of the chain makes.  The chain does not get
anybody twice, and nobody is added to a chain of `limit` members. -/
def step (limit : Nat) (m : Move α) (r : Roster α) : Option (Roster α) :=
  if m.mover ∈ r.chain ∧ r.Open m.mover then
    match m with
    | .sign a => some { r with signed := r.signed ++ [a] }
    | .handOver a b =>
      if b ∈ r.chain.erase a then none
      else some { r with chain := r.chain.replace a b, closed := r.closed ++ [a] }
    | .add before a b =>
      if b ∈ r.chain ∨ limit ≤ r.chain.length then none
      else some { r with chain := insertBeside before a b r.chain }
  else none

section

variable {limit : Nat} {m : Move α} {r r' : Roster α}

section

variable (distinct : r.chain.Nodup) (h : step limit m r = some r')

include distinct h

theorem step_cases :
  r.Open m.mover ∧ ∃ l₁ l₂, r.chain = l₁ ++ m.mover :: l₂ ∧ m.mover ∉ l₁ ∧ m.mover ∉ l₂ ∧
    match m with
    | .sign a => r' = { r with signed := r.signed ++ [a] }
    | .handOver a b =>
      b ∉ l₁ ∧ b ∉ l₂ ∧ r' = { r with chain := l₁ ++ b :: l₂, closed := r.closed ++ [a] }
    | .add before a b =>
      b ∉ r.chain ∧ r.chain.length < limit ∧
        r' = { r with chain := l₁ ++ pair before a b ++ l₂ }
  := by
  obtain ⟨able, h⟩ := ite_none_right_eq_some.mp h
  obtain ⟨l₁, l₂, chain, h₁, h₂, erase, replace, insert⟩ := split_at distinct able.1
  refine ⟨able.2, l₁, l₂, chain, h₁, h₂, ?_⟩
  cases m with
  | sign a => simpa using h.symm
  | handOver a b | add before a b =>
    simp only [Move.mover] at erase replace insert
    simp only [erase, replace, insert] at h
    split at h
    · cases h
    · rename_i absent
      simp only [mem_append, not_or, not_le] at absent
      exact ⟨absent.1, absent.2, by simpa using h.symm⟩

/-! ### The chain -/

theorem step_nodup :
  r'.chain.Nodup
  := by
  obtain ⟨-, l₁, l₂, chain, h₁, h₂, effect⟩ := step_cases distinct h
  have parts := distinct
  rw [chain, nodup_append, nodup_cons] at parts
  obtain ⟨nd₁, ⟨-, nd₂⟩, apart⟩ := parts
  have apart₂ : ∀ x ∈ l₁, ∀ y ∈ l₂, x ≠ y := fun x hx y hy => apart x hx y (by simp [hy])
  cases m with
  | sign a => simpa [effect] using distinct
  | handOver a b =>
    obtain ⟨b₁, b₂, rfl⟩ := effect
    grind
  | add before a b =>
    obtain ⟨absent, -, rfl⟩ := effect
    simp only [chain, mem_append, mem_cons, not_or] at absent
    obtain ⟨b₁, hab, b₂⟩ := absent
    simp only [append_assoc, nodup_append, mem_append, mem_pair]
    refine ⟨nd₁, ⟨nodup_pair hab, nd₂, ?_⟩, ?_⟩
    · rintro x (rfl | rfl) y hy
      · exact (ne_of_mem_of_not_mem hy h₂).symm
      · exact (ne_of_mem_of_not_mem hy b₂).symm
    · rintro x hx y ((rfl | rfl) | hy)
      · exact ne_of_mem_of_not_mem hx h₁
      · exact ne_of_mem_of_not_mem hx b₁
      · exact apart₂ x hx y hy

theorem step_length :
  r'.chain.length ≤ max r.chain.length limit
  := by
  obtain ⟨-, l₁, l₂, chain, -, -, effect⟩ := step_cases distinct h
  cases m with
  | sign a => simp [effect]
  | handOver a b =>
    obtain ⟨-, -, rfl⟩ := effect
    simp [chain]
  | add before a b =>
    obtain ⟨-, short, rfl⟩ := effect
    simp only [chain, length_append, length_cons, length_pair] at short ⊢
    omega

theorem mem_chain_of_step {c : α} (hc : c ∈ r'.chain) :
  c ∈ r.chain ∨ (∃ a, m = .handOver a c) ∨ ∃ before a, m = .add before a c
  := by
  obtain ⟨-, l₁, l₂, chain, -, -, effect⟩ := step_cases distinct h
  cases m with
  | sign a => exact .inl (by simpa [effect] using hc)
  | handOver a b =>
    obtain ⟨-, -, rfl⟩ := effect
    grind
  | add before a b =>
    obtain ⟨-, -, rfl⟩ := effect
    simp only [mem_append, mem_pair] at hc
    rcases hc with (hc | rfl | rfl) | hc
    · simp [chain, hc]
    · simp [chain, Move.mover]
    · simp
    · simp [chain, hc]

end

/-! ### Fresh moves -/

/-- A move that names somebody other than its maker names somebody who is open. -/
def Fresh (m : Move α) (r : Roster α) : Prop :=
  match m with
  | .sign _ => True
  | .handOver a b => b ≠ a ∧ r.Open b
  | .add _ _ b => r.Open b

omit [DecidableEq α] in
theorem fresh_sign (a : α) (r : Roster α) : Fresh (.sign a) r := trivial

/-- The chain has nobody twice, and nobody whose place was closed without a signature. -/
structure Sound (r : Roster α) : Prop where
  distinct : r.chain.Nodup
  disjoint : ∀ a ∈ r.chain, a ∉ r.closed

theorem step_sound (sound : r.Sound) (fresh : Fresh m r) (h : step limit m r = some r') :
  r'.Sound
  := by
  constructor
  · exact step_nodup sound.distinct h
  · intro c hc
    obtain ⟨-, l₁, l₂, chain, h₁, h₂, effect⟩ := step_cases sound.distinct h
    have old := mem_chain_of_step sound.distinct h hc
    cases m with
    | sign a =>
      simp only [effect] at hc ⊢
      exact sound.disjoint c hc
    | handOver a b =>
      obtain ⟨-, -, rfl⟩ := effect
      simp only [mem_append, mem_cons, not_mem_nil, or_false, not_or] at hc ⊢
      rcases hc with hc | rfl | hc
      · exact ⟨sound.disjoint c (by simp [chain, hc]), ne_of_mem_of_not_mem hc h₁⟩
      · exact ⟨fresh.2.2, fresh.1⟩
      · exact ⟨sound.disjoint c (by simp [chain, hc]), ne_of_mem_of_not_mem hc h₂⟩
    | add before a b =>
      obtain ⟨-, -, rfl⟩ := effect
      rcases old with hold | ⟨_, hold⟩ | ⟨_, _, hold⟩
      · exact sound.disjoint c hold
      · cases hold
      · cases hold
        exact fresh.2

/-! ### Moves in turn -/

/-- The first open member of the chain. -/
def next (r : Roster α) : Option α :=
  r.chain.find? (fun a => r.Open a)

/-- The chain is the list of those who signed, followed by open members. -/
def Ordered (r : Roster α) : Prop :=
  ∃ rest, r.chain = r.signed ++ rest ∧ ∀ a ∈ rest, r.Open a

/-- In an ordered chain whose next member is `a`, it is `a` who follows those who signed. -/
theorem Ordered.split (ordered : r.Ordered) (turn : r.next = some a) :
  ∃ rest, r.chain = r.signed ++ a :: rest ∧ ∀ c ∈ rest, r.Open c
  := by
  obtain ⟨rest, chain, free⟩ := ordered
  have passed : r.signed.find? (fun a => decide (r.Open a)) = none := by
    simp +contextual [Open]
  rw [next, chain, find?_append, passed] at turn
  cases rest with
  | nil => simp at turn
  | cons b rest =>
    obtain rfl : b = a := by simpa [free b (by simp)] using turn
    use rest
    exact ⟨chain, fun c hc => free c (by simp [hc])⟩

theorem step_ordered (sound : r.Sound) (ordered : r.Ordered) (fresh : Fresh m r)
    (turn : r.next = some m.mover) (h : step limit m r = some r') :
  r'.Ordered
  := by
  obtain ⟨able, l₁, l₂, chain, h₁, h₂, effect⟩ := step_cases sound.distinct h
  obtain ⟨rest, split, free⟩ := ordered.split turn
  -- The place of the mover in the chain is the one after those who signed.
  obtain ⟨rfl, -, rfl⟩ := (append_cons_inj_of_notMem h₁ h₂).mp (chain.symm.trans split)
  cases m with
  | sign a =>
    obtain rfl : r' = { r with signed := r.signed ++ [a] } := effect
    use l₂
    refine ⟨by simp [chain, Move.mover], ?_⟩
    intro c hc
    have other : c ≠ a := ne_of_mem_of_not_mem hc h₂
    simpa [Open, other] using free c hc
  | handOver a b =>
    obtain ⟨-, b₂, rfl⟩ := effect
    use b :: l₂
    refine ⟨rfl, ?_⟩
    intro c hc
    have other : c ≠ a := by
      rcases mem_cons.mp hc with rfl | hc
      · exact fresh.1
      · exact ne_of_mem_of_not_mem hc h₂
    have before : r.Open c := by
      rcases mem_cons.mp hc with rfl | hc
      · exact fresh.2
      · exact free c hc
    simpa [Open, other] using before
  | add before a b =>
    obtain ⟨-, -, rfl⟩ := effect
    use pair before a b ++ l₂
    refine ⟨by simp, ?_⟩
    intro c hc
    simp only [mem_append, mem_pair] at hc
    rcases hc with (rfl | rfl) | hc
    · exact able
    · exact fresh
    · exact free c hc

/-! ### Open members -/

/-- Somebody else than its maker is open in the chain after a move that closes a place. -/
def Leaves (m : Move α) (r : Roster α) : Prop :=
  match m with
  | .sign a => ∃ c ∈ r.chain, c ≠ a ∧ r.Open c
  | .handOver a b => ∃ c ∈ r.chain.replace a b, c ≠ a ∧ r.Open c
  | .add _ _ _ => True

theorem exists_open_of_step (distinct : r.chain.Nodup) (leaves : Leaves m r)
    (h : step limit m r = some r') :
  ∃ c ∈ r'.chain, r'.Open c
  := by
  have effect := h
  obtain ⟨able, effect⟩ := ite_none_right_eq_some.mp effect
  cases m with
  | sign a =>
    obtain ⟨c, hc, other, free⟩ := leaves
    obtain rfl := some.inj effect
    exact ⟨c, hc, by simpa [Open, other] using free⟩
  | handOver a b =>
    obtain ⟨c, hc, other, free⟩ := leaves
    simp only [ite_none_left_eq_some, some.injEq] at effect
    obtain ⟨-, rfl⟩ := effect
    exact ⟨c, hc, by simpa [Open, other] using free⟩
  | add before a b =>
    obtain ⟨-, l₁, l₂, -, -, -, -, -, rfl⟩ := step_cases distinct h
    exact ⟨a, by simp, able.2⟩

end

end Roster
