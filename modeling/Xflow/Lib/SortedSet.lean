import Mathlib.Data.List.Nodup
import Mathlib.Order.Lattice

/-!
# Sorted sets

A sorted set gives each of its members a score and keeps them by score, and by the members' own
order where scores are equal.  A new member whose score is above all others goes to the end, so that
a sorted set whose scores are drawn from a counter is a line.
-/

/-- `e` comes before `f`. -/
def SortedSet.Before {α : Type*} [LinearOrder α] (e f : Int × α) : Prop :=
  e.1 < f.1 ∨ (e.1 = f.1 ∧ e.2 < f.2)

instance {α : Type*} [LinearOrder α] (e f : Int × α) : Decidable (SortedSet.Before e f) :=
  inferInstanceAs (Decidable (_ ∨ _))

/-- Members with scores, in order, none of them twice. -/
structure SortedSet (α : Type*) [LinearOrder α] where
  entries : List (Int × α) := []
  sorted : entries.Pairwise SortedSet.Before := by simp
  nodup : (entries.map Prod.snd).Nodup := by simp

namespace SortedSet

open List Prod

variable {α : Type*} [LinearOrder α] {e : Int × α} {l : List (Int × α)}

theorem Before.trans {f g : Int × α} (first : Before e f) (second : Before f g) :
  Before e g
  := by
  rcases first with lt | ⟨eq, lt⟩ <;> rcases second with lt' | ⟨eq', lt'⟩
  · exact .inl (lt.trans lt')
  · exact .inl (eq' ▸ lt)
  · exact .inl (eq ▸ lt')
  · exact .inr ⟨eq.trans eq', lt.trans lt'⟩

theorem before_of_not {f : Int × α} (other : e.2 ≠ f.2) (h : ¬ Before e f) :
  Before f e
  := by
  rcases lt_trichotomy e.1 f.1 with lt | eq | gt
  · exact absurd (.inl lt) h
  · rcases lt_or_gt_of_ne other with lt | gt
    · exact absurd (.inr ⟨eq, lt⟩) h
    · exact .inr ⟨eq.symm, gt⟩
  · exact .inl gt

/-! ### Insertion -/

/-- Put an entry where it belongs. -/
def insert (e : Int × α) : List (Int × α) → List (Int × α)
  | [] => [e]
  | f :: l => if Before e f then e :: f :: l else f :: insert e l

theorem insert_perm (e : Int × α) (l : List (Int × α)) :
  (insert e l).Perm (e :: l)
  := by
  induction l with
  | nil => apply List.Perm.refl
  | cons f l ih =>
    unfold insert
    split
    · apply List.Perm.refl
    · apply (ih.cons f).trans
      apply List.Perm.swap

theorem insert_sorted (sorted : l.Pairwise Before)
    (new : e.2 ∉ l.map snd) :
  (insert e l).Pairwise Before
  := by
  fun_induction insert e l with
  | case1 => simp
  | case2 f l first =>
    rw [pairwise_cons] at sorted ⊢
    refine ⟨fun g member => ?_, pairwise_cons.mpr sorted⟩
    rcases mem_cons.mp member with rfl | member
    · exact first
    · exact first.trans (sorted.1 g member)
  | case3 f l later ih =>
    rw [map_cons, mem_cons, not_or] at new
    rw [pairwise_cons] at sorted ⊢
    refine ⟨fun g member => ?_, ih sorted.2 new.2⟩
    rcases mem_cons.mp ((insert_perm e l).mem_iff.mp member) with rfl | member
    · exact before_of_not new.1 later
    · exact sorted.1 g member

theorem insert_last (last : ∀ f ∈ l, f.1 < e.1) :
  insert e l = l ++ [e]
  := by
  induction l with
  | nil => rfl
  | cons f l ih =>
    rw [forall_mem_cons] at last
    have later : ¬ Before e f := by
      unfold Before
      omega
    rw [insert, if_neg later, ih last.2]
    rfl

/-! ### The operations -/

variable (z : SortedSet α)

/-- The members, in order. -/
def members : List α :=
  z.entries.map snd

/-- `ZCARD`. -/
def card : Nat :=
  z.entries.length

/-- `ZSCORE`. -/
def score? (a : α) : Option Int :=
  (z.entries.find? fun e => e.2 = a).map fst

/-- `ZRANK`. -/
def rank? (a : α) : Option Nat :=
  if a ∈ z.members then some (z.members.idxOf a) else none

/-- `ZREM`. -/
def remove (a : α) : SortedSet α where
  entries := z.entries.filter fun e => e.2 ≠ a
  sorted := z.sorted.filter _
  nodup := z.nodup.sublist (List.filter_sublist.map snd)

theorem not_mem_remove (a : α) :
  a ∉ (z.remove a).entries.map snd
  := by
  simp [remove]

/-- `ZADD`: a member that is there gets another score. -/
def add (score : Int) (a : α) : SortedSet α where
  entries := insert (score, a) (z.remove a).entries
  sorted := insert_sorted (z.remove a).sorted (z.not_mem_remove a)
  nodup := by
    rw [((insert_perm _ _).map snd).nodup_iff, List.map_cons, List.nodup_cons]
    exact ⟨z.not_mem_remove a, (z.remove a).nodup⟩

/-- `ZPOPMIN`. -/
def popMin : Option (α × SortedSet α) :=
  match z with
  | ⟨[], _, _⟩ => none
  | ⟨e :: rest, sorted, nodup⟩ =>
    some (e.2, ⟨rest, (List.pairwise_cons.mp sorted).2, (List.nodup_cons.mp nodup).2⟩)

/-- `ZRANGEBYSCORE` from minus infinity, up to a number of members. -/
def upTo (score : Int) (limit : Nat) : List α :=
  ((z.entries.filter fun e => e.1 ≤ score).take limit).map snd

/-! ### What the operations do to the members -/

variable {z}

theorem nodup_members :
  z.members.Nodup
  := z.nodup

@[simp]
theorem length_members :
  z.members.length = z.card
  := length_map _

theorem eq_empty_of_card {z : SortedSet α} (none : z.card = 0) :
  z = {}
  := by
  have entries : z.entries = [] := length_eq_zero_iff.mp none
  cases z
  cases entries
  rfl

@[simp]
theorem members_remove (a : α) :
  (z.remove a).members = z.members.erase a
  := by
  rw [z.nodup_members.erase_eq_filter, members, members, filter_map]
  apply congrArg
  apply filter_congr
  intro e _
  by_cases same : e.2 = a <;> simp [same]

variable {a : α} {score : Int} {limit : Nat}

theorem remove_of_not_mem (absent : a ∉ z.members) :
  z.remove a = z
  := by
  obtain ⟨entries, sorted, nodup⟩ := z
  have same : entries.filter (fun e => e.2 ≠ a) = entries := by
    rw [filter_eq_self]
    intro e member
    rw [decide_eq_true_eq]
    rintro rfl
    exact absent (mem_map_of_mem member)
  simp only [remove, same]

theorem add_perm (new : a ∉ z.members) :
  (z.add score a).members.Perm (a :: z.members)
  := by
  have same : (z.remove a).members = z.members := by
    rw [members_remove, erase_of_not_mem new]
  rw [← same]
  apply (insert_perm _ _).map snd

theorem members_add_last (new : a ∉ z.members) (last : ∀ e ∈ z.entries, e.1 < score) :
  (z.add score a).members = z.members ++ [a]
  := by
  have same : (z.remove a).members = z.members := by
    rw [members_remove, erase_of_not_mem new]
  have entries : (z.add score a).entries = (z.remove a).entries ++ [(score, a)] := by
    apply insert_last
    intro e member
    apply last e (mem_of_mem_filter member)
  rw [members, entries, map_append, ← same]
  rfl

theorem mem_entries_add :
  e ∈ (z.add score a).entries ↔ e = (score, a) ∨ (e ∈ z.entries ∧ e.2 ≠ a)
  := by
  rw [add, (insert_perm _ _).mem_iff, remove]
  simp

theorem mem_entries_remove :
  e ∈ (z.remove a).entries ↔ e ∈ z.entries ∧ e.2 ≠ a
  := by
  simp [remove]

@[simp]
theorem isSome_score? :
  (z.score? a).isSome ↔ a ∈ z.members
  := by
  simp [score?, members]

theorem popMin_eq_none :
  z.popMin = none ↔ z.members = []
  := by
  obtain ⟨entries, sorted, nodup⟩ := z
  cases entries <;> simp [popMin, members]

theorem popMin_eq_some {z' : SortedSet α} (h : z.popMin = some (a, z')) :
  z.members = a :: z'.members ∧ ∀ e ∈ z'.entries, e ∈ z.entries
  := by
  obtain ⟨entries, sorted, nodup⟩ := z
  cases entries with
  | nil => cases h
  | cons e rest =>
    obtain ⟨rfl, rfl⟩ := h
    exact ⟨rfl, fun f member => mem_cons_of_mem e member⟩

theorem upTo_sublist :
  z.upTo score limit <+ z.members
  := ((take_sublist _ _).trans filter_sublist).map snd

theorem mem_upTo (enough : (z.entries.filter fun e => e.1 ≤ score).length ≤ limit) :
  a ∈ z.upTo score limit ↔ ∃ t, (t, a) ∈ z.entries ∧ t ≤ score
  := by
  rw [upTo, take_of_length_le enough]
  simp

end SortedSet
