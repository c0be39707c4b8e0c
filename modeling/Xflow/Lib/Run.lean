import Mathlib.Logic.Relation

/-!
# Runs of a transition function

A transition function `step : α → σ → Option σ` takes an action and a state to the next state, or
to nothing when the action is not enabled.  A run meets a condition `C` when each of its actions
is taken in a state where `C` holds of the two.
-/

namespace List

variable {α : Type*} {l later before after : List α} {e x : α}

/-- An element of a list that was extended is an old one, or one of those that were added. -/
theorem append_split (eq : l ++ later = before ++ x :: after) :
  (∃ init, l = before ++ x :: init) ∨ ∃ mid, before = l ++ mid ∧ later = mid ++ x :: after
  := by
  rcases append_eq_append_iff.mp eq with new | ⟨mid, rfl, rest⟩
  · exact .inr new
  · cases mid with
    | nil => exact .inr ⟨[], by simp, rest.symm⟩
    | cons y mid =>
      cases rest
      exact .inl ⟨mid, rfl⟩

theorem concat_split (eq : l ++ [e] = before ++ x :: after) :
  (∃ init, l = before ++ x :: init) ∨ before = l ∧ x = e
  := by
  refine (append_split eq).imp_right fun ⟨mid, new, last⟩ => ?_
  cases mid <;> simp_all

end List

namespace Transition

variable {σ α : Type*}

/-- One step of `step` whose action and state before satisfy `C`. -/
def Via (step : α → σ → Option σ) (C : α → σ → Prop) (s t : σ) : Prop :=
  ∃ a, C a s ∧ step a s = some t

/-- `Run step C s t` holds when `t` is reached from `s` by finitely many steps that meet `C`. -/
abbrev Run (step : α → σ → Option σ) (C : α → σ → Prop) : σ → σ → Prop :=
  Relation.ReflTransGen (Via step C)

variable {step : α → σ → Option σ} {C : α → σ → Prop}

/-- A predicate that holds at the start of a run and is kept by every step that meets `C` holds at
the end of the run. -/
theorem Run.invariant {I : σ → Prop} {s t : σ} (run : Run step C s t) (start : I s)
    (keep : ∀ a s t, I s → C a s → step a s = some t → I t) :
  I t
  := by
  induction run with
  | refl => apply start
  | tail _ via ih =>
    obtain ⟨a, cond, next⟩ := via
    apply keep a _ _ ih cond next

theorem Run.mono {C D : α → σ → Prop} {s t : σ} (run : Run step C s t)
    (weaker : ∀ a s, C a s → D a s) :
  Run step D s t
  := by
  induction run with
  | refl => exact .refl
  | tail _ via ih =>
    obtain ⟨a, cond, next⟩ := via
    apply ih.tail ⟨a, weaker a _ cond, next⟩

/-- The state reached by taking the actions of a list one after the other. -/
def exec (step : α → σ → Option σ) : List α → σ → Option σ
  | [], s => some s
  | a :: as, s => (step a s).bind (exec step as)

/-- Executing a list of actions that meet `C` in every state is a run that meets `C`. -/
theorem Run.of_exec_cond {as : List α} {s t : σ}
    (h : exec step as s = some t) (cond : ∀ a ∈ as, ∀ s, C a s) :
  Run step C s t
  := by
  induction as generalizing s with
  | nil =>
    obtain rfl : s = t := by simpa [exec] using h
    exact .refl
  | cons a as ih =>
    obtain ⟨u, next, rest⟩ := Option.bind_eq_some_iff.mp h
    apply Relation.ReflTransGen.head (b := u)
    · exact ⟨a, cond a (by simp) s, next⟩
    · apply ih rest
      intro b hb
      apply cond b (by simp [hb])

theorem Run.of_exec {as : List α} {s t : σ} (h : exec step as s = some t) :
  Run step (fun _ _ => True) s t
  := of_exec_cond h fun _ _ _ => trivial

/-- The steps that meet `C`. -/
def guarded (step : α → σ → Option σ) (C : α → σ → Prop) [∀ a s, Decidable (C a s)] (a : α)
    (s : σ) : Option σ :=
  if C a s then step a s else none

/-- Executing a list of actions that meet `C` when they are taken is a run that meets `C`. -/
theorem Run.of_guarded [∀ a s, Decidable (C a s)] {as : List α}
    {s t : σ} (h : exec (guarded step C) as s = some t) :
  Run step C s t
  := by
  refine Relation.ReflTransGen.mono ?_ _ _ (Run.of_exec h)
  rintro s t ⟨a, -, next⟩
  unfold guarded at next
  split at next
  · rename_i cond
    exact ⟨a, cond, next⟩
  · cases next

section

variable {P Q : σ → Prop} [DecidablePred P] {s : σ} (as : List α)

theorem exists_exec (h : (exec step as s).any (fun t => P t)) :
  ∃ t, exec step as s = some t ∧ P t
  := by
  obtain ⟨t, reached, holds⟩ := (Option.any_eq_true _ _).mp h
  exact ⟨t, reached, of_decide_eq_true holds⟩

/-- A run is evaluated. -/
theorem exists_run (h : (exec step as s).any (fun t => P t)) :
  ∃ t, Run step (fun _ _ => True) s t ∧ P t
  := by
  obtain ⟨t, reached, holds⟩ := exists_exec as h
  exact ⟨t, Run.of_exec reached, holds⟩

/-- A run that meets `C` is evaluated. -/
theorem exists_guarded_run [∀ a s, Decidable (C a s)]
    (h : (exec (guarded step C) as s).any (fun t => P t)) :
  ∃ t, Run step C s t ∧ P t
  := by
  obtain ⟨t, reached, holds⟩ := exists_exec as h
  exact ⟨t, Run.of_guarded reached, holds⟩

/-- A run is evaluated, and more follows from what is found. -/
theorem exists_run_of (h : (exec step as s).any (fun t => P t))
    (imp : ∀ t, Run step (fun _ _ => True) s t → P t → Q t) :
  ∃ t, Run step (fun _ _ => True) s t ∧ Q t
  := by
  obtain ⟨t, run, holds⟩ := exists_run as h
  exact ⟨t, run, imp t run holds⟩

section

variable [∀ a s, Decidable (C a s)] (h : (exec (guarded step C) as s).any (fun t => P t))
  (imp : ∀ t, Run step C s t → P t → Q t)

include h imp

theorem exists_guarded_run_of :
  ∃ t, Run step C s t ∧ Q t
  := by
  obtain ⟨t, run, holds⟩ := exists_guarded_run as h
  exact ⟨t, run, imp t run holds⟩

theorem exists_guarded_run_and :
  ∃ t, Run step C s t ∧ P t ∧ Q t
  :=
  exists_guarded_run_of as h fun t run holds => ⟨holds, imp t run holds⟩

end

end

end Transition
