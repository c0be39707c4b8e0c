import Mathlib.Order.Lattice

/-!
# Timed leases

Holders of type `D` claim keys of type `K` until a deadline.  What the holders believe is a table of
claims; what the keeper of the leases has written down is one deadline for each key.  The two agree
when every claim whose deadline is still ahead is backed by the keeper and no key has two such
claims.  A call of one holder keeps the agreement when it leaves what backs the others' claims alone
and is granted nothing they hold.
-/

namespace Leases

variable {D K T : Type*}

/-- Who claims what, and until when. -/
abbrev Claims (D K T : Type*) := D → K → Option T

/-- Give `d` one and the same claim on several keys, or none. -/
def Claims.set [DecidableEq D] [DecidableEq K] (claims : Claims D K T) (d : D) (ks : List K)
    (claim : Option T) : Claims D K T :=
  fun d' k => if d' = d ∧ k ∈ ks then claim else claims d' k

variable {claims : Claims D K T} {d : D}

attribute [local simp] Claims.set

theorem Claims.set_of_ne [DecidableEq D] [DecidableEq K] {d' : D} {ks : List K} {claim : Option T}
    (ne : d' ≠ d) (k : K) :
  claims.set d ks claim d' k = claims d' k
  := by
  simp [ne]

variable [LinearOrder T]

/-- The claim of `d` on `k` has its deadline ahead. -/
def Live (claims : Claims D K T) (now : T) (d : D) (k : K) : Prop :=
  ∃ deadline, claims d k = some deadline ∧ now < deadline

instance (claims : Claims D K T) (now : T) (d : D) (k : K) : Decidable (Live claims now d k) :=
  decidable_of_iff (∃ deadline ∈ claims d k, now < deadline) Iff.rfl

/-- Every claim that is live is the one the keeper has on record, and it is the only one. -/
structure Exclusive (claims : Claims D K T) (record : K → Option T) (now : T) : Prop where
  backed : ∀ d k deadline, claims d k = some deadline → now < deadline → record k = some deadline
  sole : ∀ d d' k, Live claims now d k → Live claims now d' k → d = d'

theorem Live.earlier {now later : T} {k : K} (le : now ≤ later)
    (live : Live claims later d k) :
  Live claims now d k
  := by
  obtain ⟨deadline, eq, lt⟩ := live
  exact ⟨deadline, eq, lt_of_le_of_lt le lt⟩

theorem Exclusive.unclaimed {record : K → Option T} {now : T} (none : ∀ d k, claims d k = none) :
  Exclusive claims record now
  := by
  constructor
  case backed =>
    intro d k deadline eq
    simp [none] at eq
  case sole =>
    intro d d' k live
    obtain ⟨deadline, eq, -⟩ := live
    simp [none] at eq

namespace Exclusive

variable {claims claims' : Claims D K T} {record record' : K → Option T} {now now' : T}

section

variable (h : Exclusive claims record now)

include h

theorem later (le : now ≤ now') :
  Exclusive claims record now'
  := by
  constructor
  case backed =>
    intro d k deadline eq lt
    apply h.backed d k deadline eq (lt_of_le_of_lt le lt)
  case sole =>
    intro d d' k live live'
    apply h.sole d d' k (live.earlier le) (live'.earlier le)

/-- A call of `d` that leaves alone the record of what the others hold, after which `d` holds
nothing of theirs and only what is on record. -/
theorem call (d : D) (others : ∀ d' k, d' ≠ d → claims' d' k = claims d' k)
    (kept : ∀ d' k, d' ≠ d → Live claims now d' k → record' k = record k ∧ ¬ Live claims' now d k)
    (own : ∀ k deadline, claims' d k = some deadline → now < deadline → record' k = some deadline) :
  Exclusive claims' record' now
  := by
  have before : ∀ d' k, d' ≠ d → Live claims' now d' k → Live claims now d' k := by
    intro d' k ne live
    obtain ⟨deadline, eq, lt⟩ := live
    exact ⟨deadline, by rw [← others d' k ne, eq], lt⟩
  constructor
  case backed =>
    intro d' k deadline eq lt
    by_cases self : d' = d
    · subst self
      apply own k deadline eq lt
    · rw [others d' k self] at eq
      rw [(kept d' k self ⟨deadline, eq, lt⟩).1]
      apply h.backed d' k deadline eq lt
  case sole =>
    intro d₁ d₂ k live₁ live₂
    by_cases self₁ : d₁ = d
    · grind
    · by_cases self₂ : d₂ = d
      · grind
      · apply h.sole d₁ d₂ k (before d₁ k self₁ live₁) (before d₂ k self₂ live₂)

theorem record_of_live {k : K} (live : Live claims now d k) :
  ∃ deadline, record k = some deadline ∧ now < deadline
  := by
  obtain ⟨deadline, eq, lt⟩ := live
  exact ⟨deadline, h.backed d k deadline eq lt, lt⟩

/-- A call by which `d` is given a claim on some keys, or gives up those it had there: the record
changes for these keys only, for none that another holds, and to the claim that is given. -/
theorem set [DecidableEq D] [DecidableEq K] (d : D) (ks : List K) (claim : Option T)
    (rest : ∀ k, k ∉ ks → record' k = record k)
    (kept : ∀ d' k, d' ≠ d → k ∈ ks → Live claims now d' k → record' k = record k ∧ claim = none)
    (given : ∀ k ∈ ks, ∀ deadline, claim = some deadline → record' k = some deadline) :
  Exclusive (claims.set d ks claim) record' now
  := by
  apply h.call d
  case others => exact fun d' k ne => Claims.set_of_ne ne k
  case kept =>
    intro d' k ne live
    by_cases mem : k ∈ ks
    · obtain ⟨same, rfl⟩ := kept d' k ne mem live
      exact ⟨same, by simp [Live, mem]⟩
    · constructor
      · apply rest k mem
      · intro own
        apply ne
        apply h.sole d' d k live
        simpa [Live, mem] using own
  case own =>
    intro k deadline eq lt
    by_cases mem : k ∈ ks
    · apply given k mem deadline
      simpa [mem] using eq
    · rw [rest k mem]
      apply h.backed d k deadline _ lt
      simpa [mem] using eq

end

end Exclusive

end Leases
