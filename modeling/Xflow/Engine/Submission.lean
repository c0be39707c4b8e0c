import Xflow.Lib.Run
import Xflow.Store.Idempotency

/-!
# Keyed submissions

Any number of submissions, with the same key or with others, claim, create and settle, in steps that
interleave; the clock runs, executions progress and their records are removed.  A submission creates
its execution before its own lease runs out, if it creates it at all.

As long as no claim expires before its lease (`windowed`), an execution is created once for as long
as its record exists, and the other answers are what they should be (`submissions_exclusive`).  The
window of a claim is shortened to the retention of its execution, which may be less than the lease;
then a claim can expire while its submission is still creating (`created_twice`).
-/

namespace Xflow

open ClaimStore Function List Option Transition

/-- How far a submission got with its creation. -/
inductive SubmitPhase where
  | creating
  | created
  | refused
  | settled
  deriving DecidableEq

/-- A submission whose claim was answered.  Its token is its position. -/
structure Submission where
  request : SubmissionRequest
  id : String
  /-- It was told to create its execution. -/
  creates : Bool
  leaseUntil : Int
  phase : SubmitPhase := .creating
  deriving DecidableEq

/-- What happened, in order. -/
inductive SubmissionEvent where
  /-- The submission was told to create the execution, over the claim of another one if it took that
  over. -/
  | told (token : Nat) (id : String) (old : Option Nat)
  | duplicate (token : Nat) (id : String)
  | created (token : Nat) (id : String)
  /-- The record of the execution was removed. -/
  | removed (id : String)
  /-- The claim of the execution expired or was released. -/
  | freed (id : String)
  deriving DecidableEq

structure Submissions where
  store : ClaimStore := {}
  submissions : List Submission := []
  events : List SubmissionEvent := []

namespace Submissions

inductive Action where
  | begin (req : SubmissionRequest)
  /-- The execution is written. -/
  | create (token : Nat)
  /-- The creation is refused before anything is written. -/
  | refuse (token : Nat)
  | settle (token : Nat) (result : CreateResult)
  | tick (d : Nat)
  /-- The record of an execution is removed. -/
  | remove (id : String)
  /-- An execution gets another status. -/
  | progress (id : String) (status : ExecutionStatus)

variable (cfg : IdempotencyConfig)

/-- The submission gets as far as the store. -/
def asks (req : SubmissionRequest) : Bool := validateIdempotencyKey req.key ∧ req.scope ≠ ""

/-- A claim that expired is removed when the next submission asks. -/
def dropped (s : Submissions) (req : SubmissionRequest) : List SubmissionEvent :=
  if asks req ∧ (s.store.idempotency (cfg.executionID req)).any s.store.expired then
    [.freed (cfg.executionID req)]
  else []

/-- What a submission is told. -/
def answered (s : Submissions) (req : SubmissionRequest)
    (answer : Except ClaimError IdempotentStart) : List SubmissionEvent :=
  let token := s.submissions.length
  match answer with
  | .error _ => []
  | .ok start =>
    if start.duplicate then [.duplicate token start.id]
    else [.told token start.id
      ((s.store.existing (cfg.executionID req)).map (·.token))]

/-- The submission is told to create. -/
def toldToCreate : Except ClaimError IdempotentStart → Bool
  | .ok start => start.token.isSome
  | .error _ => false

def step : Action → Submissions → Option Submissions
  | .begin req, s =>
    let answer := cfg.claimIdempotency s.store req s.submissions.length
    some {
      store := answer.1
      submissions := s.submissions ++ [{
        request := req
        id := cfg.executionID req
        creates := toldToCreate answer.2
        leaseUntil := s.store.now + cfg.idempotencyClaimLease }]
      events := s.events ++ (dropped cfg s req ++ answered cfg s req answer.2) }
  | .create token, s =>
    match s.submissions[token]? with
    | none => none
    | some sub =>
      if ¬ sub.creates ∨ sub.phase ≠ .creating then none
      else some {
        store := { s.store with
          executions := update s.store.executions sub.id (some .running) }
        submissions := s.submissions.set token { sub with phase := .created }
        events := s.events ++ [.created token sub.id] }
  | .refuse token, s =>
    match s.submissions[token]? with
    | none => none
    | some sub =>
      if ¬ sub.creates ∨ sub.phase ≠ .creating then none
      else some { s with submissions := s.submissions.set token { sub with phase := .refused } }
  | .settle token result, s =>
    match s.submissions[token]? with
    | none => none
    | some sub =>
      if ¬ sub.creates ∨ sub.phase = .settled ∨ (result = .ok ∧ sub.phase ≠ .created) ∨
        (result = .refused ∧ sub.phase ≠ .refused) then none
      else
        let store := settleIdempotency s.store sub.id token result
        some {
          store := store
          submissions := s.submissions.set token { sub with phase := .settled }
          events := s.events ++
            if (s.store.idempotency sub.id).isSome ∧ (store.idempotency sub.id).isNone then
              [.freed sub.id]
            else [] }
  | .tick d, s => some { s with store := { s.store with now := s.store.now + d } }
  | .remove id, s =>
    some { s with
      store := { s.store with executions := update s.store.executions id none }
      events := s.events ++ [.removed id] }
  | .progress id status, s =>
    if (s.store.executions id).isNone then none
    else some { s with
      store := { s.store with
        executions := update s.store.executions id (some status) } }

/-! ### What is to hold -/

/-- How often an execution was created since its record was last removed. -/
def createdSince (events : List SubmissionEvent) (id : String) : Nat :=
  events.foldl (fun n e =>
    match e with
    | .created _ id' => if id' = id then n + 1 else n
    | .removed id' => if id' = id then 0 else n
    | _ => n) 0

/-- The submissions that were told to create an execution since its claim last expired or was
released. -/
def toldSince (events : List SubmissionEvent) (id : String) : List Nat :=
  events.foldl (fun told e =>
    match e with
    | .told token id' _ => if id' = id then told ++ [token] else told
    | .freed id' => if id' = id then [] else told
    | _ => told) []

/-- The submissions do not get into each other's way. -/
structure Exclusive (s : Submissions) : Prop where
  /-- An execution is created at most once for as long as its record exists. -/
  once : ∀ id, createdSince s.events id ≤ 1
  /-- Those that are told to create under one claim have one fingerprint. -/
  agree : ∀ id, ∀ k ∈ toldSince s.events id, ∀ l ∈ toldSince s.events id,
    (s.submissions[k]?).map (·.request.fingerprint)
      = (s.submissions[l]?).map (·.request.fingerprint)
  /-- The execution of a duplicate was created before. -/
  duplicates : ∀ before token id after, s.events = before ++ .duplicate token id :: after →
    ∃ k, .created k id ∈ before
  /-- A submission whose claim was taken over changes no claim when it settles. -/
  fenced : ∀ token id old, .told token id (some old) ∈ s.events →
    ∀ result t, step cfg (.settle old result) s = some t → t.store.idempotency = s.store.idempotency

/-- A submission creates its execution before its lease runs out. -/
def timely : Action → Submissions → Bool
  | .create token, s => (s.submissions[token]?).all (fun sub => s.store.now < sub.leaseUntil)
  | _, _ => true

/-- The claim of a submission does not expire before its lease runs out. -/
def windowed : Action → Bool
  | .begin req => cfg.idempotencyClaimLease ≤ cfg.idempotencyWindow req
  | _ => true

/-! ### Answers -/

variable {cfg} {s t : Submissions} {req : SubmissionRequest}

/-- The claim of an execution is gone. -/
def drop (s : Submissions) (id : String) : Submissions :=
  { s with store := s.store.setClaim id none, events := s.events ++ [.freed id] }

/-- A submission that does not create. -/
def push (cfg : IdempotencyConfig) (s : Submissions) (req : SubmissionRequest)
    (events : List SubmissionEvent) : Submissions :=
  { s with
    submissions := s.submissions ++ [{
      request := req
      id := cfg.executionID req
      creates := false
      leaseUntil := s.store.now + cfg.idempotencyClaimLease }]
    events := s.events ++ events }

/-- A submission that is told to create. -/
def claim (cfg : IdempotencyConfig) (s : Submissions) (req : SubmissionRequest) : Submissions where
  store := s.store.setClaim (cfg.executionID req)
    (some (s.store.claimOf (cfg.claimRequest req s.submissions.length)))
  submissions := s.submissions ++ [{
    request := req
    id := cfg.executionID req
    creates := true
    leaseUntil := s.store.now + cfg.idempotencyClaimLease }]
  events := s.events ++ [.told s.submissions.length (cfg.executionID req)
    ((s.store.idempotency (cfg.executionID req)).map (·.token))]

/-- What the store answers where no claim has expired. -/
inductive Answered (cfg : IdempotencyConfig) (s : Submissions) (req : SubmissionRequest) :
    Submissions → Prop where
  | refused : Answered cfg s req (push cfg s req [])
  | duplicate
      (created : (s.store.executions (cfg.executionID req)).isSome ∨
        ∃ c, s.store.idempotency (cfg.executionID req) = some c ∧ c.confirmed) :
      Answered cfg s req
        (push cfg s req [.duplicate s.submissions.length (cfg.executionID req)])
  | told (absent : s.store.executions (cfg.executionID req) = none)
      (lapsed : ∀ c, s.store.idempotency (cfg.executionID req) = some c →
        c.fingerprint = req.fingerprint ∧ c.leaseUntil ≤ s.store.now) :
      Answered cfg s req (claim cfg s req)

variable {store : ClaimStore}

variable {token : Nat}

theorem claimIdempotency_of_asks (asked : asks req) :
  cfg.claimIdempotency store req token
    = ((store.claimIdempotency (cfg.claimRequest req token)).1,
        match (store.claimIdempotency (cfg.claimRequest req token)).2.1 with
        | .accepted | .takeover => .ok { id := cfg.executionID req, token := some token }
        | .duplicate => .ok { id := cfg.executionID req, duplicate := true }
        | .conflict => .error .conflict
        | .inProgress => .error .inProgress)
  := by
  simp only [asks, decide_eq_true_eq] at asked
  rewrite [IdempotencyConfig.claimIdempotency, if_neg (not_not.mpr asked.1), if_neg asked.2]
  rfl

theorem begin_of_not_asks (asked : ¬ asks req) :
  step cfg (.begin req) s = some (push cfg s req [])
  := by
  have refused :
      ∃ e, cfg.claimIdempotency s.store req s.submissions.length = (s.store, .error e) := by
    simp only [asks, decide_eq_true_eq, not_and_or, not_not] at asked
    rw [IdempotencyConfig.claimIdempotency]
    by_cases valid : validateIdempotencyKey req.key
    · rw [if_neg (not_not.mpr valid), if_pos (asked.resolve_left (not_not.mpr valid))]
      exact ⟨_, rfl⟩
    · rw [if_pos valid]
      exact ⟨_, rfl⟩
  obtain ⟨e, eq⟩ := refused
  simp [step, eq, dropped, asked, answered, push, toldToCreate]

section

variable (asked : asks req)

include asked

theorem answered_of_live
    (live : (s.store.idempotency (cfg.executionID req)).any s.store.expired = false)
    (eq : step cfg (.begin req) s = some t) :
  Answered cfg s req t
  := by
  have same :
      s.store.existing (cfg.executionID req) = s.store.idempotency (cfg.executionID req) := by
    cases held : s.store.idempotency (cfg.executionID req) <;> simp_all [existing]
  have kept : dropped cfg s req = [] := by simp [dropped, live]
  simp only [step, kept, claimIdempotency_of_asks asked, some.injEq, answered, same] at eq
  subst eq
  fun_cases s.store.claimIdempotency (cfg.claimRequest req s.submissions.length) with
  | case1 id _ free created =>
    have unclaimed : s.store.idempotency id = none := same.symm.trans free
    have unset : s.store.setClaim id none = s.store := by
      rw [setClaim, ← unclaimed, update_eq_self]
    simp only [unset]
    exact .duplicate (.inl created)
  | case2 _ _ free absent =>
    refine .told (not_isSome_iff_eq_none.mp absent) fun c held => ?_
    cases (same.symm.trans free).symm.trans held
  | case3 | case5 => exact .refused
  | case4 _ _ c held _ done =>
    exact .duplicate (done.symm.imp_right fun confirmed => ⟨c, same.symm.trans held, confirmed⟩)
  | case6 _ _ c existing agrees pending lapsed =>
    refine .told (not_isSome_iff_eq_none.mp fun some => pending (.inr some)) fun d held => ?_
    cases (same.symm.trans existing).symm.trans held
    exact ⟨not_not.mp agrees, Int.not_lt.mp lapsed⟩

theorem begin_of_expired
    (expired : (s.store.idempotency (cfg.executionID req)).any s.store.expired) :
  step cfg (.begin req) s = step cfg (.begin req) (s.drop (cfg.executionID req))
  := by
  have free : s.store.existing (cfg.executionID req) = none := by
    cases held : s.store.idempotency (cfg.executionID req) <;> simp_all [existing]
  have gone :
      (s.store.setClaim (cfg.executionID req) none).existing (cfg.executionID req) = none := by
    simp [existing]
  have same : s.store.claimIdempotency (cfg.claimRequest req s.submissions.length) =
      (s.store.setClaim (cfg.executionID req) none).claimIdempotency
        (cfg.claimRequest req s.submissions.length) := by
    simp only [claimIdempotency, IdempotencyConfig.claimRequest, free, gone]
    simp only [setClaim, update_idem]
    rfl
  simp [step, claimIdempotency_of_asks asked, same, drop, dropped, answered, asked, expired, free,
    gone]
  rfl

end

theorem answered_of_begin (eq : step cfg (.begin req) s = some t) :
  Answered cfg s req t ∨
    (∃ c, s.store.idempotency (cfg.executionID req) = some c ∧ s.store.expired c) ∧
      Answered cfg (s.drop (cfg.executionID req)) req t
  := by
  by_cases asked : asks req
  case neg =>
    rw [begin_of_not_asks asked] at eq
    cases eq
    exact .inl .refused
  case pos =>
    cases expired : (s.store.idempotency (cfg.executionID req)).any s.store.expired with
    | false => exact .inl (answered_of_live asked expired eq)
    | true =>
      rw [begin_of_expired asked expired] at eq
      exact .inr ⟨(any_eq_true _ _).mp expired, answered_of_live asked (by simp [drop]) eq⟩

/-! ### Steps -/

variable {events : List SubmissionEvent} {id : String} {subs : List Submission}
  {e : SubmissionEvent}

theorem createdSince_concat (e : SubmissionEvent) :
  createdSince (events ++ [e]) id
    = match e with
      | .created _ id' => if id' = id then createdSince events id + 1 else createdSince events id
      | .removed id' => if id' = id then 0 else createdSince events id
      | _ => createdSince events id
  := by
  rw [createdSince, foldl_append]
  rfl

theorem toldSince_concat (e : SubmissionEvent) :
  toldSince (events ++ [e]) id
    = match e with
      | .told token id' _ =>
        if id' = id then toldSince events id ++ [token] else toldSince events id
      | .freed id' => if id' = id then [] else toldSince events id
      | _ => toldSince events id
  := by
  rw [toldSince, foldl_append]
  rfl

/-- The submission with this token may still create. -/
abbrev Active (s : Submissions) (k : Nat) (sub : Submission) : Prop :=
  s.submissions[k]? = some sub ∧ sub.creates ∧ sub.phase = .creating ∧
    s.store.now < sub.leaseUntil

/-- The claim is that of this submission, and does not expire before its lease. -/
structure Backs (sub : Submission) (id : String) (c : IdempotencyClaim) : Prop where
  id : sub.id = id
  fingerprint : c.fingerprint = sub.request.fingerprint
  lease : c.leaseUntil = sub.leaseUntil
  window : ∀ e, c.expiresAt = some e → sub.leaseUntil ≤ e

/-- Every claim belongs to a submission, a submission that may still create holds its claim, and
what was created is on record. -/
structure Sound (s : Submissions) : Prop where
  records : ∀ id, createdSince s.events id = if (s.store.executions id).isSome then 1 else 0
  created : ∀ id, (s.store.executions id).isSome → ∃ k, .created k id ∈ s.events
  confirmed : ∀ id c, s.store.idempotency id = some c → c.confirmed → ∃ k, .created k id ∈ s.events
  phases : ∀ sub ∈ s.submissions, sub.phase = .created → ∃ k, .created k sub.id ∈ s.events
  claims : ∀ id c, s.store.idempotency id = some c →
    ∃ sub, s.submissions[c.token]? = some sub ∧ Backs sub id c
  active : ∀ k sub, Active s k sub → s.store.executions sub.id = none ∧
    ∃ c, s.store.idempotency sub.id = some c ∧ c.token = k
  told : ∀ id, ∀ k ∈ toldSince s.events id, ∃ sub c, s.submissions[k]? = some sub ∧
    s.store.idempotency id = some c ∧ c.fingerprint = sub.request.fingerprint
  fenced : ∀ token id old, .told token id (some old) ∈ s.events →
    old < s.submissions.length ∧ ∀ id' c, s.store.idempotency id' = some c → c.token ≠ old
  duplicates : ∀ before token id after, s.events = before ++ .duplicate token id :: after →
    ∃ k, .created k id ∈ before

attribute [local grind =] createdSince_concat toldSince_concat update_apply
attribute [local grind] Backs

theorem duplicates_concat
    (old : ∀ before token id after, events = before ++ .duplicate token id :: after →
      ∃ k, .created k id ∈ before)
    (new : ∀ token id, e = .duplicate token id → ∃ k, .created k id ∈ events) :
  ∀ before token id after, events ++ [e] = before ++ .duplicate token id :: after →
    ∃ k, .created k id ∈ before
  := by
  intro before token id after eq
  rcases concat_split eq with ⟨init, eq⟩ | ⟨rfl, last⟩
  · exact old before token id init eq
  · exact new token id last.symm

theorem Sound.drop (h : Sound s) (idle : ∀ k sub, Active s k sub → sub.id ≠ id) :
  Sound (s.drop id)
  := by
  obtain ⟨records, created, confirmed, phases, claims, active, told, fenced, duplicates⟩ := h
  constructor
  case duplicates => exact duplicates_concat duplicates nofun
  all_goals
    simp only [Submissions.drop, setClaim, update_apply]
    grind

theorem Sound.idle {c : IdempotencyClaim} (h : Sound s) (held : s.store.idempotency id = some c)
    (lapsed : ∀ sub, Backs sub id c → ¬ Active s c.token sub) :
  ∀ k sub, Active s k sub → sub.id ≠ id
  := by
  rintro k sub active rfl
  obtain ⟨-, d, held', rfl⟩ := h.active k sub active
  grind [h.claims _ c held]

theorem Sound.push (h : Sound s) : Sound (push cfg s req []) := by
  obtain ⟨records, created, confirmed, phases, claims, active, told, fenced, duplicates⟩ := h
  constructor
  all_goals
    simp only [Submissions.push, append_nil]
    grind

theorem Sound.duplicate (h : Sound s) (made : ∃ k, .created k id ∈ s.events) :
  Sound { s with events := s.events ++ [.duplicate token id] }
  := by
  obtain ⟨records, created, confirmed, phases, claims, active, told, fenced, duplicates⟩ := h
  constructor
  case duplicates => exact duplicates_concat duplicates (by grind)
  all_goals grind

theorem Sound.claim (h : Sound s) (absent : s.store.executions (cfg.executionID req) = none)
    (lapsed : ∀ c, s.store.idempotency (cfg.executionID req) = some c →
      c.fingerprint = req.fingerprint ∧ c.leaseUntil ≤ s.store.now)
    (window : cfg.idempotencyClaimLease ≤ cfg.idempotencyWindow req) :
  Sound (claim cfg s req)
  := by
  obtain ⟨records, created, confirmed, phases, claims, active, told, fenced, duplicates⟩ := h
  constructor
  case duplicates => exact duplicates_concat duplicates nofun
  all_goals
    simp only [Submissions.claim, setClaim, update_apply, claimOf, IdempotencyConfig.claimRequest]
  case claims =>
    intro id c held
    split at held
    · cases held
      exact ⟨_, getElem?_concat_length, by constructor <;> grind⟩
    · grind
  case active =>
    rintro k sub ⟨found, rest⟩
    by_cases last : k = s.submissions.length
    · simp only [last, getElem?_concat_length, some.injEq] at found
      subst found
      exact ⟨absent, _, if_pos rfl, last.symm⟩
    -- a claim that can be taken over is out of its lease
    · have ne : sub.id ≠ cfg.executionID req := by grind
      grind
  case told =>
    intro id k mem
    by_cases last : k = s.submissions.length
    · have same : cfg.executionID req = id := by grind
      exact ⟨_, _, last ▸ getElem?_concat_length, if_pos same.symm, rfl⟩
    · obtain ⟨sub, c, found, held, agree⟩ := told id k (by grind)
      grind
  case fenced =>
    intro token id old mem
    have gone : old < s.submissions.length ∧
        ∀ id' c, id' ≠ cfg.executionID req → s.store.idempotency id' = some c → c.token ≠ old := by
      rcases mem_append.mp mem with mem | mem
      · grind
      · cases held : s.store.idempotency (cfg.executionID req) with
        | none => grind
        -- a token names one submission, hence one execution
        | some c =>
          obtain ⟨sub, found, backs⟩ := claims _ c held
          grind
    grind
  all_goals grind

theorem Sound.answered (h : Sound s) (answer : Answered cfg s req t)
    (window : cfg.idempotencyClaimLease ≤ cfg.idempotencyWindow req) :
  Sound t
  := by
  cases answer with
  | refused => exact h.push
  | told absent lapsed => exact h.claim absent lapsed window
  | duplicate created =>
    have logged : ∃ k, .created k (cfg.executionID req) ∈ s.events := by
      rcases created with some | ⟨c, held, confirmed⟩
      · exact h.created _ some
      · exact h.confirmed _ c held confirmed
    have noted : Sound { s with
        events := s.events ++ [.duplicate s.submissions.length (cfg.executionID req)] } :=
      h.duplicate logged
    have pushed := @Sound.push cfg _ req noted
    rwa [Submissions.push, append_nil] at pushed

/-! A submission goes on. -/

/-- A submission gets to another phase. -/
def turn (s : Submissions) (token : Nat) (sub : Submission) (phase : SubmitPhase) : Submissions :=
  { s with submissions := s.submissions.set token { sub with phase := phase } }

section Turn

variable {token : Nat} {sub : Submission} {phase : SubmitPhase}

theorem Sound.turn (h : Sound s) (found : s.submissions[token]? = some sub)
    (done : phase ≠ .creating) (made : phase = .created → ∃ k, .created k sub.id ∈ s.events) :
  Sound (s.turn token sub phase)
  := by
  obtain ⟨records, created, confirmed, phases, claims, active, told, fenced, duplicates⟩ := h
  constructor
  all_goals simp only [Submissions.turn]
  -- what claims and answers refer to stays
  case told =>
    intro id k mem
    obtain ⟨x, c, at_k, held, agree⟩ := told id k mem
    by_cases same : token = k <;> grind
  all_goals grind

theorem Sound.mark {d : IdempotencyClaim} (h : Sound s) (held : s.store.idempotency id = some d)
    (made : ∃ k, .created k id ∈ s.events) :
  Sound { s with store := s.store.setClaim id (some { d with confirmed := true }) }
  := by
  obtain ⟨records, created, confirmed, phases, claims, active, told, fenced, duplicates⟩ := h
  constructor
  all_goals
    simp only [setClaim, update_apply]
    grind

end Turn

/-! ### Runs -/

section

variable (h : Sound s)

include h

theorem Sound.tick (d : Nat) :
  Sound { s with store := { s.store with now := s.store.now + d } }
  := by
  refine { h with active := fun k sub active => h.active k sub ?_ }
  grind

theorem Sound.remove :
  Sound { s with
    store := { s.store with executions := update s.store.executions id none }
    events := s.events ++ [.removed id] }
  := by
  obtain ⟨records, created, confirmed, phases, claims, active, told, fenced, duplicates⟩ := h
  constructor
  case duplicates => exact duplicates_concat duplicates nofun
  all_goals
    simp only [update_apply]
    grind

theorem Sound.progress {status : ExecutionStatus} (exists_id : (s.store.executions id).isSome) :
  Sound { s with
    store := { s.store with
      executions := update s.store.executions id (some status) } }
  := by
  obtain ⟨records, created, confirmed, phases, claims, active, told, fenced, duplicates⟩ := h
  constructor
  all_goals
    simp only [update_apply]
    grind

theorem Sound.create (intime : timely (.create token) s)
    (eq : step cfg (.create token) s = some t) :
  Sound t
  := by
  simp only [step] at eq
  split at eq
  case h_1 => cases eq
  case h_2 sub found =>
    obtain ⟨guard, ⟨⟩⟩ := ite_none_left_eq_some.mp eq
    simp only [not_or, not_not] at guard
    simp only [timely, found, all_some, decide_eq_true_eq] at intime
    obtain ⟨absent, c, held, rfl⟩ := h.active token sub ⟨found, guard.1, guard.2, intime⟩
    obtain ⟨records, created, confirmed, phases, claims, active, told, fenced, duplicates⟩ := h
    constructor
    case duplicates => exact duplicates_concat duplicates nofun
    all_goals simp only [update_apply]
    case told =>
      intro id k mem
      obtain ⟨x, d, at_k, held, agree⟩ := told id k (by grind)
      by_cases same : c.token = k <;> grind
    -- once it is past the creation nobody may create
    all_goals grind

theorem Sound.refuse (eq : step cfg (.refuse token) s = some t) :
  Sound t
  := by
  simp only [step] at eq
  split at eq
  case h_1 => cases eq
  case h_2 sub found =>
    obtain ⟨-, ⟨⟩⟩ := ite_none_left_eq_some.mp eq
    exact h.turn found nofun nofun

attribute [local simp] Submissions.turn settleIdempotency

theorem Sound.settle {result : CreateResult} (eq : step cfg (.settle token result) s = some t) :
  Sound t
  := by
  simp only [step] at eq
  split at eq
  case h_1 => cases eq
  case h_2 sub found =>
    obtain ⟨guard, ⟨⟩⟩ := ite_none_left_eq_some.mp eq
    simp only [not_or, not_and, not_not] at guard
    obtain ⟨creates, -, created, refused⟩ := guard
    by_cases mine : ∃ c, s.store.idempotency sub.id = some c ∧ c.token = token
    case neg =>
      have other : ∀ c, s.store.idempotency sub.id = some c → c.token ≠ token :=
        fun c held same => mine ⟨c, held, same⟩
      have settled := @Sound.turn _ token _ .settled h found nofun nofun
      rw [settleIdempotency_of_other other]
      cases held : s.store.idempotency sub.id <;> simpa using settled
    case pos =>
      obtain ⟨c, held, rfl⟩ := mine
      cases result with
      | ok =>
        have logged := h.phases sub (mem_of_getElem? found) (created rfl)
        have marked : Sound { s with
            store := s.store.setClaim sub.id (some { c with confirmed := true }) } :=
          h.mark held logged
        have settled := @Sound.turn _ c.token _ .settled marked found nofun nofun
        simpa [confirmIdempotency, held] using settled
      | refused =>
        by_cases confirmed : c.confirmed
        · have settled := @Sound.turn _ c.token _ .settled h found nofun nofun
          simpa [releaseIdempotency, held, confirmed] using settled
        · have idle := h.idle held fun x _ active => by
            obtain ⟨at_token, -, creating, -⟩ := active
            rw [found] at at_token
            cases at_token
            rw [refused rfl] at creating
            cases creating
          have settled := @Sound.turn _ c.token _ .settled (h.drop idle) found nofun nofun
          simpa [releaseIdempotency, held, confirmed, Submissions.drop] using settled
      | failed =>
        have settled := @Sound.turn _ c.token _ .settled h found nofun nofun
        simpa [held] using settled

theorem Sound.step {a : Action} (intime : timely a s) (window : windowed cfg a)
    (eq : step cfg a s = some t) :
  Sound t
  := by
  cases a with
  | begin req =>
    simp only [windowed, decide_eq_true_eq] at window
    rcases answered_of_begin eq with answer | ⟨⟨c, held, expired⟩, answer⟩
    · exact h.answered answer window
    · apply (h.drop (h.idle held fun sub backs active => ?_)).answered answer window
      obtain ⟨expiry, eq, past⟩ := (any_eq_true _ _).mp expired
      have window := backs.window expiry eq
      have leased := active.2.2.2
      simp only [decide_eq_true_eq] at past
      omega
  | create token => exact h.create intime eq
  | refuse token => exact h.refuse eq
  | settle token result => exact h.settle eq
  | tick d =>
    cases eq
    exact h.tick d
  | remove id =>
    cases eq
    exact h.remove
  | progress id status =>
    obtain ⟨guard, ⟨⟩⟩ := ite_none_left_eq_some.mp eq
    exact h.progress (by simpa [isSome_iff_ne_none] using guard)

end

theorem Sound.init : Sound {} where
  records _ := rfl
  created := nofun
  confirmed := nofun
  phases := nofun
  claims := nofun
  active := nofun
  told := nofun
  fenced := nofun
  duplicates before token id after eq := by simp at eq

theorem Sound.exclusive (h : Sound s) : Exclusive cfg s := by
  constructor
  case once =>
    intro id
    rw [h.records]
    split <;> omega
  case agree =>
    intro id k memk l meml
    obtain ⟨x, c, foundk, held, agreek⟩ := h.told id k memk
    obtain ⟨y, d, foundl, held', agreel⟩ := h.told id l meml
    have same : c = d := some.inj (held.symm.trans held')
    rw [foundk, foundl]
    exact congrArg some (agreek.symm.trans (same ▸ agreel))
  case duplicates => exact h.duplicates
  case fenced =>
    intro token id old mem result t eq
    simp only [Submissions.step] at eq
    split at eq
    case h_1 => cases eq
    case h_2 sub found =>
      obtain ⟨-, ⟨⟩⟩ := ite_none_left_eq_some.mp eq
      rw [settleIdempotency_of_other ((h.fenced token id old mem).2 sub.id)]

/-- As long as every submission creates within its lease, and no claim expires before its lease, the
submissions do not get into each other's way. -/
theorem submissions_exclusive
    (run : Run (step cfg) (fun a s => timely a s ∧ windowed cfg a) {} s) :
  Exclusive cfg s
  := by
  have sound : Sound s :=
    run.invariant Sound.init fun _ _ _ h inTime eq => h.step inTime.1 inTime.2 eq
  exact sound.exclusive

namespace Sample

/-- The key is the identifier of the execution. -/
def config : IdempotencyConfig where
  derive _ _ key := key

/-- A submission of a workflow that is kept for ten milliseconds. -/
def transient : SubmissionRequest where
  scope := "orders"
  key := "a"
  transientTTL := some 10

/-- The claim of the first submission expires while it is creating. -/
def expiring : List Action :=
  [.begin transient, .tick 12, .begin transient, .create 1, .create 0]

/-- A submission of a workflow that is kept. -/
def durable : SubmissionRequest where
  scope := "orders"
  key := "a"

/-- The first submission stalls until its lease ran out, and the second takes its claim over. -/
def stalled : List Action :=
  [.begin durable, .tick 30000, .begin durable, .create 1, .settle 0 .failed, .begin durable]

end Sample

/-- Both submissions create within their leases. -/
theorem created_twice :
  ∃ s, Run (step Sample.config) (fun a s => timely a s) {} s ∧ createdSince s.events "a" = 2
  := by
  apply exists_guarded_run Sample.expiring
  decide

/-- A claim is taken over and its execution is created once. -/
theorem stalled_exclusive :
  ∃ s, Run (step Sample.config) (fun a s => timely a s ∧ windowed Sample.config a) {} s ∧
    createdSince s.events "a" = 1 ∧ Exclusive Sample.config s
  := by
  apply exists_guarded_run_and Sample.stalled (by decide)
  exact fun _ run _ => submissions_exclusive run

end Submissions

end Xflow
