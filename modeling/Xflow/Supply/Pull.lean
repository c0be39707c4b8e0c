import Mathlib.Data.List.Basic
import Mathlib.Data.Option.Basic
import Xflow.Lib.Run

/-!
# Pulled content

A pull keeps the last full response of a supply with its validator and asks again on condition.  The
entry belongs to the supply and not to the URL, so a declaration that moves the supply to another
URL drops it.  A pull of the old URL that is still under way stores its response after that, and
the validator of the one URL is then sent to the other.
-/

namespace Xflow

open List Option Transition

/-- `pullCachedContent`: a response and its validator, if any. -/
structure PullCachedContent where
  etag : String
  content : String
  deriving DecidableEq

/-- How far a call of `Fetch` is. -/
inductive PullPhase
  /-- `fetchSupply` has loaded the source. -/
  | loaded
  | sent
  | answered
  deriving DecidableEq

/-- A call of `Fetch`. -/
structure Pull where
  url : String
  phase : PullPhase := .loaded
  /-- The entry that was read before the request, and then the full response. -/
  entry : Option PullCachedContent := none
  deriving DecidableEq

/-- Content that `Fetch` returned; on a 304 the URL held `held`. -/
structure Pulled where
  url : String
  content : String
  held : Option String := none
  deriving DecidableEq

/-- One supply: what the URLs hold, the declaration, the entry and the calls of `Fetch`. -/
structure PullState where
  current : String → Option PullCachedContent := fun _ => none
  /-- The workflow and the URL; a supply from the store has none. -/
  declared : Option (String × Option String) := none
  /-- The declaration that is stored once the entry is dropped. -/
  moving : Option (String × Option String) := none
  cache : Option PullCachedContent := none
  pulls : List Pull := []
  /-- The full responses. -/
  served : List (String × String) := []
  returned : List Pulled := []

namespace PullState

/-- What a validator stands for at a URL. -/
abbrev Valid (content : String → String → String) (url : String) (r : PullCachedContent) : Prop :=
  r.etag ≠ "" → r.content = content url r.etag

inductive Action
  | publish (url : String) (response : Option PullCachedContent)
  | declare (workflowID : String) (source : Option String)
  | record
  | fetch
  | send (i : Nat)
  | answer (i : Nat)
  /-- The answer is a 304 or a full response, whichever the server likes. -/
  | notModified (i : Nat)
  | store (i : Nat)
  | fail (i : Nat)
  deriving DecidableEq

/-- The workflow of the supply declares another source. -/
def moves (s : PullState) : Action → Bool
  | .declare workflowID source => s.declared.any fun d => d.1 = workflowID ∧ d.2 ≠ source
  | _ => false

/-- A step; `content` is what a validator stands for at a URL. -/
def step (content : String → String → String) (a : Action) (s : PullState) : Option PullState :=
  match a with
  | .publish url response =>
    if ∀ r ∈ response, Valid content url r then
      some { s with current := Function.update s.current url response }
    else none
  -- `recordDeclaration`, which holds a mutex until the declaration is stored
  | .declare workflowID source =>
    if s.moving ≠ none then none
    else if s.moves a then
      some { s with cache := none, moving := some (workflowID, source) }
    else some { s with declared := s.declared <|> some (workflowID, source) }
  | .record => s.moving.map fun d => { s with declared := some d, moving := none }
  | .fetch => do
    let d ← s.declared
    let url ← d.2
    return { s with pulls := s.pulls ++ [{ url }] }
  | .send i => do
    let p ← s.pulls[i]?
    guard (p.phase = .loaded)
    return { s with pulls := s.pulls.set i { p with phase := .sent, entry := s.cache } }
  | .answer i => do
    let p ← s.pulls[i]?
    let response ← s.current p.url
    guard (p.phase = .sent)
    return { s with
      pulls := s.pulls.set i { p with phase := .answered, entry := some response }
      served := (p.url, response.content) :: s.served }
  | .notModified i => do
    let p ← s.pulls[i]?
    let cached ← p.entry
    let response ← s.current p.url
    guard (p.phase = .sent ∧ cached.etag = response.etag ∧ cached.etag ≠ "")
    return { s with
      pulls := s.pulls.eraseIdx i
      returned := ⟨p.url, cached.content, some response.content⟩ :: s.returned }
  | .store i => do
    let p ← s.pulls[i]?
    let response ← p.entry
    guard (p.phase = .answered)
    return { s with
      pulls := s.pulls.eraseIdx i
      cache := if response.etag = "" then none else some response
      returned := ⟨p.url, response.content, none⟩ :: s.returned }
  | .fail i => some { s with pulls := s.pulls.eraseIdx i }

/-- The URL that is declared, or that is about to be. -/
def source (s : PullState) : Option String :=
  (s.moving <|> s.declared).bind Prod.snd

/-- Only a pull of the declared URL sends a validator, or stores a response that has one. -/
def Routed (a : Action) (s : PullState) : Prop :=
  match a with
  | .send i => ∀ p ∈ s.pulls[i]?, s.cache ≠ none → p.url ∈ s.source
  | .store i => ∀ p ∈ s.pulls[i]?, ∀ r ∈ p.entry, r.etag ≠ "" → p.url ∈ s.source
  | _ => True

instance (a : Action) (s : PullState) : Decidable (Routed a s) := by
  unfold Routed
  split <;> infer_instance

variable {content : String → String → String} {s t : PullState} {a : Action}

/-- The URL gave the response. -/
structure Gave (content : String → String → String) (served : List (String × String)) (url : String)
    (r : PullCachedContent) : Prop where
  served : (url, r.content) ∈ served
  valid : Valid content url r

structure Sound (content : String → String → String) (s : PullState) : Prop where
  current : ∀ url, ∀ r ∈ s.current url, Valid content url r
  pulls : ∀ p ∈ s.pulls, ∀ r ∈ p.entry, Gave content s.served p.url r
  cache : ∀ r ∈ s.cache, ∃ url ∈ s.source, Gave content s.served url r
  returned : ∀ r ∈ s.returned, (r.url, r.content) ∈ s.served ∧ ∀ held ∈ r.held, held = r.content

theorem Gave.mono {served : List (String × String)} {url : String} {r : PullCachedContent}
    {other : String × String} (h : Gave content served url r) :
  Gave content (other :: served) url r
  := ⟨mem_cons_of_mem _ h.served, h.valid⟩

section

variable (h : s.Sound content) {i : Nat} {p : Pull}

include h

theorem Sound.serve (response : String × String) :
  ({ s with served := response :: s.served }).Sound content
  where
  __ := h
  pulls p mem r entry := (h.pulls p mem r entry).mono
  cache r mem := by
    obtain ⟨url, source, gave⟩ := h.cache r mem
    exact ⟨url, source, gave.mono⟩
  returned r mem := (h.returned r mem).imp (mem_cons_of_mem _) id

theorem Sound.erase (i : Nat) :
  ({ s with pulls := s.pulls.eraseIdx i }).Sound content
  where
  __ := h
  pulls p mem := h.pulls p (mem_of_mem_eraseIdx mem)

theorem Sound.returning {url body : String} {held : Option String} (served : (url, body) ∈ s.served)
    (same : ∀ x ∈ held, x = body) :
  ({ s with returned := ⟨url, body, held⟩ :: s.returned }).Sound content
  where
  __ := h
  returned := forall_mem_cons.mpr ⟨⟨served, same⟩, h.returned⟩

theorem Sound.set {entry : Option PullCachedContent} {phase : PullPhase}
    (gave : ∀ r ∈ entry, Gave content s.served p.url r) :
  ({ s with pulls := s.pulls.set i ⟨p.url, phase, entry⟩ }).Sound content
  where
  __ := h
  pulls q mem := by
    rcases mem_or_eq_of_mem_set mem with old | rfl
    · exact h.pulls q old
    · exact gave

end

theorem Sound.step (h : s.Sound content) (cond : Routed a s) (next : step content a s = some t) :
  t.Sound content
  := by
  cases a with
    simp only [PullState.step, bind, pure, bind_eq_some_iff, guard_eq_some', some.injEq] at next
  | publish url response =>
    split at next
    · rename_i valid
      cases next
      exact { h with
        current := (Function.forall_update_iff s.current fun url held =>
          ∀ r ∈ held, Valid content url r).mpr ⟨valid, fun other _ => h.current other⟩ }
    · cases next
  | declare workflowID source =>
    split_ifs at next with moving moves <;> cases next
    · exact { h with cache := nofun }
    · refine { h with cache := fun r mem => ?_ }
      obtain ⟨url, declared, gave⟩ := h.cache r mem
      obtain ⟨d, declared, eq⟩ := bind_eq_some_iff.mp declared
      refine ⟨url, ?_, gave⟩
      grind [PullState.source]
  | record =>
    obtain ⟨d, moving, rfl⟩ := map_eq_some_iff.mp next
    refine { h with cache := fun r mem => ?_ }
    simpa [source, moving] using h.cache r mem
  | fetch =>
    obtain ⟨d, declared, url, source, rfl⟩ := next
    refine { h with pulls := fun p mem => ?_ }
    rcases mem_append.mp mem with old | new
    · exact h.pulls p old
    · obtain rfl := mem_singleton.mp new
      exact nofun
  | send i =>
    obtain ⟨p, found, -, -, rfl⟩ := next
    apply h.set
    intro r mem
    obtain ⟨url, source, gave⟩ := h.cache r mem
    rwa [mem_unique (cond p found (by simp [Option.mem_def.mp mem])) source]
  | answer i =>
    obtain ⟨p, found, response, held, -, -, rfl⟩ := next
    apply (h.serve (p.url, response.content)).set
    rintro _ ⟨⟩
    exact ⟨mem_cons_self, h.current p.url response held⟩
  | notModified i =>
    obtain ⟨p, found, cached, entry, response, held, -, ⟨-, same, nonempty⟩, rfl⟩ := next
    have gave := h.pulls p (mem_of_getElem? found) cached entry
    apply (h.erase i).returning gave.served
    rintro _ ⟨⟩
    rw [gave.valid nonempty, h.current p.url response held (same ▸ nonempty), same]
  | store i =>
    obtain ⟨p, found, response, entry, -, -, rfl⟩ := next
    have gave := h.pulls p (mem_of_getElem? found) response entry
    refine { (h.erase i).returning gave.served (by simp) with cache := fun r mem => ?_ }
    split at mem
    · cases mem
    · rename_i nonempty
      cases mem
      exact ⟨p.url, cond p found response entry nonempty, gave⟩
  | fail i =>
    cases next
    exact h.erase i

/-- Where the entry belongs to the declared URL, content comes from the URL it was asked of, and on
a 304 it is what the URL holds. -/
theorem pulled_from_url (run : Run (step content) Routed {} s) :
  ∀ r ∈ s.returned, (r.url, r.content) ∈ s.served ∧ ∀ held ∈ r.held, held = r.content
  :=
  (run.invariant (I := Sound content) ⟨nofun, nofun, nofun, nofun⟩
    fun _ _ _ h cond => h.step cond).returned

/-- A pull of the first of two URLs with one validator is answered. -/
def Sample.answered : List Action :=
  [.publish "a" (some ⟨"1", "a"⟩), .publish "b" (some ⟨"1", "b"⟩), .declare "w" (some "a"), .fetch,
    .send 0, .answer 0]

/-- A second pull finds that nothing has changed.  While a third one is under way the supply moves,
and the same happens at the other URL. -/
theorem pulled_again :
  ∃ s, Run (step fun url _ => url) Routed {} s ∧
    s.returned.map (·.content) = ["b", "b", "a", "a"] ∧
    ∀ r ∈ s.returned, (r.url, r.content) ∈ s.served ∧ ∀ held ∈ r.held, held = r.content
  :=
  exists_guarded_run_and (Sample.answered ++ [.store 0, .fetch, .send 0, .notModified 0, .fetch,
      .declare "w" (some "b"), .record, .send 0, .fetch, .send 1, .answer 1, .store 1, .fetch,
      .send 1, .notModified 1])
    (by decide) fun _ run _ => pulled_from_url run

/-- The response of the first URL is stored after the move, and the second URL confirms it. -/
theorem other_url_confirms :
  ∃ s, Run (step fun url _ => url) (fun _ _ => True) {} s ∧
    ∃ r ∈ s.returned, (r.url, r.content) ∉ s.served ∧ ∃ held ∈ r.held, held ≠ r.content
  :=
  exists_run (Sample.answered ++ [.declare "w" (some "b"), .record, .store 0, .fetch, .send 0,
    .notModified 0]) (by decide)

end PullState

end Xflow
