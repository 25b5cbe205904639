import Smo.R1Termination.IntrospectionCache
import Smo.Lib.Runs

/-! The introspection of bearer tokens at one replica of the gateway (`_introspect_token` and
`_drop_revoked_tokens` of `r1-termination/app/main.py`) while requests, SME's answers, revocations
and the two clocks interleave. `tokenKey` stands for the SHA-256 of a token. -/
namespace Smo.R1Termination.Introspection

open Runs (Run)

/-- The lifetime from `R1_INTROSPECTION_CACHE_SECONDS`; what is not a number counts as 0. -/
def cacheSeconds (setting : Option Rat) : Rat := max 0 (setting.getD 0)

/-- The token of an `Authorization` header. -/
def bearerToken (auth : Str) : Option Str :=
  if (auth.take 7).map Char.toLower = "bearer ".toList then
    let token := Str.strip (auth.drop 7)
    if token = [] then none else some token
  else none

/-- What SME says of a token. An `exp` that is not an integer is none. -/
structure Body where
  active : Bool
  clientId : Option Str := none
  role : Option Role := none
  scope : Option Str := none
  authzScope : Json.Value := .null
  exp : Option Int := none

/-- SME's answer to the introspection; the body is none if it is not a JSON object. -/
structure Reply where
  status : Nat
  body : Option Body

def internalScopes : List Str := ["smo-internal".toList, "smo-gui".toList]

def Body.caller (body : Body) : Caller where
  invokerId := body.clientId.getD []
  role := body.role.getD (if body.scope.any (· ∈ internalScopes) then .internal else .rapp)
  scope := fromIntrospection body.authzScope

def Reply.answer (reply : Reply) : Option (Option Caller) :=
  if 500 ≤ reply.status then none
  else if reply.status ≠ 200 then some none
  else reply.body.map fun body => if body.active then some body.caller else none

def Reply.exp (reply : Reply) : Option Int := reply.body.bind (·.exp)

def longest (ttl : Rat) : Option Caller → Rat
  | none => min ttl negativeSeconds
  | some _ => ttl

/-- The life that an answer is stored with, by the wall clock: never past the token's `exp`. -/
def life (ttl wall : Rat) (reply : Reply) : Option Caller → Rat
  | none => longest ttl none
  | some _ =>
    match reply.exp with
    | none => ttl
    | some exp => min ttl (exp - wall)

inductive Outcome
  | cached (answer : Option Caller)
  | asked (answer : Option Caller)
  | unavailable

/-- Where a request stands. SME's reply travels with the moment at which SME computed it, which
the gateway does not see. -/
inductive Phase
  | looking
  | asking
  | replied (reply : Reply) (computed : Rat)
  | answered (reply : Reply) (computed : Rat) (answer : Option Caller) (life : Rat)
  | ended (outcome : Outcome)

/-- One call of `_introspect_token`, with the lifetime and the generation that it read. -/
structure Request where
  token : Str
  ttl : Rat
  generation : Nat
  phase : Phase

structure State (κ : Type) where
  mono : Rat
  wall : Rat
  cache : IntrospectionCache κ
  requests : List Request := []

/-- The revocations and scope changes that the gateway sees go through (`_drop_revoked_tokens`). -/
def dropRevokedTokens (method fullPath : Str) (status : Nat) : Option Eviction :=
  if 200 ≤ status ∧ status < 300 then
    match (Str.split '/' fullPath).filter (· ≠ []) with
    | [module, kind, id, part] =>
      if module = "sme".toList ∧ kind = "invoker-registrations".toList ∧
          part = "authz-scope".toList ∧ method = "PUT".toList then some (.invoker id) else none
    | [module, kind, id] =>
      if module = "sme".toList ∧ kind = "invoker-registrations".toList then
        if method = "DELETE".toList then some (.invoker id)
        else if method = "POST".toList ∧ id = "purge-stale".toList then some .all
        else none
      else none
    | _ => none
  else none

/-- What can happen at the replica. `computed` is SME's doing, `failed` that of the network. -/
inductive Act
  | tick (mono wall : Rat)
  | arrive (auth : Str) (setting : Option Rat)
  | lookup (request : Nat)
  | computed (request : Nat) (reply : Reply)
  | failed (request : Nat)
  | receive (request : Nat)
  | store (request : Nat)
  | responded (method fullPath : Str) (status : Nat)

def Act.eviction : Act → Option Eviction
  | .responded method fullPath status => dropRevokedTokens method fullPath status
  | _ => none

def Act.deletes (act : Act) (answer : Option Caller) : Bool :=
  act.eviction.any (·.deletes answer)

section Steps

variable {κ : Type} [DecidableEq κ] (tokenKey : Str → κ)

/-- The cache and the request after its next piece of code; none if it is not at that piece. -/
def move (s : State κ) (request : Request) :
    Act → Option (IntrospectionCache κ × Phase)
  | .lookup _ =>
    match request.phase with
    | .looking =>
      match s.cache.get s.mono (tokenKey request.token) with
      | (cache, some answer) => some (cache, .ended (.cached answer))
      | (cache, none) => some (cache, .asking)
    | _ => none
  | .computed _ reply =>
    match request.phase with
    | .asking => some (s.cache, .replied reply s.mono)
    | _ => none
  | .failed _ =>
    match request.phase with
    | .asking | .replied _ _ => some (s.cache, .ended .unavailable)
    | _ => none
  | .receive _ =>
    match request.phase with
    | .replied reply computed =>
      match reply.answer with
      | none => some (s.cache, .ended .unavailable)
      | some answer =>
        if 0 < request.ttl then
          some (s.cache, .answered reply computed answer (life request.ttl s.wall reply answer))
        else some (s.cache, .ended (.asked answer))
    | _ => none
  | .store _ =>
    match request.phase with
    | .answered _ _ answer life =>
      some (s.cache.put s.mono (tokenKey request.token) answer life request.generation,
        .ended (.asked answer))
    | _ => none
  | _ => none

def Act.request : Act → Option Nat
  | .lookup i | .computed i _ | .failed i | .receive i | .store i => some i
  | _ => none

def act (s : State κ) (label : Act) : Option (State κ) :=
  match label with
  | .tick mono wall =>
    if 0 ≤ mono ∧ 0 ≤ wall then some { s with mono := s.mono + mono, wall := s.wall + wall }
    else none
  | .arrive auth setting =>
    match bearerToken auth with
    | none => some s
    | some token =>
      let ttl := cacheSeconds setting
      let phase := if 0 < ttl then .looking else .asking
      some { s with requests := s.requests ++ [⟨token, ttl, s.cache.generation, phase⟩] }
  | .responded method fullPath status =>
    match dropRevokedTokens method fullPath status with
    | none => some s
    | some eviction => some { s with cache := s.cache.evict eviction }
  | _ => do
    let i ← label.request
    let request ← s.requests[i]?
    let (cache, phase) ← move tokenKey s request label
    some { s with cache, requests := s.requests.set i { request with phase } }

def Step (s : State κ) (label : Act) (s' : State κ) : Prop := act tokenKey s label = some s'

def start (mono wall : Rat) (maxEntries : Int) : State κ :=
  { mono, wall, cache := .new maxEntries }

variable {tokenKey} {s s' : State κ} {label : Act}

theorem act_request {i : Nat} (taken : Step tokenKey s label s') (of : label.request = some i) :
    ∃ request cache phase, s.requests[i]? = some request ∧
      move tokenKey s request label = some (cache, phase) ∧
      s' = { s with cache, requests := s.requests.set i { request with phase } } := by
  unfold Step act at taken
  cases label <;> cases of
  all_goals
    simp only [Act.request, Option.bind_eq_bind, Option.bind_some, Option.bind_eq_some_iff] at taken
    obtain ⟨request, found, ⟨cache, phase⟩, moved, after⟩ := taken
    exact ⟨request, cache, phase, found, moved, (Option.some.inj after).symm⟩

end Steps

section Claim

variable {κ : Type} [DecidableEq κ] (tokenKey : Str → κ)

abbrev Trace (κ : Type) := List (Runs.Step (State κ) Act)

/-- In the trace SME computed this reply for a request with this key and lifetime; `since` is what
happened from then on. -/
def Computed (trace : Trace κ) (i : Nat) (key : κ) (ttl : Rat) (reply : Reply) (clock : Rat)
    (since : Trace κ) : Prop :=
  ∃ before asked request, trace = before ++ asked :: since ∧
    asked.label = .computed i reply ∧ asked.before.mono = clock ∧
    asked.before.requests[i]? = some request ∧ tokenKey request.token = key ∧ request.ttl = ttl

/-- What a decision from the cache may rest on: an answer to a lookup with the same key that SME
computed at most the lifetime ago, of a token that has not ended, not revoked since. -/
def Fresh (trace : Trace κ) (s : State κ) (key : κ) (answer : Option Caller) : Prop :=
  ∃ i ttl reply clock since, Computed tokenKey trace i key ttl reply clock since ∧
    reply.answer = some answer ∧ s.mono ≤ clock + ttl ∧
    (answer = none → s.mono ≤ clock + negativeSeconds) ∧
    (∀ exp : Int, answer.isSome → reply.exp = some exp → s.wall < exp) ∧
    ∀ t ∈ since, t.label.deletes answer = false

/-- The staleness of what is decided is bounded: an answer from the cache is fresh, any other was
computed after the lookup, and with a lifetime of 0 a request neither reads nor changes the cache. -/
structure Bounded (trace : Trace κ) : Prop where
  fresh : ∀ earlier t later i request answer, trace = earlier ++ t :: later →
    t.label = .lookup i → t.after.requests[i]? = some request →
    request.phase = .ended (.cached answer) →
    Fresh tokenKey earlier t.before (tokenKey request.token) answer
  asked : ∀ earlier t later i request answer, trace = earlier ++ t :: later →
    t.label.request = some i → t.after.requests[i]? = some request →
    request.phase = .ended (.asked answer) →
    ∃ reply clock since,
      Computed tokenKey earlier i (tokenKey request.token) request.ttl reply clock since ∧
      reply.answer = some answer ∧ ∀ u ∈ since, u.label ≠ .lookup i
  off : ∀ t ∈ trace, ∀ i request, t.label.request = some i → t.before.requests[i]? = some request →
    request.ttl ≤ 0 → t.label ≠ .lookup i ∧ t.after.cache = t.before.cache

def Phase.storing : Phase → Bool
  | .answered _ _ _ _ => true
  | _ => false

/-- The answer that the request holds is stored at the moment at which SME computed it, unless the
token ends within the lifetime counted from then, or a revocation keeps it from being stored. -/
def Request.inTime (s : State κ) (request : Request) : Prop :=
  match request.phase with
  | .answered reply computed answer _ =>
    computed = s.mono ∨ request.generation ≠ s.cache.generation ∨
      (answer.isSome ∧ ∃ exp ∈ reply.exp, exp - s.wall ≤ request.ttl - (s.mono - computed))
  | _ => True

/-- The wall clock never gains on the monotonic one, no time passes while an answer is worked out
and stored, and it is stored in time. -/
def Timely (s : State κ) : Act → Prop
  | .tick mono wall =>
    wall ≤ mono ∧ (0 < mono → ∀ request ∈ s.requests, request.phase.storing = false)
  | .store i => ∀ request ∈ s.requests[i]?, request.inTime s
  | _ => True

instance (s : State κ) (request : Request) : Decidable (request.inTime s) :=
  match request with
  | ⟨_, _, _, .answered _ _ _ _⟩ => inferInstanceAs (Decidable (_ ∨ _ ∨ (_ ∧ _)))
  | ⟨_, _, _, .looking⟩ | ⟨_, _, _, .asking⟩ | ⟨_, _, _, .replied _ _⟩ | ⟨_, _, _, .ended _⟩ =>
    isTrue trivial

instance (s : State κ) : (label : Act) → Decidable (Timely s label)
  | .tick _ _ => inferInstanceAs (Decidable (_ ∧ _))
  | .store i => inferInstanceAs (Decidable (∀ request ∈ s.requests[i]?, request.inTime s))
  | .arrive _ _ | .lookup _ | .computed _ _ | .failed _ | .receive _ | .responded _ _ _ =>
    isTrue trivial

end Claim

section Invariant

variable {κ : Type} [DecidableEq κ] {tokenKey : Str → κ} {trace : Trace κ} {s s' : State κ}
  {label : Act} {i : Nat} {key : κ} {ttl clock : Rat} {reply : Reply} {since : Trace κ}
  {request : Request}

omit [DecidableEq κ] in
theorem Computed.later (computed : Computed tokenKey trace i key ttl reply clock since)
    (t : Runs.Step (State κ) Act) :
    Computed tokenKey (trace ++ [t]) i key ttl reply clock (since ++ [t]) := by
  obtain ⟨before, asked, request, rfl, facts⟩ := computed
  exact ⟨before, asked, request, by rw [List.append_assoc, List.cons_append], facts⟩

/-- SME computed this reply for the request after its lookup, and if the request's generation is
still the current one nothing was evicted since. -/
structure Told (tokenKey : Str → κ) (trace : Trace κ) (generation i : Nat) (request : Request)
    (reply : Reply) (clock : Rat) (since : Trace κ) : Prop where
  computed : Computed tokenKey trace i (tokenKey request.token) request.ttl reply clock since
  looked : ∀ t ∈ since, t.label ≠ .lookup i
  current : request.generation = generation → ∀ t ∈ since, t.label.eviction = none

structure Known (tokenKey : Str → κ) (trace : Trace κ) (s : State κ) (i : Nat)
    (request : Request) : Prop where
  generation : request.generation ≤ s.cache.generation
  looking : request.phase = .looking → 0 < request.ttl
  replied : ∀ reply clock, request.phase = .replied reply clock →
    ∃ since, Told tokenKey trace s.cache.generation i request reply clock since
  answered : ∀ reply clock answer life, request.phase = .answered reply clock answer life →
    0 < request.ttl ∧ reply.answer = some answer ∧ life ≤ longest request.ttl answer ∧
    (∀ exp : Int, answer.isSome → reply.exp = some exp → s.wall + life ≤ exp) ∧
    ∃ since, Told tokenKey trace s.cache.generation i request reply clock since

/-- What stands behind an entry of the cache, by the clocks of `s`. -/
def Backed (tokenKey : Str → κ) (trace : Trace κ) (s : State κ) (item : κ × Entry) : Prop :=
  ∃ i ttl reply clock since, Computed tokenKey trace i item.1 ttl reply clock since ∧
    reply.answer = some item.2.answer ∧ item.2.expires ≤ clock + longest ttl item.2.answer ∧
    (∀ exp : Int, item.2.answer.isSome → reply.exp = some exp →
      item.2.expires - s.mono + s.wall ≤ exp) ∧
    ∀ t ∈ since, t.label.deletes item.2.answer = false

structure Sound (tokenKey : Str → κ) (trace : Trace κ) (s : State κ) : Prop where
  requests : ∀ i request, s.requests[i]? = some request → Known tokenKey trace s i request
  entries : ∀ item ∈ s.cache.entries, Backed tokenKey trace s item

theorem move_generation {cache : IntrospectionCache κ} {phase : Phase}
    (moved : move tokenKey s request label = some (cache, phase)) :
    cache.generation = s.cache.generation := by
  unfold move at moved
  split at moved
  · split at moved
    · split at moved
      all_goals
        next got =>
          obtain ⟨rfl, rfl⟩ := moved
          exact (congrArg (·.1.generation) got).symm.trans IntrospectionCache.get_generation
    · cases moved
  · split at moved <;> cases moved
    rfl
  · split at moved <;> cases moved <;> rfl
  · split at moved
    · split at moved
      · cases moved
        rfl
      · split at moved <;> cases moved <;> rfl
    · cases moved
  · split at moved <;> cases moved
    exact IntrospectionCache.put_generation _ _ _
  · cases moved

theorem generation_step (taken : Step tokenKey s label s') :
    (label.eviction = none ∧ s'.cache.generation = s.cache.generation) ∨
      s'.cache.generation = s.cache.generation + 1 := by
  have piece : ∀ i, label.request = some i → s'.cache.generation = s.cache.generation := by
    intro i of
    obtain ⟨request, cache, phase, -, moved, rfl⟩ := act_request taken of
    exact move_generation moved
  cases label with
  | tick mono wall =>
    simp only [Step, act, Option.ite_none_right_eq_some, Option.some.injEq] at taken
    exact .inl ⟨rfl, taken.2 ▸ rfl⟩
  | arrive auth setting =>
    simp only [Step, act] at taken
    split at taken <;> cases taken <;> exact .inl ⟨rfl, rfl⟩
  | responded method fullPath status =>
    simp only [Step, act] at taken
    split at taken <;> cases taken
    · next nothing => exact .inl ⟨nothing, rfl⟩
    · exact .inr rfl
  | _ => exact .inl ⟨rfl, piece _ rfl⟩

omit [DecidableEq κ] in
theorem Told.later {generation later : Nat}
    (told : Told tokenKey trace generation i request reply clock since)
    (other : label ≠ .lookup i) (le : request.generation ≤ generation)
    (step : (label.eviction = none ∧ later = generation) ∨ later = generation + 1) :
    Told tokenKey (trace ++ [⟨s, label, s'⟩]) later i request reply clock
      (since ++ [⟨s, label, s'⟩]) where
  computed := told.computed.later _
  looked t mem := by
    rcases List.mem_append.mp mem with earlier | last
    · exact told.looked t earlier
    · rw [List.mem_singleton.mp last]
      exact other
  current same t mem := by
    rcases step with ⟨kept, rfl⟩ | rfl
    · rcases List.mem_append.mp mem with earlier | last
      · exact told.current same t earlier
      · rw [List.mem_singleton.mp last]
        exact kept
    · omega

omit [DecidableEq κ] in
theorem Known.later (known : Known tokenKey trace s i request) (other : label ≠ .lookup i)
    (generation : (label.eviction = none ∧ s'.cache.generation = s.cache.generation) ∨
      s'.cache.generation = s.cache.generation + 1)
    (still : ∀ reply clock answer life, request.phase = .answered reply clock answer life →
      s'.wall ≤ s.wall) :
    Known tokenKey (trace ++ [⟨s, label, s'⟩]) s' i request where
  generation := by
    have := known.generation
    omega
  looking := known.looking
  replied reply clock is := by
    obtain ⟨since, told⟩ := known.replied reply clock is
    exact ⟨_, told.later other known.generation generation⟩
  answered reply clock answer life is := by
    obtain ⟨caching, answers, short, ends, since, told⟩ := known.answered reply clock answer life is
    refine ⟨caching, answers, short, fun exp active has => ?_, _,
      told.later other known.generation generation⟩
    have before := ends exp active has
    have wall := still reply clock answer life is
    linarith

omit [DecidableEq κ] in
theorem Backed.later {item : κ × Entry} (backed : Backed tokenKey trace s item)
    (kept : label.deletes item.2.answer = false) (slower : s'.wall - s'.mono ≤ s.wall - s.mono) :
    Backed tokenKey (trace ++ [⟨s, label, s'⟩]) s' item := by
  obtain ⟨i, ttl, reply, clock, since, computed, answers, short, ends, alone⟩ := backed
  refine ⟨i, ttl, reply, clock, _, computed.later _, answers, short, ?_, ?_⟩
  · intro exp active has
    have before := ends exp active has
    linarith
  · intro t mem
    rcases List.mem_append.mp mem with earlier | last
    · exact alone t earlier
    · rw [List.mem_singleton.mp last]
      exact kept

omit [DecidableEq κ] in
theorem Known.plain {phase : Phase} (generation : request.generation ≤ s.cache.generation)
    (plain : phase = .asking ∨ ∃ outcome, phase = .ended outcome) :
    Known tokenKey trace s i { request with phase } where
  generation := generation
  looking is := by rcases plain with rfl | ⟨outcome, rfl⟩ <;> cases is
  replied _ _ is := by rcases plain with rfl | ⟨outcome, rfl⟩ <;> cases is
  answered _ _ _ _ is := by rcases plain with rfl | ⟨outcome, rfl⟩ <;> cases is

omit [DecidableEq κ] in
theorem Known.arrived {token : Str} (generation : s'.cache.generation = s.cache.generation) :
    Known tokenKey trace s' i
      ⟨token, ttl, s.cache.generation, if 0 < ttl then .looking else .asking⟩ := by
  split
  · next caching =>
    exact ⟨generation.ge, fun _ => caching, fun _ _ is => (by cases is),
      fun _ _ _ _ is => (by cases is)⟩
  · exact ⟨generation.ge, fun is => (by cases is), fun _ _ is => (by cases is),
      fun _ _ _ _ is => (by cases is)⟩

omit [DecidableEq κ] in
theorem Known.told (generation : request.generation ≤ s.cache.generation)
    (told : Told tokenKey trace s.cache.generation i request reply clock since) :
    Known tokenKey trace s i { request with phase := .replied reply clock } where
  generation := generation
  looking is := by cases is
  replied _ _ is := by
    cases is
    exact ⟨since, told.computed, told.looked, told.current⟩
  answered _ _ _ _ is := by cases is

omit [DecidableEq κ] in
theorem Known.worked {answer : Option Caller} {life : Rat}
    (generation : request.generation ≤ s.cache.generation) (caching : 0 < request.ttl)
    (answers : reply.answer = some answer) (short : life ≤ longest request.ttl answer)
    (ends : ∀ exp : Int, answer.isSome → reply.exp = some exp → s.wall + life ≤ exp)
    (told : Told tokenKey trace s.cache.generation i request reply clock since) :
    Known tokenKey trace s i { request with phase := .answered reply clock answer life } where
  generation := generation
  looking is := by cases is
  replied _ _ is := by cases is
  answered _ _ _ _ is := by
    cases is
    exact ⟨caching, answers, short, ends, since, told.computed, told.looked, told.current⟩

theorem life_le_longest (ttl wall : Rat) (reply : Reply) (answer : Option Caller) :
    life ttl wall reply answer ≤ longest ttl answer := by
  unfold life
  split
  · exact le_refl _
  · split
    · exact le_refl _
    · exact min_le_left _ _

theorem life_le_exp {wall : Rat} {answer : Option Caller} {exp : Int} (active : answer.isSome)
    (has : reply.exp = some exp) : life ttl wall reply answer ≤ exp - wall := by
  obtain ⟨caller, rfl⟩ := Option.isSome_iff_exists.mp active
  simp only [life, has]
  exact min_le_right _ _

theorem Known.moved {cache : IntrospectionCache κ} {phase : Phase}
    (known : Known tokenKey trace s i request) (found : s.requests[i]? = some request)
    (of : label.request = some i) (moved : move tokenKey s request label = some (cache, phase))
    (generation : s'.cache.generation = s.cache.generation) (wall : s'.wall = s.wall) :
    Known tokenKey (trace ++ [⟨s, label, s'⟩]) s' i { request with phase } := by
  have le : request.generation ≤ s'.cache.generation := generation ▸ known.generation
  cases label with
  | lookup j =>
    simp only [move] at moved
    split at moved
    · split at moved <;> cases moved
      · exact .plain le (.inr ⟨_, rfl⟩)
      · exact .plain le (.inl rfl)
    · cases moved
  | computed j reply =>
    simp only [move] at moved
    split at moved <;> cases moved
    cases of
    have now : Computed tokenKey (trace ++ [⟨s, .computed i reply, s'⟩]) i
        (tokenKey request.token) request.ttl reply s.mono [] :=
      ⟨trace, _, request, rfl, rfl, rfl, found, rfl, rfl⟩
    have told : Told tokenKey _ s'.cache.generation i request reply s.mono [] :=
      ⟨now, fun _ mem => absurd mem List.not_mem_nil, fun _ _ mem => absurd mem List.not_mem_nil⟩
    exact .told le told
  | failed j =>
    simp only [move] at moved
    split at moved <;> cases moved
    all_goals exact .plain le (.inr ⟨_, rfl⟩)
  | receive j =>
    simp only [move] at moved
    split at moved
    · next reply clock is =>
      split at moved
      · cases moved
        exact .plain le (.inr ⟨_, rfl⟩)
      · next answer answers =>
        split at moved <;> cases moved
        · next caching =>
          obtain ⟨since, told⟩ := known.replied reply clock is
          have later := @Told.later _ tokenKey trace s s' (.receive j) i _ _ _ _ _
            s'.cache.generation told (fun same => by cases same) known.generation
            (.inl ⟨rfl, generation⟩)
          refine .worked le caching answers (life_le_longest _ _ _ _) ?_ later
          intro exp active has
          have short := @life_le_exp request.ttl reply s.wall answer exp active has
          rw [wall]
          linarith
        · exact .plain le (.inr ⟨_, rfl⟩)
    · cases moved
  | store j =>
    simp only [move] at moved
    split at moved <;> cases moved
    exact .plain le (.inr ⟨_, rfl⟩)
  | tick _ _ | arrive _ _ | responded _ _ _ => cases of

theorem entries_move {cache : IntrospectionCache κ} {phase : Phase} {item : κ × Entry}
    (moved : move tokenKey s request label = some (cache, phase)) (mem : item ∈ cache.entries) :
    item ∈ s.cache.entries ∨ ∃ j reply clock answer life, label = .store j ∧
      request.phase = .answered reply clock answer life ∧
      request.generation = s.cache.generation ∧
      item = (tokenKey request.token, ⟨s.mono + life, answer⟩) := by
  unfold move at moved
  split at moved
  · refine .inl (@IntrospectionCache.mem_get κ _ _ s.mono (tokenKey request.token) _ ?_)
    split at moved
    · split at moved <;> cases moved
      all_goals
        next got =>
          rw [got]
          exact mem
    · cases moved
  · split at moved <;> cases moved
    exact .inl mem
  · split at moved <;> cases moved <;> exact .inl mem
  · split at moved
    · split at moved
      · cases moved
        exact .inl mem
      · split at moved <;> cases moved <;> exact .inl mem
    · cases moved
  · split at moved <;> cases moved
    next j _ _ _ answer life is =>
      rcases IntrospectionCache.mem_put mem with earlier | ⟨-, current, new⟩
      · exact .inl earlier
      · exact .inr ⟨j, _, _, answer, life, rfl, is, current, new⟩
  · cases moved

omit [DecidableEq κ] in
theorem Known.stored {clock life : Rat} {answer : Option Caller}
    (known : Known tokenKey trace s i request) (found : s.requests[i]? = some request)
    (is : request.phase = .answered reply clock answer life)
    (current : request.generation = s.cache.generation) (timely : Timely s (.store i))
    (mono : s'.mono = s.mono) (wall : s'.wall = s.wall) :
    Backed tokenKey (trace ++ [⟨s, .store i, s'⟩]) s'
      (tokenKey request.token, ⟨s.mono + life, answer⟩) := by
  obtain ⟨caching, answers, short, ends, since, told⟩ := known.answered reply clock answer life is
  have inTime : s.mono + life ≤ clock + longest request.ttl answer := by
    have stored := timely request found
    simp only [Request.inTime, is] at stored
    rcases stored with rfl | old | ⟨active, exp, has, near⟩
    · linarith
    · exact absurd current old
    · obtain ⟨caller, rfl⟩ := Option.isSome_iff_exists.mp active
      have early := ends exp active has
      simp only [longest]
      linarith
  refine ⟨i, _, reply, clock, _, told.computed.later _, answers, inTime, ?_, ?_⟩
  · intro exp active has
    have early := ends exp active has
    simp only [mono, wall]
    linarith
  · intro t mem
    have nothing : t.label.eviction = none := by
      rcases List.mem_append.mp mem with earlier | last
      · exact told.current current t earlier
      · rw [List.mem_singleton.mp last]
        rfl
    simp only [Act.deletes, nothing, Option.any_none]

theorem deletes_of_request {answer : Option Caller} (of : label.request = some i) :
    label.deletes answer = false := by
  cases label <;> first | rfl | cases of

theorem Sound.piece (sound : Sound tokenKey trace s) (timely : Timely s label)
    (taken : Step tokenKey s label s') (of : label.request = some i) :
    Sound tokenKey (trace ++ [⟨s, label, s'⟩]) s' := by
  have generation := generation_step taken
  obtain ⟨request, cache, phase, found, moved, rfl⟩ := act_request taken of
  have known := sound.requests i request found
  constructor
  · intro j other has
    simp only [List.getElem?_set] at has
    split at has
    · next same =>
      subst same
      split at has <;> cases has
      exact known.moved found of moved (move_generation moved) rfl
    · next differs =>
      refine (sound.requests j other has).later ?_ generation (fun _ _ _ _ _ => le_refl _)
      rintro rfl
      exact differs (Option.some.inj of).symm
  · intro item mem
    rcases entries_move moved mem with earlier | ⟨j, reply, clock, answer, life, rfl, is, current, rfl⟩
    · exact (sound.entries item earlier).later (deletes_of_request of) (le_refl _)
    · cases of
      exact known.stored found is current timely rfl rfl

theorem Sound.step (sound : Sound tokenKey trace s) (timely : Timely s label)
    (taken : Step tokenKey s label s') : Sound tokenKey (trace ++ [⟨s, label, s'⟩]) s' := by
  have generation := generation_step taken
  cases label with
  | tick mono wall =>
    simp only [Step, act, Option.ite_none_right_eq_some, Option.some.injEq] at taken
    obtain ⟨⟨forward, wallForward⟩, rfl⟩ := taken
    obtain ⟨slower, alone⟩ := timely
    constructor
    · intro j request has
      refine (sound.requests j request has).later (by simp) generation ?_
      intro reply clock answer life is
      rcases forward.lt_or_eq with moves | rfl
      · have storing := alone moves request (List.mem_of_getElem? has)
        rw [is] at storing
        cases storing
      · simp only
        linarith
    · intro item mem
      refine (sound.entries item mem).later rfl ?_
      simp only
      linarith
  | arrive auth setting =>
    simp only [Step, act] at taken
    split at taken <;> cases taken
    · exact ⟨fun j request has => (sound.requests j request has).later (by simp) generation
        (fun _ _ _ _ _ => le_refl _), fun item mem => (sound.entries item mem).later rfl (le_refl _)⟩
    · constructor
      · intro j request has
        simp only [List.getElem?_append] at has
        split at has
        · exact (sound.requests j request has).later (by simp) generation (fun _ _ _ _ _ => le_refl _)
        · obtain rfl := List.mem_singleton.mp (List.mem_of_getElem? has)
          exact .arrived rfl
      · exact fun item mem => (sound.entries item mem).later rfl (le_refl _)
  | responded method fullPath status =>
    simp only [Step, act] at taken
    split at taken <;> cases taken
    · next nothing =>
      refine ⟨fun j request has => (sound.requests j request has).later (by simp) generation
        (fun _ _ _ _ _ => le_refl _), fun item mem => (sound.entries item mem).later ?_ (le_refl _)⟩
      simp only [Act.deletes, Act.eviction, nothing, Option.any_none]
    · next eviction evicts =>
      refine ⟨fun j request has => (sound.requests j request has).later (by simp) generation
        (fun _ _ _ _ _ => le_refl _), fun item mem => ?_⟩
      obtain ⟨was, kept⟩ := IntrospectionCache.mem_evict mem
      refine (sound.entries item was).later ?_ (le_refl _)
      simp only [Act.deletes, Act.eviction, evicts, Option.any_some, kept]
  | lookup i | computed i _ | failed i | receive i | store i => exact sound.piece timely taken rfl

theorem Sound.run {mono wall : Rat} {maxEntries : Int}
    (run : Run (Step tokenKey) (start mono wall maxEntries) trace s)
    (timely : ∀ t ∈ trace, Timely t.before t.label) : Sound tokenKey trace s := by
  refine run.invariant_of_guarded_history (Sound tokenKey) (fun _ => Timely)
    ⟨fun i request has => ?_, fun item mem => ?_⟩ (fun _ _ _ _ sound timely taken =>
      sound.step timely taken) (fun earlier t later same => timely t ?_)
  · simp [start] at has
  · exact absurd mem List.not_mem_nil
  · rw [same]
    exact List.mem_append_right _ List.mem_cons_self

theorem Sound.fresh {request : Request} {answer : Option Caller} (sound : Sound tokenKey trace s)
    (taken : Step tokenKey s (.lookup i) s') (after : s'.requests[i]? = some request)
    (hit : request.phase = .ended (.cached answer)) :
    Fresh tokenKey trace s (tokenKey request.token) answer := by
  obtain ⟨asking, cache, phase, found, moved, rfl⟩ := act_request taken rfl
  have here : i < s.requests.length := (List.getElem?_eq_some_iff.mp found).1
  simp only [List.getElem?_set_self here, Option.some.injEq] at after
  subst after
  simp only at hit
  subst hit
  simp only [move] at moved
  split at moved
  · split at moved <;> cases moved
    next got =>
      have answered : (s.cache.get s.mono (tokenKey asking.token)).2 = some answer := by rw [got]
      obtain ⟨entry, mem, live, rfl⟩ := IntrospectionCache.get_answer answered
      obtain ⟨j, ttl, reply, clock, since, computed, answers, short, ends, alone⟩ :=
        sound.entries _ mem
      refine ⟨j, ttl, reply, clock, since, computed, answers, ?_, ?_, ?_, alone⟩
      · have le : longest ttl entry.answer ≤ ttl := by
          cases entry.answer
          · exact min_le_left _ _
          · exact le_refl _
        simp only at short
        linarith
      · intro inactive
        have le : longest ttl entry.answer ≤ negativeSeconds := inactive ▸ min_le_right _ _
        simp only at short
        linarith
      · intro exp active has
        have before := ends exp active has
        simp only at before
        linarith
  · cases moved

theorem Sound.asked {request : Request} {answer : Option Caller} (sound : Sound tokenKey trace s)
    (taken : Step tokenKey s label s') (of : label.request = some i)
    (after : s'.requests[i]? = some request) (ended : request.phase = .ended (.asked answer)) :
    ∃ reply clock since, Computed tokenKey trace i (tokenKey request.token) request.ttl reply clock
      since ∧ reply.answer = some answer ∧ ∀ u ∈ since, u.label ≠ .lookup i := by
  obtain ⟨asking, cache, phase, found, moved, rfl⟩ := act_request taken of
  have known := sound.requests i asking found
  have here : i < s.requests.length := (List.getElem?_eq_some_iff.mp found).1
  simp only [List.getElem?_set_self here, Option.some.injEq] at after
  subst after
  simp only at ended
  subst ended
  unfold move at moved
  split at moved
  · split at moved
    · split at moved <;> cases moved
    · cases moved
  · split at moved <;> cases moved
  · split at moved <;> cases moved
  · split at moved
    · next reply clock is =>
      obtain ⟨since, told⟩ := known.replied reply clock is
      split at moved
      · cases moved
      · next answers =>
        split at moved <;> cases moved
        exact ⟨reply, clock, since, told.computed, answers, told.looked⟩
    · cases moved
  · split at moved <;> cases moved
    next is =>
      obtain ⟨-, answers, -, -, since, told⟩ := known.answered _ _ _ _ is
      exact ⟨_, _, since, told.computed, answers, told.looked⟩
  · cases moved

theorem Sound.off {request : Request} (sound : Sound tokenKey trace s)
    (taken : Step tokenKey s label s') (of : label.request = some i)
    (found : s.requests[i]? = some request) (never : request.ttl ≤ 0) :
    label ≠ .lookup i ∧ s'.cache = s.cache := by
  obtain ⟨same, cache, phase, found', moved, rfl⟩ := act_request taken of
  cases found.symm.trans found'
  have known := sound.requests i request found
  unfold move at moved
  split at moved
  · split at moved
    · next is => exact absurd (known.looking is) (not_lt.mpr never)
    · cases moved
  · split at moved <;> cases moved
    exact ⟨fun is => (by cases is), rfl⟩
  · split at moved <;> cases moved <;> exact ⟨fun is => (by cases is), rfl⟩
  · split at moved
    · split at moved
      · cases moved
        exact ⟨fun is => (by cases is), rfl⟩
      · split at moved <;> cases moved <;> exact ⟨fun is => (by cases is), rfl⟩
    · cases moved
  · split at moved <;> cases moved
    next is => exact absurd (known.answered _ _ _ _ is).1 (not_lt.mpr never)
  · cases moved

end Invariant

/-- In every run whose steps are timely the staleness of what is decided is bounded. -/
theorem introspection_bounded {κ : Type} [DecidableEq κ] {tokenKey : Str → κ} {mono wall : Rat}
    {maxEntries : Int} {trace : Trace κ} {s : State κ}
    (run : Run (Step tokenKey) (start mono wall maxEntries) trace s)
    (timely : ∀ t ∈ trace, Timely t.before t.label) : Bounded tokenKey trace := by
  have reached : ∀ earlier t later, trace = earlier ++ t :: later →
      Sound tokenKey earlier t.before ∧ Step tokenKey t.before t.label t.after := by
    intro earlier t later same
    obtain ⟨before, taken⟩ := run.split same
    refine ⟨.run before fun u mem => timely u ?_, taken⟩
    rw [same]
    exact List.mem_append_left _ mem
  constructor
  · intro earlier t later i request answer same is after hit
    obtain ⟨sound, taken⟩ := reached earlier t later same
    exact sound.fresh (is ▸ taken) after hit
  · intro earlier t later i request answer same of after ended
    obtain ⟨sound, taken⟩ := reached earlier t later same
    exact sound.asked taken of after ended
  · intro t mem i request of found never
    obtain ⟨earlier, later, same⟩ := List.append_of_mem mem
    obtain ⟨sound, taken⟩ := reached earlier t later same
    exact sound.off taken of found never

def activeReply : Reply where
  status := 200
  body := some {
    active := true, clientId := some "rapp-1".toList, role := some .rapp, exp := some 3600 }

/-- Two calls with one token while the lifetime is 30 seconds: `late` seconds pass before SME's
answer arrives, and `later` seconds between the store and the second call. -/
def twoCalls (late later : Rat) : List Act :=
  [.arrive "Bearer t".toList (some 30), .lookup 0, .computed 0 activeReply, .tick late late,
   .receive 0, .store 0, .tick later later, .arrive "Bearer t".toList (some 30), .lookup 1]

def acted : State Str → Act → State Str := Runs.nextOf (act id)

theorem prompt_calls_bounded :
    Bounded id (Runs.stepsOf acted (start 0 0 10000) (twoCalls 0 29)) :=
  introspection_bounded (Runs.run_enabled (by decide +kernel)) (by decide +kernel)

/-- An answer that took 2 seconds to arrive is served 31 seconds after SME computed it. -/
theorem late_answer_stale : ¬ ∀ (trace : Trace Str) (s : State Str),
    Run (Step id) (start 0 0 10000) trace s → Bounded id trace := by
  intro bounded
  have run := bounded _ _
    (@Runs.run_enabled _ _ (start 0 0 10000) (act id) (twoCalls 2 29) (by decide +kernel))
  let earlier : Trace Str := Runs.stepsOf acted (start 0 0 10000) ((twoCalls 2 29).take 8)
  let reached : State Str := ((twoCalls 2 29).take 8).foldl acted (start 0 0 10000)
  have hit : ((acted reached (.lookup 1)).requests[1]?.any
      (·.phase matches .ended (.cached _))) = true := by decide +kernel
  obtain ⟨request, after, is⟩ := (Option.any_eq_true _ _).mp hit
  split at is
  · next answer cached =>
      obtain ⟨i, ttl, reply, clock, since, ⟨before, asked, asking, same, is, rfl, has, -, rfl⟩,
        -, recent, -⟩ := run.fresh earlier ⟨reached, .lookup 1, _⟩ [] 1 _ _ rfl rfl after cached
      -- SME computed one answer, at 0, for a request with a lifetime of 30 seconds.
      have first : ∀ t ∈ earlier, (t.label matches .computed _ _) = true →
          t.before.mono = 0 ∧ ∀ request ∈ t.before.requests, request.ttl = 30 := by decide +kernel
      have mem : asked ∈ earlier := by
        rw [same]
        exact List.mem_append_right _ List.mem_cons_self
      obtain ⟨clock, ttl⟩ := first asked mem (by rw [is])
      have now : reached.mono = 31 := by decide +kernel
      simp only [now, clock, ttl asking (List.mem_of_getElem? has)] at recent
      norm_num at recent
  · cases is

end Smo.R1Termination.Introspection
