import Smo.Lib.Json.Load
import Smo.Lib.Runs

/-! Idempotency keys (`shared/smo_shared/idempotency.py`): requests reserve a key, run the
body of a route and store its answer, each in database statements of its own between which
other requests go on. No replica crashes. A time is a count of microseconds. -/
namespace Smo.Idempotency

open Runs

structure Call where
  method : String
  path : String
  payload : Json.Value

inductive KeyState where
  | inProgress | completed
  deriving DecidableEq, Repr

structure IdempotencyKey (η : Type) where
  requestHash : η
  state : KeyState
  responseStatus : Option Nat := none
  responseBody : Json.Value := .null
  createdAt : Nat

structure Pk where
  module : String
  scope : String
  key : String
  deriving DecidableEq, Repr

/-- What a request is answered with: what its own run gave, what was stored, 422, or 409. -/
inductive Answer where
  | ran (status : Nat) (body : Json.Value)
  | raised
  | replay (status : Nat) (body : Json.Value)
  | keyReused
  | keyInProgress

/-- How far a request is. It looks for its key at most twice; `left` is how often it may
again. -/
inductive Phase (η : Type) where
  | beginning (left : Nat)
  | found (left : Nat) (row : Option (IdempotencyKey η))
  | running
  | returned (status : Nat) (body : Json.Value)
  | raising
  | answered (answer : Answer)

structure Attempt (η : Type) where
  pk : Pk
  call : Call
  phase : Phase η

structure Keys (η : Type) where
  now : Nat
  rows : Pk → Option (IdempotencyKey η) := fun _ => none
  attempts : List (Attempt η) := []

/-- `IDEMPOTENCY_KEY_TTL_SECONDS` and `IDEMPOTENCY_IN_PROGRESS_SECONDS`, in microseconds. -/
structure Settings where
  ttl : Nat := 86400 * 1000000
  inProgress : Nat := 300 * 1000000

inductive Act where
  | begin (pk : Pk) (call : Call)
  | look (i : Nat)
  | decide (i : Nat)
  | return_ (i : Nat) (status : Nat) (body : Json.Value)
  | raise (i : Nat)
  | release (i : Nat)
  | complete (i : Nat)
  | tick (now : Nat)

namespace Keys

variable {η : Type} (requestHash : Call → η) (settings : Settings)

def setRow (rows : Pk → Option (IdempotencyKey η)) (pk : Pk) (row : Option (IdempotencyKey η)) :
    Pk → Option (IdempotencyKey η) :=
  fun other => if other = pk then row else rows other

def setPhase (s : Keys η) (i : Nat) (phase : Phase η) : Keys η :=
  { s with attempts := s.attempts.modify i fun attempt => { attempt with phase } }

def purged (s : Keys η) (pk : Pk) : Option (IdempotencyKey η) :=
  (s.rows pk).filter fun row => ¬ row.createdAt + settings.ttl < s.now

/-- The next pass of the loop of `_begin`, or 409 after the second. -/
def again : Nat → Phase η
  | 0 => .answered .keyInProgress
  | left + 1 => .beginning left

section Statements

variable [DecidableEq η]

/-- `_begin`, from where it has looked for its row. -/
def decide (s : Keys η) (i : Nat) (attempt : Attempt η) (left : Nat) :
    Option (IdempotencyKey η) → Keys η
  | none =>
    match s.purged settings attempt.pk with
    | some _ => s.setPhase i (again left)
    | none => { s.setPhase i .running with
        rows := setRow (s.purged settings) attempt.pk
          (some { requestHash := requestHash attempt.call, state := .inProgress, createdAt := s.now }) }
  | some row =>
    if row.requestHash ≠ requestHash attempt.call then s.setPhase i (.answered .keyReused)
    else if row.state = .completed then
      s.setPhase i (.answered (.replay (row.responseStatus.getD 500) row.responseBody))
    else if row.createdAt + settings.inProgress < s.now then
      match (s.rows attempt.pk).filter (·.createdAt = row.createdAt) with
      | some current => { s.setPhase i .running with
          rows := setRow s.rows attempt.pk (some { current with createdAt := s.now }) }
      | none => s.setPhase i (again left)
    else s.setPhase i (.answered .keyInProgress)

/-- `_release`. -/
def release (s : Keys η) (i : Nat) (pk : Pk) : Keys η :=
  { s.setPhase i (.answered .raised) with
    rows := setRow s.rows pk ((s.rows pk).filter (·.state ≠ .inProgress)) }

/-- `_complete`. -/
def complete (s : Keys η) (i : Nat) (pk : Pk) (status : Nat) (body : Json.Value) : Keys η :=
  { s.setPhase i (.answered (.ran status body)) with
    rows := setRow s.rows pk ((s.rows pk).map fun row =>
      { row with state := .completed, responseStatus := some status, responseBody := body }) }

/-- The steps of `run_idempotent`, of the request at a place in the list. -/
def act (s : Keys η) : Act → Option (Keys η)
  | .begin pk call => some { s with attempts := s.attempts ++ [⟨pk, call, .beginning 1⟩] }
  | .look i =>
    match s.attempts[i]? with
    | some ⟨pk, _, .beginning left⟩ => some (s.setPhase i (.found left (s.rows pk)))
    | _ => none
  | .decide i =>
    match s.attempts[i]? with
    | some ⟨pk, call, .found left row⟩ =>
      some (s.decide requestHash settings i ⟨pk, call, .found left row⟩ left row)
    | _ => none
  | .return_ i status body =>
    match s.attempts[i]? with
    | some ⟨_, _, .running⟩ => some (s.setPhase i (.returned status body))
    | _ => none
  | .raise i =>
    match s.attempts[i]? with
    | some ⟨_, _, .running⟩ => some (s.setPhase i .raising)
    | _ => none
  | .release i =>
    match s.attempts[i]? with
    | some ⟨pk, _, .raising⟩ => some (s.release i pk)
    | _ => none
  | .complete i =>
    match s.attempts[i]? with
    | some ⟨pk, _, .returned status body⟩ => some (s.complete i pk status body)
    | _ => none
  | .tick now => if s.now ≤ now then some { s with now } else none

def Step (s : Keys η) (act : Act) (s' : Keys η) : Prop :=
  s.act requestHash settings act = some s'

inductive Taken : Keys η → Act → Keys η → Prop
  | begin {s : Keys η} (pk : Pk) (call : Call) :
      Taken s (.begin pk call) { s with attempts := s.attempts ++ [⟨pk, call, .beginning 1⟩] }
  | look {s : Keys η} {i left : Nat} {pk : Pk} {call : Call}
      (is : s.attempts[i]? = some ⟨pk, call, .beginning left⟩) :
      Taken s (.look i) (s.setPhase i (.found left (s.rows pk)))
  | decide {s : Keys η} {i left : Nat} {pk : Pk} {call : Call} {row : Option (IdempotencyKey η)}
      (is : s.attempts[i]? = some ⟨pk, call, .found left row⟩) :
      Taken s (.decide i) (s.decide requestHash settings i ⟨pk, call, .found left row⟩ left row)
  | return_ {s : Keys η} {i : Nat} {pk : Pk} {call : Call} (status : Nat) (body : Json.Value)
      (is : s.attempts[i]? = some ⟨pk, call, .running⟩) :
      Taken s (.return_ i status body) (s.setPhase i (.returned status body))
  | raise {s : Keys η} {i : Nat} {pk : Pk} {call : Call}
      (is : s.attempts[i]? = some ⟨pk, call, .running⟩) :
      Taken s (.raise i) (s.setPhase i .raising)
  | release {s : Keys η} {i : Nat} {pk : Pk} {call : Call}
      (is : s.attempts[i]? = some ⟨pk, call, .raising⟩) :
      Taken s (.release i) (s.release i pk)
  | complete {s : Keys η} {i status : Nat} {body : Json.Value} {pk : Pk} {call : Call}
      (is : s.attempts[i]? = some ⟨pk, call, .returned status body⟩) :
      Taken s (.complete i) (s.complete i pk status body)
  | tick {s : Keys η} {now : Nat} (later : s.now ≤ now) : Taken s (.tick now) { s with now }

theorem Step.taken {requestHash : Call → η} {settings : Settings} {s s' : Keys η} {act : Act}
    (step : Step requestHash settings s act s') : Taken requestHash settings s act s' := by
  unfold Step at step
  cases act with
  | begin pk call =>
    cases step
    exact .begin pk call
  | tick now =>
    simp only [Keys.act] at step
    split at step
    next later =>
      cases step
      exact .tick later
    next => cases step
  | look | decide | return_ | raise | release | complete =>
    simp only [Keys.act] at step
    split at step
    next is =>
      cases step
      constructor
      exact is
    next => cases step

end Statements

/-- The row of the key is neither found expired where expired rows are deleted, nor found
reserved for too long. -/
def Timely (k : Pk) (s : Keys η) (act : Act) : Prop :=
  ∀ (i left : Nat) (pk : Pk) (call : Call) (row : Option (IdempotencyKey η)), act = .decide i →
    s.attempts[i]? = some ⟨pk, call, .found left row⟩ →
    (row = none → ∀ current, s.rows k = some current → s.now ≤ current.createdAt + settings.ttl) ∧
    (pk = k → ∀ copy, row = some copy → copy.state = .inProgress →
      s.now ≤ copy.createdAt + settings.inProgress)

def holds : Phase η → Bool
  | .running | .returned .. | .raising | .answered (.ran ..) => true
  | _ => false

def Fits (row : Option (IdempotencyKey η)) (call : Call) : Phase η → Prop
  | .found _ (some copy) => copy.state = .completed → row = some copy
  | .running | .returned .. | .raising =>
    ∃ current, row = some current ∧ current.state = .inProgress ∧
      current.requestHash = requestHash call
  | .answered (.ran status body) =>
    ∃ current, row = some current ∧ current.state = .completed ∧
      current.requestHash = requestHash call ∧ current.responseStatus = some status ∧
      current.responseBody = body
  | .answered (.replay status body) =>
    ∃ current, row = some current ∧ current.state = .completed ∧
      current.requestHash = requestHash call ∧ current.responseStatus.getD 500 = status ∧
      current.responseBody = body
  | _ => True

structure Inv (k : Pk) (s : Keys η) : Prop where
  fits : ∀ (i : Nat) (attempt : Attempt η), s.attempts[i]? = some attempt → attempt.pk = k →
    Fits requestHash (s.rows k) attempt.call attempt.phase
  alone : ∀ (i j : Nat) (attempt attempt' : Attempt η), s.attempts[i]? = some attempt →
    attempt.pk = k → s.attempts[j]? = some attempt' → attempt'.pk = k →
    holds attempt.phase = true → holds attempt'.phase = true → i = j

section Changes

variable {requestHash settings} {k : Pk} {s s' : Keys η} {act : Act} {i j : Nat}
  {attempt attempt' : Attempt η} {phase : Phase η} {row row' : Option (IdempotencyKey η)}
  {call : Call}

theorem inv_fresh (empty : s.attempts = []) : Inv requestHash k s := by
  constructor
  · intro i attempt found
    rw [empty] at found
    cases found
  · intro i j attempt attempt' found
    rw [empty] at found
    cases found

theorem setPhase_attempt : (s.setPhase i phase).attempts[j]? = some attempt' ↔
    ∃ attempt, s.attempts[j]? = some attempt ∧
      attempt' = if i = j then { attempt with phase } else attempt := by
  rw [setPhase, List.getElem?_modify, Option.map_eq_map, Option.map_eq_some_iff]
  constructor
  · rintro ⟨attempt, is, rfl⟩
    exact ⟨attempt, is, rfl⟩
  · rintro ⟨attempt, is, rfl⟩
    exact ⟨attempt, is, rfl⟩

theorem setPhase_other (other : j ≠ i) (is : s.attempts[i]? = some attempt) :
    (s.setPhase j phase).attempts[i]? = some attempt :=
  setPhase_attempt.mpr ⟨attempt, is, (if_neg other).symm⟩

theorem setPhase_self (is : s.attempts[i]? = some attempt) :
    (s.setPhase i phase).attempts[i]? = some { attempt with phase } :=
  setPhase_attempt.mpr ⟨attempt, is, (if_pos rfl).symm⟩

theorem Inv.move (inv : Inv requestHash k s) (is : s.attempts[i]? = some attempt)
    (attempts : s'.attempts = (s.setPhase i phase).attempts)
    (fits : attempt.pk = k → Fits requestHash (s'.rows k) attempt.call phase)
    (others : ∀ (j : Nat) (other : Attempt η), j ≠ i → s.attempts[j]? = some other →
      other.pk = k → Fits requestHash (s'.rows k) other.call other.phase ∧
        (attempt.pk = k → holds phase = true → holds other.phase = false)) :
    Inv requestHash k s' := by
  have before : ∀ (j : Nat) (now : Attempt η), s'.attempts[j]? = some now → now.pk = k →
      (j = i ∧ attempt.pk = k ∧ now.call = attempt.call ∧ now.phase = phase) ∨
        (j ≠ i ∧ s.attempts[j]? = some now) := by
    intro j now found mine
    rw [attempts, setPhase_attempt] at found
    obtain ⟨was, there, rfl⟩ := found
    by_cases same : i = j
    · subst same
      rw [if_pos rfl] at mine ⊢
      obtain rfl := Option.some.inj (is.symm.trans there)
      exact .inl ⟨rfl, mine, rfl, rfl⟩
    · rw [if_neg same]
      exact .inr ⟨fun is => same is.symm, there⟩
  refine ⟨fun j now found mine => ?_, fun j j' now now' found mine found' mine' held held' => ?_⟩
  · rcases before j now found mine with ⟨rfl, mine, sameCall, samePhase⟩ | ⟨other, there⟩
    · rw [sameCall, samePhase]
      exact fits mine
    · exact (others j now other there mine).1
  · rcases before j now found mine with ⟨rfl, mine₁, -, samePhase⟩ | ⟨other, there⟩ <;>
      rcases before j' now' found' mine' with ⟨same', mine₂, -, samePhase'⟩ | ⟨other', there'⟩
    · exact same'.symm
    · have free := (others j' now' other' there' mine').2 mine₁ (samePhase ▸ held)
      rw [free] at held'
      cases held'
    · subst same'
      have free := (others j now other there mine).2 mine₂ (samePhase' ▸ held')
      rw [free] at held
      cases held
    · exact inv.alone j j' now now' there mine there' mine' held held'

theorem Inv.quiet (inv : Inv requestHash k s) (is : s.attempts[i]? = some attempt)
    (attempts : s'.attempts = (s.setPhase i phase).attempts) (rows : s'.rows k = s.rows k)
    (fits : attempt.pk = k → Fits requestHash (s.rows k) attempt.call phase)
    (held : attempt.pk = k → holds phase = true → holds attempt.phase = true) :
    Inv requestHash k s' := by
  refine inv.move is attempts (rows ▸ fits) fun j other apart there mine => ⟨?_, fun mine' now => ?_⟩
  · rw [rows]
    exact inv.fits j other there mine
  · by_contra also
    have also : holds other.phase = true := by simpa using also
    exact apart (inv.alone j i other attempt there mine is mine' also (held mine' now))

theorem Inv.bound (inv : Inv requestHash k s) (there : s.attempts[i]? = some attempt)
    (mine : attempt.pk = k) (held : holds attempt.phase = true) :
    ∃ row, s.rows k = some row ∧ row.requestHash = requestHash attempt.call ∧
      ∀ status body, attempt.phase = .answered (.ran status body) →
        row.state = .completed ∧ row.responseStatus = some status ∧ row.responseBody = body := by
  have known := inv.fits i attempt there mine
  rcases attempt with ⟨pk, call, phase⟩
  cases phase with
  | answered answer =>
    cases answer with
    | ran =>
      obtain ⟨row, found, completed, hash, status, body⟩ := known
      refine ⟨row, found, hash, ?_⟩
      rintro _ _ ⟨⟩
      exact ⟨completed, status, body⟩
    | _ => cases held
  | beginning | found => cases held
  | _ =>
    obtain ⟨row, found, -, hash⟩ := known
    exact ⟨row, found, hash, nofun⟩

theorem fits_unsettled (unsettled : ∀ current, row = some current → current.state = .inProgress)
    (free : holds phase = false) (fits : Fits requestHash row call phase) :
    Fits requestHash row' call phase := by
  have noAnswer : ∀ current, row = some current → current.state ≠ .completed := by
    intro current found completed
    rw [unsettled current found] at completed
    cases completed
  cases phase with
  | found left copy =>
    cases copy with
    | none => trivial
    | some copy => exact fun completed => absurd completed (noAnswer copy (fits completed))
  | answered answer =>
    cases answer with
    | replay =>
      obtain ⟨current, found, completed, -⟩ := fits
      exact absurd completed (noAnswer current found)
    | ran => cases free
    | _ => trivial
  | beginning => trivial
  | _ => cases free

theorem Inv.settle (inv : Inv requestHash k s) (is : s.attempts[i]? = some attempt)
    (mine : attempt.pk = k) (attempts : s'.attempts = (s.setPhase i phase).attempts)
    (unsettled : ∀ current, s.rows k = some current → current.state = .inProgress)
    (owner : holds attempt.phase = true ∨ s.rows k = none)
    (fits : Fits requestHash (s'.rows k) attempt.call phase) : Inv requestHash k s' := by
  refine inv.move is attempts (fun _ => fits) fun j other apart there mine' => ?_
  have known := inv.fits j other there mine'
  have free : holds other.phase = false := by
    by_contra also
    have also : holds other.phase = true := by simpa using also
    rcases owner with held | gone
    · exact apart (inv.alone j i other attempt there mine' is mine also held)
    · rw [gone] at known
      rcases other with ⟨pk, call, phase⟩
      cases phase with
      | answered answer => cases answer <;> simp [holds, Fits] at also known
      | _ => simp [holds, Fits] at also known
  exact ⟨fits_unsettled unsettled free known, fun _ _ => free⟩

theorem purged_timely (timely : Timely settings k s (.decide i)) {left : Nat} {pk : Pk}
    (is : s.attempts[i]? = some ⟨pk, call, .found left none⟩) :
    s.purged settings k = s.rows k := by
  rw [purged]
  cases found : s.rows k with
  | none => rfl
  | some current =>
    have young := (timely i left pk call none rfl is).1 rfl current found
    rw [Option.filter_some, if_pos (decide_eq_true (Nat.not_lt.mpr young))]

theorem inProgress_of {copy : IdempotencyKey η} (running : ¬copy.state = .completed) :
    copy.state = .inProgress := by
  cases state : copy.state with
  | inProgress => rfl
  | completed => exact absurd state running

theorem setRow_other {pk : Pk} {rows : Pk → Option (IdempotencyKey η)} (other : pk ≠ k) :
    setRow rows pk row k = rows k :=
  if_neg fun same => other same.symm

variable [DecidableEq η]

theorem decide_found_row (timely : Timely settings k s (.decide i)) {left : Nat} {pk : Pk}
    {copy : IdempotencyKey η}
    (is : s.attempts[i]? = some ⟨pk, call, .found left (some copy)⟩) :
    (s.decide requestHash settings i ⟨pk, call, .found left (some copy)⟩ left (some copy)).rows k =
      s.rows k := by
  unfold Keys.decide
  dsimp only
  split
  next => rfl
  next =>
    split
    next => rfl
    next running =>
      split
      next late =>
        have other : pk ≠ k := by
          intro mine
          have inTime := (timely i left pk call (some copy) rfl is).2 mine copy rfl
            (inProgress_of running)
          omega
        split
        next => exact setRow_other other
        next => rfl
      next => rfl

theorem Inv.decide {left : Nat} {pk : Pk} (inv : Inv requestHash k s)
    (timely : Timely settings k s (.decide i))
    (is : s.attempts[i]? = some ⟨pk, call, .found left row⟩) :
    Inv requestHash k (s.decide requestHash settings i ⟨pk, call, .found left row⟩ left row) := by
  have waits : ∀ {s' : Keys η}, s'.attempts = (s.setPhase i (again left)).attempts →
      s'.rows k = s.rows k → Inv requestHash k s' := by
    intro s' attempts rows
    refine inv.quiet is attempts rows (fun _ => ?_) fun _ held => ?_
    · cases left <;> trivial
    · cases left <;> cases held
  cases row with
  | none =>
    have kept := purged_timely timely is
    unfold Keys.decide
    dsimp only
    split
    next => exact waits rfl rfl
    next free =>
      by_cases mine : pk = k
      · subst mine
        have gone : s.rows pk = none := kept.symm.trans free
        refine inv.settle is rfl rfl (fun current found => ?_) (.inr gone) ?_
        · rw [gone] at found
          cases found
        · exact ⟨_, if_pos rfl, rfl, rfl⟩
      · exact inv.quiet is rfl ((setRow_other mine).trans kept) (fun same => absurd same mine)
          fun same => absurd same mine
  | some copy =>
    unfold Keys.decide
    dsimp only
    split
    next => exact inv.quiet is rfl rfl (fun _ => trivial) fun _ => nofun
    next same =>
      split
      next completed =>
        refine inv.quiet is rfl rfl (fun mine => ?_) fun _ => nofun
        have found : s.rows k = some copy := inv.fits i _ is mine completed
        exact ⟨copy, found, completed, Decidable.not_not.mp same, rfl, rfl⟩
      next running =>
        split
        next late =>
          have notMine : pk ≠ k := by
            intro mine
            have inTime := (timely i left pk call (some copy) rfl is).2 mine copy rfl
              (inProgress_of running)
            omega
          split
          next =>
            exact inv.quiet is rfl (setRow_other notMine) (fun mine => absurd mine notMine)
              fun mine => absurd mine notMine
          next => exact waits rfl rfl
        next => exact inv.quiet is rfl rfl (fun _ => trivial) fun _ => nofun

theorem Inv.step (inv : Inv requestHash k s) (timely : Timely settings k s act)
    (step : Step requestHash settings s act s') : Inv requestHash k s' := by
  cases step.taken with
  | begin pk call =>
    have before : ∀ {i : Nat} {attempt : Attempt η},
        (s.attempts ++ [⟨pk, call, .beginning 1⟩])[i]? = some attempt →
        s.attempts[i]? = some attempt ∨ attempt.phase = .beginning 1 := by
      intro i attempt found
      rcases Nat.lt_or_ge i s.attempts.length with within | beyond
      · rw [List.getElem?_append_left within] at found
        exact .inl found
      · rw [List.getElem?_append_right beyond] at found
        obtain rfl := List.mem_singleton.mp (List.mem_of_getElem? found)
        exact .inr rfl
    refine ⟨fun i attempt found mine => ?_,
      fun i j attempt attempt' found mine found' mine' held held' => ?_⟩
    · rcases before found with old | new
      · exact inv.fits i attempt old mine
      · rw [new]
        trivial
    · rcases before found with old | new
      · rcases before found' with old' | new'
        · exact inv.alone i j attempt attempt' old mine old' mine' held held'
        · rw [new'] at held'
          cases held'
      · rw [new] at held
        cases held
  | @look i left pk call is =>
    refine inv.quiet is rfl rfl (fun mine => ?_) fun _ => nofun
    cases found : s.rows pk with
    | none => trivial
    | some row =>
      intro _
      rw [← mine]
      exact found
  | decide is => exact inv.decide timely is
  | @return_ i pk call status body is => exact inv.quiet is rfl rfl (inv.fits i _ is) fun _ _ => rfl
  | @raise i pk call is => exact inv.quiet is rfl rfl (inv.fits i _ is) fun _ _ => rfl
  | @release i pk call is =>
    by_cases mine : pk = k
    · subst mine
      obtain ⟨current, found, inProgress, -⟩ := inv.fits i _ is rfl
      refine inv.settle is rfl rfl (fun other there => ?_) (.inl rfl) trivial
      obtain rfl := Option.some.inj (found.symm.trans there)
      exact inProgress
    · exact inv.quiet is rfl (setRow_other mine) (fun same => absurd same mine) fun same =>
        absurd same mine
  | @complete i status body pk call is =>
    by_cases mine : pk = k
    · subst mine
      obtain ⟨current, found, inProgress, hash⟩ := inv.fits i _ is rfl
      refine inv.settle is rfl rfl (fun other there => ?_) (.inl rfl) ?_
      · obtain rfl := Option.some.inj (found.symm.trans there)
        exact inProgress
      · refine ⟨{ current with
          state := .completed, responseStatus := some status, responseBody := body }, ?_, rfl, hash,
          rfl, rfl⟩
        change setRow s.rows pk _ pk = _
        rw [setRow, if_pos rfl, found]
        rfl
    · exact inv.quiet is rfl (setRow_other mine) (fun same => absurd same mine) fun same =>
        absurd same mine
  | tick later => exact ⟨inv.fits, inv.alone⟩

theorem Inv.row_kept (inv : Inv requestHash k s) (timely : Timely settings k s act)
    (step : Step requestHash settings s act s') (there : s.attempts[i]? = some attempt)
    (mine : attempt.pk = k) (held : holds attempt.phase = true) (release : act ≠ .release i)
    (complete : act ≠ .complete i) : s'.rows k = s.rows k := by
  obtain ⟨current, found, -⟩ := inv.bound there mine held
  cases step.taken with
  | begin | look | return_ | raise | tick => rfl
  | @decide j left pk call row is =>
    cases row with
    | none =>
      have kept := purged_timely timely is
      unfold Keys.decide
      dsimp only
      split
      next => rfl
      next free =>
        have other : pk ≠ k := by
          rintro rfl
          rw [kept, found] at free
          cases free
        exact (setRow_other other).trans kept
    | some copy => exact decide_found_row timely is
  | @release j pk call is =>
    refine setRow_other ?_
    rintro rfl
    have same := inv.alone j i _ attempt is rfl there mine rfl held
    exact release (by rw [same])
  | @complete j status body pk call is =>
    refine setRow_other ?_
    rintro rfl
    have same := inv.alone j i _ attempt is rfl there mine rfl held
    exact complete (by rw [same])

theorem look_found (step : Step requestHash settings s act s') (looks : act = .look i) :
    ∃ left pk call, s.attempts[i]? = some ⟨pk, call, .beginning left⟩ ∧
      s' = s.setPhase i (.found left (s.rows pk)) := by
  cases step.taken with
  | look is =>
    cases looks
    exact ⟨_, _, _, is, rfl⟩
  | _ => cases looks

theorem decide_attempts (left : Nat) : ∃ phase,
    (s.decide requestHash settings i attempt left row).attempts = (s.setPhase i phase).attempts := by
  unfold Keys.decide
  cases row with
  | none =>
    dsimp only
    split <;> exact ⟨_, rfl⟩
  | some copy =>
    dsimp only
    split
    next => exact ⟨_, rfl⟩
    next =>
      split
      next => exact ⟨_, rfl⟩
      next =>
        split
        next => split <;> exact ⟨_, rfl⟩
        next => exact ⟨_, rfl⟩

theorem found_answered {left : Nat} {copy : IdempotencyKey η} {answer : Answer}
    {trace : List (Runs.Step (Keys η) Act)}
    (decides : ∀ s : Keys η, s.decide requestHash settings i ⟨k, call, .found left (some copy)⟩
      left (some copy) = s.setPhase i (.answered answer))
    (run : Run (Step requestHash settings) s trace s')
    (looked : s.attempts[i]? = some ⟨k, call, .found left (some copy)⟩) :
    ∃ phase, s'.attempts[i]? = some ⟨k, call, phase⟩ ∧
      (phase = .found left (some copy) ∨ phase = .answered answer) := by
  refine run.invariant (fun s => ∃ phase, s.attempts[i]? = some ⟨k, call, phase⟩ ∧
    (phase = .found left (some copy) ∨ phase = .answered answer)) ⟨_, looked, .inl rfl⟩ ?_
  clear looked run
  rintro s act s' ⟨phase, there, known⟩ step
  have idle : ∀ {j : Nat} {pk : Pk} {call' : Call} {phase' : Phase η},
      s.attempts[j]? = some ⟨pk, call', phase'⟩ → (∀ left row, phase' ≠ .found left row) →
      (∀ answer, phase' ≠ .answered answer) → j ≠ i := by
    rintro j pk call' phase' is notFound notAnswered rfl
    cases there.symm.trans is
    rcases known with rfl | rfl
    · exact notFound _ _ rfl
    · exact notAnswered _ rfl
  cases step.taken with
  | begin pk call' =>
    refine ⟨phase, ?_, known⟩
    rw [List.getElem?_append_left (List.getElem?_eq_some_iff.mp there).1]
    exact there
  | look is => exact ⟨phase, setPhase_other (idle is nofun nofun) there, known⟩
  | @decide j left' pk call' row is =>
    by_cases same : j = i
    · subst same
      cases there.symm.trans is
      rcases known with found | answered
      · cases found
        rw [decides]
        exact ⟨_, setPhase_self there, .inr rfl⟩
      · cases answered
    · obtain ⟨phase', attempts⟩ :=
        @decide_attempts η requestHash settings s j ⟨pk, call', .found left' row⟩ row _ left'
      refine ⟨phase, ?_, known⟩
      rw [attempts]
      exact setPhase_other same there
  | return_ _ _ is => exact ⟨phase, setPhase_other (idle is nofun nofun) there, known⟩
  | raise is => exact ⟨phase, setPhase_other (idle is nofun nofun) there, known⟩
  | release is => exact ⟨phase, setPhase_other (idle is nofun nofun) there, known⟩
  | complete is => exact ⟨phase, setPhase_other (idle is nofun nofun) there, known⟩
  | tick => exact ⟨phase, there, known⟩

theorem run_inv {start : Keys η} {trace : List (Runs.Step (Keys η) Act)}
    (empty : start.attempts = []) (run : Run (Step requestHash settings) start trace s)
    (timely : ∀ t ∈ trace, Timely settings k t.before t.label) : Inv requestHash k s :=
  run.invariant_of_guarded (Inv requestHash k) (Timely settings k) (inv_fresh empty)
    (fun _ _ _ inv timely step => inv.step timely step) timely

end Changes

/-- The request at a place has the answer, or has yet to read it off the row it found. -/
def Gets (s : Keys η) (i : Nat) (answer : Answer) : Prop :=
  ∃ attempt, s.attempts[i]? = some attempt ∧
    (attempt.phase = .answered answer ∨ ∃ left row, attempt.phase = .found left (some row))

section Runs

variable [DecidableEq η] {requestHash settings} {start s : Keys η}
  {trace : List (Runs.Step (Keys η) Act)}

end Runs

section Examples

def postJob : Call := ⟨"POST", "/config-jobs", .null⟩

def jobKey : Pk := ⟨"ran-nf-oam", "rapp-1", "key-1"⟩

def otherKey : Pk := ⟨"ran-nf-oam", "rapp-1", "key-2"⟩

def methodAndPath (call : Call) : String × String := (call.method, call.path)

def noKeys {η : Type} : Keys η where
  now := 0

section Acts

variable {η : Type} [DecidableEq η] (requestHash : Call → η)

def next (s : Keys η) (act : Act) : Keys η := (s.act requestHash {} act).getD s

def enabled (s : Keys η) (acts : List Act) : Bool :=
  (stepsOf (next requestHash) s acts).all fun t => (t.before.act requestHash {} t.label).isSome

theorem next_taken {s : Keys η} {acts : List Act} {t : Runs.Step (Keys η) Act}
    (mem : t ∈ stepsOf (next requestHash) s acts) : t.after = next requestHash t.before t.label := by
  induction acts generalizing s with
  | nil => cases mem
  | cons act rest ih =>
    rcases List.mem_cons.mp mem with rfl | later
    · rfl
    · exact ih later

theorem run_acts {s : Keys η} {acts : List Act} (ok : enabled requestHash s acts = true) :
    Run (Step requestHash {}) s (stepsOf (next requestHash) s acts)
      (acts.foldl (next requestHash) s) := by
  refine run_of_taken .refl fun t mem => ?_
  obtain ⟨s', taken⟩ := Option.isSome_iff_exists.mp (List.all_eq_true.mp ok t mem)
  rw [next_taken requestHash mem, next, taken]
  exact taken

end Acts

def oneRepeat : List Act := [
  .begin jobKey postJob, .look 0, .decide 0, .return_ 0 202 .null, .complete 0,
  .begin jobKey postJob, .look 1]

def StoredTwice {η : Type} (s : Keys η) : Prop :=
  ∃ (i j status status' : Nat) (body body' : Json.Value), i ≠ j ∧
    s.attempts[i]? = some ⟨jobKey, postJob, .answered (.ran status body)⟩ ∧
    s.attempts[j]? = some ⟨jobKey, postJob, .answered (.ran status' body')⟩

/-- The first request runs for more than five minutes, and another takes its reservation. -/
def slowRun : List Act := [
  .begin jobKey postJob, .look 0, .decide 0, .tick 300000001, .begin jobKey postJob, .look 1,
  .decide 1, .return_ 0 202 .null, .return_ 1 202 .null, .complete 0, .complete 1]

def expiredRepeat : List Act := [
  .begin jobKey postJob, .look 0, .decide 0, .return_ 0 202 .null, .complete 0,
  .tick 86400000001, .begin otherKey postJob, .look 1, .decide 1, .begin jobKey postJob, .look 2,
  .decide 2, .return_ 2 202 .null, .complete 2]

end Examples

end Keys

end Smo.Idempotency
