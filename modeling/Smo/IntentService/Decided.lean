import Smo.IntentService.Dispatches
import Smo.Lib.Runs

/-! The operator's answers to autonomy dispatches, each a transaction of its own at READ
COMMITTED: a request reads the row of its dispatch, a resolve makes its intent, and what it
writes is committed at its end whatever the row has become. -/
namespace Smo.IntentService

open Json (Text Value)
open Runs

inductive Answer where
  | resolve (regionScope : RegionScope)
  | reject (rejectedBy : String) (reason : Option String)

inductive Phase where
  | started
  | loaded (row : AutonomyDispatch)
  | created (rows : Intent × IntentReport)
  | ended

def Phase.past : Phase → Bool
  | .loaded _ | .created _ => true
  | _ => false

structure OperatorRequest where
  dispatchId : Nat
  answer : Answer
  phase : Phase

/-- The committed rows and the requests; `made` is which intent was made from which dispatch. -/
structure Desk where
  db : Db
  nextId : Nat
  requests : List OperatorRequest := []
  made : List (Nat × Nat) := []

inductive Act where
  | dispatch (inst : RAppInstance) (body : CreateAutonomyDispatchRequest)
  | intent (body : CreateIntentRequest)
  | begin (dispatchId : Nat) (answer : Answer)
  | load (i : Nat)
  | create (i : Nat)
  | commit (i : Nat)
  | fail (i : Nat)

namespace Desk

variable (repr : Value → Text) (families : Families)

def setPhase (s : Desk) (i : Nat) (phase : Phase) : Desk :=
  { s with requests := s.requests.modify i fun request => { request with phase } }

/-- A step. A request fails at any point without a commit, so also where its answer is an
error. -/
def act (s : Desk) : Act → Option Desk
  | .dispatch inst body =>
    match requestAutonomyDispatch repr families s.db s.nextId (some inst) body with
    | .ok db => some { s with
        db
        nextId := s.nextId + 1
        made := if inst.autonomyMode = "AUTONOMOUS" then s.made ++ [(s.nextId, s.nextId)] else s.made }
    | .error _ => none
  | .intent body =>
    match createIntent s.db s.nextId body with
    | .ok db => some { s with db, nextId := s.nextId + 1 }
    | .error _ => none
  | .begin dispatchId answer =>
    some { s with requests := s.requests ++ [⟨dispatchId, answer, .started⟩] }
  | .load i =>
    match s.requests[i]? with
    | some ⟨dispatchId, _, .started⟩ =>
      match awaitingDispatch s.db dispatchId "answer" with
      | .ok row => some (s.setPhase i (.loaded row))
      | .error _ => some (s.setPhase i .ended)
    | _ => none
  | .create i =>
    match s.requests[i]? with
    | some ⟨_, .resolve regionScope, .loaded row⟩ =>
      match resolvedIntent repr families s.db s.nextId row regionScope with
      | .ok rows => some { s.setPhase i (.created rows) with nextId := s.nextId + 1 }
      | .error _ => some (s.setPhase i .ended)
    | _ => none
  | .commit i =>
    match s.requests[i]? with
    | some ⟨dispatchId, .resolve regionScope, .created rows⟩ =>
      some { s.setPhase i .ended with
        db := commitResolved s.db dispatchId regionScope rows
        made := s.made ++ [(dispatchId, rows.1.intentId)] }
    | some ⟨dispatchId, .reject rejectedBy reason, .loaded _⟩ =>
      some { s.setPhase i .ended with db := commitRejected s.db dispatchId rejectedBy reason }
    | _ => none
  | .fail i => some (s.setPhase i .ended)

def Step (s : Desk) (act : Act) (s' : Desk) : Prop := s.act repr families act = some s'

inductive Taken : Desk → Act → Desk → Prop
  | dispatch {s : Desk} {inst : RAppInstance} {body : CreateAutonomyDispatchRequest} {db : Db}
      (ok : requestAutonomyDispatch repr families s.db s.nextId (some inst) body = .ok db) :
      Taken s (.dispatch inst body) { s with
        db
        nextId := s.nextId + 1
        made := if inst.autonomyMode = "AUTONOMOUS" then s.made ++ [(s.nextId, s.nextId)] else s.made }
  | intent {s : Desk} {body : CreateIntentRequest} {rows : Intent × IntentReport}
      (ok : createIntentRow s.db s.nextId body = .ok rows) :
      Taken s (.intent body) { s with db := s.db.insert rows, nextId := s.nextId + 1 }
  | begin {s : Desk} (dispatchId : Nat) (answer : Answer) :
      Taken s (.begin dispatchId answer)
        { s with requests := s.requests ++ [⟨dispatchId, answer, .started⟩] }
  | load {s : Desk} {i dispatchId : Nat} {answer : Answer} {row : AutonomyDispatch}
      (is : s.requests[i]? = some ⟨dispatchId, answer, .started⟩)
      (found : s.db.dispatch dispatchId = some row) :
      Taken s (.load i) (s.setPhase i (.loaded row))
  | create {s : Desk} {i dispatchId : Nat} {regionScope : RegionScope} {row : AutonomyDispatch}
      {rows : Intent × IntentReport}
      (is : s.requests[i]? = some ⟨dispatchId, .resolve regionScope, .loaded row⟩) :
      Taken s (.create i) { s.setPhase i (.created rows) with nextId := s.nextId + 1 }
  | resolve {s : Desk} {i dispatchId : Nat} {regionScope : RegionScope} {rows : Intent × IntentReport}
      (is : s.requests[i]? = some ⟨dispatchId, .resolve regionScope, .created rows⟩) :
      Taken s (.commit i) { s.setPhase i .ended with
        db := commitResolved s.db dispatchId regionScope rows
        made := s.made ++ [(dispatchId, rows.1.intentId)] }
  | reject {s : Desk} {i dispatchId : Nat} {rejectedBy : String} {reason : Option String}
      {row : AutonomyDispatch}
      (is : s.requests[i]? = some ⟨dispatchId, .reject rejectedBy reason, .loaded row⟩) :
      Taken s (.commit i) { s.setPhase i .ended with
        db := commitRejected s.db dispatchId rejectedBy reason }
  | ended {s : Desk} {act : Act} (i : Nat) (not : ∀ j, act ≠ .commit j) :
      Taken s act (s.setPhase i .ended)

theorem awaitingDispatch_ok {db : Db} {dispatchId : Nat} {answer : String} {row : AutonomyDispatch}
    (ok : awaitingDispatch db dispatchId answer = .ok row) :
    db.dispatch dispatchId = some row ∧ row.status = .awaitingScope := by
  unfold awaitingDispatch at ok
  cases found : db.dispatch dispatchId with
  | none => simp [found, refuse] at ok
  | some dispatch =>
    simp only [found, refuse] at ok
    split at ok
    next => cases ok
    next awaits =>
      cases ok
      exact ⟨rfl, not_not.mp awaits⟩

theorem Step.taken {repr : Value → Text} {families : Families} {s s' : Desk} {act : Act}
    (step : Step repr families s act s') : Taken repr families s act s' := by
  unfold Step at step
  cases act with
  | dispatch inst body =>
    simp only [Desk.act] at step
    split at step
    next ok =>
      cases step
      exact .dispatch ok
    next => cases step
  | intent body =>
    simp only [Desk.act] at step
    split at step
    next ok =>
      cases step
      obtain ⟨rows, created, rfl⟩ := map_ok ok
      exact .intent created
    next => cases step
  | begin dispatchId answer =>
    cases step
    exact .begin dispatchId answer
  | load i =>
    simp only [Desk.act] at step
    split at step
    next is =>
      split at step
      next ok =>
        cases step
        exact .load is (awaitingDispatch_ok ok).1
      next =>
        cases step
        exact .ended i nofun
    next => cases step
  | create i =>
    simp only [Desk.act] at step
    split at step
    next is =>
      split at step
      next =>
        cases step
        exact .create is
      next =>
        cases step
        exact .ended i nofun
    next => cases step
  | commit i =>
    simp only [Desk.act] at step
    split at step
    next is =>
      cases step
      exact .resolve is
    next is =>
      cases step
      exact .reject is
    next => cases step
  | fail i =>
    cases step
    exact .ended i nofun

def madeFrom (s : Desk) (dispatchId : Nat) : List Nat :=
  (s.made.filter (·.1 = dispatchId)).map (·.2)

/-- A commit finds the row of its dispatch as it was read: still waiting for its scope. -/
def awaited (s : Desk) : Act → Bool
  | .commit i => s.requests[i]?.all fun request =>
    (s.db.dispatch request.dispatchId).all (·.status = .awaitingScope)
  | _ => true

theorem awaits_of_awaited {s : Desk} {i : Nat} {request : OperatorRequest} {row : AutonomyDispatch}
    (awaited : s.awaited (.commit i) = true) (is : s.requests[i]? = some request)
    (found : s.db.dispatch request.dispatchId = some row) : row.status = .awaitingScope := by
  simpa [Desk.awaited, is, found] using awaited

def Settled (row : AutonomyDispatch) (made : List Nat) : Prop :=
  match row.status with
  | .dispatched => ∃ i, row.intentId = some i ∧ made = [i]
  | _ => made = []

structure Inv (s : Desk) : Prop where
  dated : ∀ d ∈ s.db.dispatches, d.dispatchId < s.nextId
  present : ∀ request ∈ s.requests, request.phase.past = true →
    ∃ row, s.db.dispatch request.dispatchId = some row
  settled : ∀ d row, s.db.dispatch d = some row → Settled row (s.madeFrom d)
  unmade : ∀ d, s.db.dispatch d = none → s.madeFrom d = []

section Rows

variable {db db' : Db} {d e : Nat}

theorem dispatch_update (change : AutonomyDispatch → AutonomyDispatch)
    (keeps : ∀ row, (change row).dispatchId = row.dispatchId) :
    (db.updateDispatch d change).dispatch e =
      if d = e then (db.dispatch e).map change else db.dispatch e := by
  have same : ((fun row : AutonomyDispatch => decide (row.dispatchId = e)) ∘ fun row =>
      if row.dispatchId = d then change row else row) = fun row => decide (row.dispatchId = e) := by
    funext row
    simp only [Function.comp]
    split <;> simp [keeps]
  simp only [Db.updateDispatch, Db.dispatch, List.find?_map, same]
  cases found : db.dispatches.find? (·.dispatchId = e) with
  | none => simp
  | some row =>
    have is : row.dispatchId = e := by simpa using List.find?_some found
    by_cases mine : d = e
    · simp [is, mine]
    · simp [is, mine, Ne.symm mine]

theorem dispatch_append {new : AutonomyDispatch} (rows : db'.dispatches = db.dispatches ++ [new]) :
    db'.dispatch e = (db.dispatch e).or (if new.dispatchId = e then some new else none) := by
  rw [Db.dispatch, rows, List.find?_append, Db.dispatch]
  congr 1
  simp [List.find?_cons]
  split <;> simp_all

theorem requested {repr : Value → Text} {families : Families} {uuid : Nat} {inst : RAppInstance}
    {body : CreateAutonomyDispatchRequest}
    (ok : requestAutonomyDispatch repr families db uuid (some inst) body = .ok db') :
    ∃ new, db'.dispatches = db.dispatches ++ [new] ∧ new.dispatchId = uuid ∧
      Settled new (if inst.autonomyMode = "AUTONOMOUS" then [uuid] else []) := by
  unfold requestAutonomyDispatch at ok
  simp only at ok
  split at ok
  next => cases ok
  next fn _ =>
    obtain ⟨_, _, ok⟩ := bind_ok ok
    split at ok
    next autonomous =>
      obtain ⟨request, _, ok⟩ := bind_ok ok
      obtain ⟨rows, _, ok⟩ := bind_ok ok
      cases ok
      exact ⟨_, rfl, rfl, by simp [Settled, autonomous]⟩
    next other =>
      split at ok <;> cases ok <;> exact ⟨_, rfl, rfl, by simp [Settled, other]⟩

end Rows

section Steps

variable {repr : Value → Text} {families : Families} {s s' : Desk} {act : Act} {i d : Nat}
  {request : OperatorRequest} {phase : Phase}

theorem setPhase_mem (mem : request ∈ (s.setPhase i phase).requests) :
    request ∈ s.requests ∨ ∃ old, s.requests[i]? = some old ∧ request = { old with phase } := by
  obtain ⟨j, found⟩ := List.mem_iff_getElem?.mp mem
  rw [setPhase, List.getElem?_modify, Option.map_eq_map, Option.map_eq_some_iff] at found
  obtain ⟨old, there, rfl⟩ := found
  split
  next same => exact .inr ⟨old, same ▸ there, rfl⟩
  next => exact .inl (List.mem_of_getElem? there)

theorem madeFrom_append (pair : Nat × Nat) (now : s'.made = s.made ++ [pair]) :
    s'.madeFrom d = s.madeFrom d ++ if pair.1 = d then [pair.2] else [] := by
  simp only [madeFrom, now, List.filter_append, List.map_append]
  by_cases mine : pair.1 = d <;> simp [mine]

theorem Inv.quiet (inv : Inv s) (dispatches : s'.db.dispatches = s.db.dispatches)
    (made : s'.made = s.made) (later : s.nextId ≤ s'.nextId)
    (present : ∀ request ∈ s'.requests, request.phase.past = true → request ∈ s.requests ∨
      ∃ row, s.db.dispatch request.dispatchId = some row) : Inv s' := by
  have same : ∀ d, s'.db.dispatch d = s.db.dispatch d := fun d => by rw [Db.dispatch, dispatches]; rfl
  have from_ : ∀ d, s'.madeFrom d = s.madeFrom d := fun d => by rw [madeFrom, made]; rfl
  refine ⟨fun d mem => ?_, fun request mem past => ?_, fun d row found => ?_, fun d absent => ?_⟩
  · rw [dispatches] at mem
    exact lt_of_lt_of_le (inv.dated d mem) later
  · rw [same]
    rcases present request mem past with before | found
    · exact inv.present request before past
    · exact found
  · rw [from_]
    exact inv.settled d row (same d ▸ found)
  · rw [from_]
    exact inv.unmade d (same d ▸ absent)

theorem Inv.setPhase (inv : Inv s) (phase : Phase)
    (present : ∀ old, s.requests[i]? = some old → phase.past = true →
      ∃ row, s.db.dispatch old.dispatchId = some row) : Inv (s.setPhase i phase) := by
  refine inv.quiet rfl rfl le_rfl fun request mem past => ?_
  rcases setPhase_mem mem with before | ⟨old, there, rfl⟩
  · exact .inl before
  · exact .inr (present old there past)

theorem Inv.ended (inv : Inv s) (i : Nat) : Inv (s.setPhase i .ended) :=
  inv.setPhase .ended fun _ _ past => by cases past

theorem Inv.settle (change : AutonomyDispatch → AutonomyDispatch) {row : AutonomyDispatch}
    {new : List Nat} (inv : Inv s) (found : s.db.dispatch d = some row)
    (awaits : row.status = .awaitingScope)
    (keeps : ∀ row, (change row).dispatchId = row.dispatchId)
    (dispatches : s'.db.dispatches = (s.db.updateDispatch d change).dispatches)
    (made : ∀ e, s'.madeFrom e = s.madeFrom e ++ if d = e then new else [])
    (requests : s'.requests = (s.setPhase i .ended).requests) (later : s.nextId ≤ s'.nextId)
    (settled : Settled (change row) new) : Inv s' := by
  have now : ∀ e, s'.db.dispatch e =
      if d = e then (s.db.dispatch e).map change else s.db.dispatch e := by
    intro e
    rw [← dispatch_update change keeps, Db.dispatch, Db.dispatch, dispatches]
  have unmade : s.madeFrom d = [] := by
    have before := inv.settled d row found
    rwa [Settled, awaits] at before
  refine ⟨fun e mem => ?_, fun request mem past => ?_, fun e row' found' => ?_, fun e absent => ?_⟩
  · rw [dispatches] at mem
    obtain ⟨old, there, rfl⟩ := List.mem_map.mp mem
    have dated := inv.dated old there
    split
    · rw [keeps]
      omega
    · omega
  · rw [requests] at mem
    obtain ⟨old, there⟩ := (inv.ended i).present request mem past
    have there : s.db.dispatch request.dispatchId = some old := there
    rw [now, there]
    split
    · exact ⟨change old, rfl⟩
    · exact ⟨old, rfl⟩
  · rw [now] at found'
    rw [made]
    split at found'
    next mine =>
      subst mine
      rw [found] at found'
      cases found'
      rwa [unmade, if_pos rfl, List.nil_append]
    next other =>
      rw [if_neg other, List.append_nil]
      exact inv.settled e row' found'
  · rw [now] at absent
    rw [made]
    split at absent
    next mine =>
      subst mine
      rw [found] at absent
      cases absent
    next other =>
      rw [if_neg other, List.append_nil]
      exact inv.unmade e absent

theorem Inv.added {new : AutonomyDispatch} {made : List Nat} (inv : Inv s)
    (dispatches : s'.db.dispatches = s.db.dispatches ++ [new]) (id : new.dispatchId = s.nextId)
    (settled : Settled new made) (requests : s'.requests = s.requests)
    (later : s'.nextId = s.nextId + 1)
    (from_ : ∀ e, s'.madeFrom e = s.madeFrom e ++ if s.nextId = e then made else []) : Inv s' := by
  have now : ∀ e, s'.db.dispatch e =
      (s.db.dispatch e).or (if s.nextId = e then some new else none) := fun e =>
    id ▸ dispatch_append dispatches
  have free : s.db.dispatch s.nextId = none := by
    rw [Db.dispatch, List.find?_eq_none]
    intro row mem
    have := inv.dated row mem
    simp only [decide_eq_true_eq]
    omega
  refine ⟨fun e mem => ?_, fun request mem past => ?_, fun e row found => ?_, fun e absent => ?_⟩
  · rw [dispatches] at mem
    rcases List.mem_append.mp mem with before | last
    · have := inv.dated e before
      omega
    · obtain rfl := List.mem_singleton.mp last
      omega
  · rw [requests] at mem
    obtain ⟨row, found⟩ := inv.present request mem past
    exact ⟨row, by rw [now, found]; rfl⟩
  · rw [now] at found
    rw [from_]
    by_cases mine : s.nextId = e
    · subst mine
      rw [free, if_pos rfl] at found
      cases found
      rwa [if_pos rfl, inv.unmade _ free, List.nil_append]
    · rw [if_neg mine, Option.or_none] at found
      rw [if_neg mine, List.append_nil]
      exact inv.settled e row found
  · rw [now] at absent
    rw [from_]
    by_cases mine : s.nextId = e
    · rw [if_pos mine, Option.or_eq_none_iff] at absent
      cases absent.2
    · rw [if_neg mine, Option.or_none] at absent
      rw [if_neg mine, List.append_nil]
      exact inv.unmade e absent

theorem Inv.step (inv : Inv s) (awaited : s.awaited act = true) (taken : Taken repr families s act s') :
    Inv s' := by
  cases taken with
  | @dispatch inst body db ok =>
    obtain ⟨new, rows, id, settled⟩ := requested ok
    exact inv.added rows id settled rfl rfl (by
      intro e
      by_cases autonomous : inst.autonomyMode = "AUTONOMOUS"
      · simpa [autonomous] using madeFrom_append (d := e) (s.nextId, s.nextId) rfl
      · simp [madeFrom, autonomous])
  | intent ok => exact inv.quiet rfl rfl (Nat.le_succ _) fun _ mem _ => .inl mem
  | begin dispatchId answer =>
    refine inv.quiet rfl rfl le_rfl fun request mem past => ?_
    rcases List.mem_append.mp mem with before | new
    · exact .inl before
    · cases List.mem_singleton.mp new
      cases past
  | load is found =>
    refine inv.setPhase _ fun old there _ => ?_
    cases is.symm.trans there
    exact ⟨_, found⟩
  | @create i dispatchId regionScope row rows is =>
    have created : Inv (s.setPhase i (.created rows)) := inv.setPhase _ fun old there _ => by
      cases is.symm.trans there
      exact inv.present _ (List.mem_of_getElem? is) rfl
    exact created.quiet rfl rfl (Nat.le_succ _) fun _ mem _ => .inl mem
  | @resolve i dispatchId regionScope rows is =>
    obtain ⟨row, found⟩ := inv.present _ (List.mem_of_getElem? is) rfl
    exact inv.settle (.resolved regionScope rows.1.intentId) found (awaits_of_awaited awaited is found)
      (fun _ => rfl) rfl (fun _ => madeFrom_append (dispatchId, rows.1.intentId) rfl) rfl le_rfl
      ⟨_, rfl, rfl⟩
  | @reject i dispatchId rejectedBy reason row is =>
    obtain ⟨row, found⟩ := inv.present _ (List.mem_of_getElem? is) rfl
    have unchanged : ∀ e, s.madeFrom e = s.madeFrom e ++ if dispatchId = e then [] else [] := by
      simp
    exact inv.settle (.rejected rejectedBy reason) found (awaits_of_awaited awaited is found)
      (fun _ => rfl) rfl unchanged rfl le_rfl rfl
  | ended i => exact inv.ended i

theorem status_kept {row : AutonomyDispatch} (inv : Inv s) (awaited : s.awaited act = true)
    (taken : Taken repr families s act s') (found : s.db.dispatch d = some row)
    (decided : row.status ≠ .awaitingScope) :
    ∃ row', s'.db.dispatch d = some row' ∧ row'.status = row.status := by
  have other : ∀ {i e : Nat} {answer : Answer} {phase : Phase}, act = .commit i →
      s.requests[i]? = some ⟨e, answer, phase⟩ → e ≠ d := by
    rintro i e answer phase rfl is rfl
    exact decided (awaits_of_awaited awaited is found)
  cases taken with
  | dispatch ok =>
    obtain ⟨new, rows, -, -⟩ := requested ok
    exact ⟨row, by rw [dispatch_append rows, found]; rfl, rfl⟩
  | @resolve i e regionScope rows is =>
    have now : (commitResolved s.db e regionScope rows).dispatch d = s.db.dispatch d :=
      (dispatch_update (.resolved regionScope rows.1.intentId) fun _ => rfl).trans
        (if_neg (other rfl is))
    exact ⟨row, now.trans found, rfl⟩
  | @reject i e rejectedBy reason _ is =>
    have now : (commitRejected s.db e rejectedBy reason).dispatch d = s.db.dispatch d :=
      (dispatch_update (.rejected rejectedBy reason) fun _ => rfl).trans (if_neg (other rfl is))
    exact ⟨row, now.trans found, rfl⟩
  | _ => exact ⟨row, found, rfl⟩

end Steps

structure Opens (s : Desk) : Prop where
  requests : s.requests = []
  dispatches : s.db.dispatches = []
  made : s.made = []

section Runs

variable {repr : Value → Text} {families : Families} {start s : Desk} {trace : List (Runs.Step Desk Act)}

theorem Opens.inv (opens : Opens start) : Inv start := by
  have none : ∀ d, start.db.dispatch d = none := fun d => by rw [Db.dispatch, opens.dispatches]; rfl
  refine ⟨fun d mem => ?_, fun request mem => ?_, fun d row found => ?_, fun d _ => ?_⟩
  · rw [opens.dispatches] at mem
    cases mem
  · rw [opens.requests] at mem
    cases mem
  · rw [none] at found
    cases found
  · rw [madeFrom, opens.made]
    rfl

theorem run_inv (run : Run (Step repr families) start trace s) (init : Inv start)
    (awaited : ∀ t ∈ trace, t.before.awaited t.label = true) : Inv s :=
  run.invariant_of_guarded Inv (·.awaited · = true) init (fun _ _ _ inv awaited step => inv.step awaited step.taken)
    awaited

theorem run_status {d : Nat} {row : AutonomyDispatch} (run : Run (Step repr families) start trace s)
    (init : Inv start) (awaited : ∀ t ∈ trace, t.before.awaited t.label = true)
    (found : start.db.dispatch d = some row) (decided : row.status ≠ .awaitingScope) :
    ∃ row', s.db.dispatch d = some row' ∧ row'.status = row.status := by
  have both := run.invariant_of_guarded
    (fun s => Inv s ∧ ∃ row', s.db.dispatch d = some row' ∧ row'.status = row.status) (·.awaited · = true)
    ⟨init, row, found, rfl⟩
    (fun s act s' held awaited step => by
      obtain ⟨inv, row', found, same⟩ := held
      obtain ⟨row'', found', same'⟩ := status_kept inv awaited step.taken found (same ▸ decided)
      exact ⟨inv.step awaited step.taken, row'', found', same'.trans same⟩) awaited
  exact both.2

/-- In a run whose commits all find their dispatch still waiting, at most one intent is made
from a dispatch: none while it waits and none once it has been committed REJECTED or SHADOWED,
and the one that its row names when it is DISPATCHED. -/
theorem dispatches_decided_once (opens : Opens start)
    (run : Run (Step repr families) start trace s)
    (awaited : ∀ t ∈ trace, t.before.awaited t.label = true) (d : Nat) :
    (s.madeFrom d).length ≤ 1 ∧
    (∀ t ∈ trace, ∀ row, t.after.db.dispatch d = some row →
      row.status = .rejected ∨ row.status = .shadowed → s.madeFrom d = []) ∧
    (∀ row, s.db.dispatch d = some row → row.status = .dispatched →
      ∃ i, row.intentId = some i ∧ s.madeFrom d = [i]) := by
  have inv := run_inv run opens.inv awaited
  refine ⟨?_, fun t mem row found closed => ?_, fun row found dispatched => ?_⟩
  · cases found : s.db.dispatch d with
    | none => simp [inv.unmade d found]
    | some row =>
      have settled := inv.settled d row found
      unfold Settled at settled
      split at settled
      · obtain ⟨i, -, one⟩ := settled
        simp [one]
      · simp [settled]
  · obtain ⟨earlier, later, rfl⟩ := List.append_of_mem mem
    obtain ⟨before, step⟩ := run.split rfl
    have inv' := (run_inv before opens.inv fun t mem => awaited t (by simp [mem])).step
      (awaited t (by simp)) step.taken
    have rest := run.rest rfl
    obtain ⟨row', found', same⟩ := run_status rest inv' (fun t mem => awaited t (by simp [mem])) found
      (by rcases closed with is | is <;> simp [is])
    have settled := inv.settled d row' found'
    rcases closed with is | is <;> simpa [Settled, same, is] using settled
  · have settled := inv.settled d row found
    simpa [Settled, dispatched] using settled

section Examples

def energySaving : IntentExpectation Text where
  expectationId := text "e1"
  expectationObject := { objectInstance := some (text "ManagedElement=du-1") }
  expectationTargets := [
    { targetName := text "cellState", targetCondition := .isEqualTo
      targetValueRange := some (.str (text "SLEEP")) }]

def openDesk : Desk where
  db := { functions := [{ rmihId := "energy", intentHandlingCapabilityList := [] }] }
  nextId := 0

def assisted : Act :=
  .dispatch { autonomyMode := "ASSIST" }
    { instanceId := "rapp-1", expectations := [energySaving], rmihId := "energy" }

abbrev plainAct : Desk → Act → Option Desk := Desk.act (fun _ => []) plainFamilies

/-- Two operators answer one after the other; the second is told that it is too late. -/
def inTurn : List Act := [
  assisted, .begin 0 (.resolve []), .load 0, .create 0, .commit 0,
  .begin 0 (.reject "operator" none), .load 1]

theorem answered_in_turn : ∃ trace s,
    Run (Step (fun _ => []) plainFamilies) openDesk trace s ∧ (s.madeFrom 0).length ≤ 1 := by
  have run := @run_enabled _ _ openDesk plainAct inTurn rfl
  have all : (stepsOf (nextOf plainAct) openDesk inTurn).all
      (fun t => t.before.awaited t.label) = true := rfl
  exact ⟨_, _, run, (dispatches_decided_once ⟨rfl, rfl, rfl⟩ run (List.all_eq_true.mp all) 0).1⟩

def overlapping : List Act := [
  assisted, .begin 0 (.resolve []), .begin 0 (.resolve []), .begin 0 (.reject "operator" none),
  .load 0, .load 1, .load 2, .create 0, .commit 0, .create 1, .commit 1, .commit 2]

/-- Two intents are made from one dispatch, and it is REJECTED in the end. -/
theorem dispatch_decided_thrice : ∃ trace s row,
    Run (Step (fun _ => []) plainFamilies) openDesk trace s ∧ Opens openDesk ∧
    (s.madeFrom 0).length = 2 ∧ s.db.dispatch 0 = some row ∧ row.status = .rejected :=
  ⟨_, _, _, @run_enabled _ _ openDesk plainAct overlapping rfl,
    ⟨rfl, rfl, rfl⟩, rfl, rfl, rfl⟩

end Examples

end Runs

end Desk
end Smo.IntentService
