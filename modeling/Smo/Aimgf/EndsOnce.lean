import Smo.Aimgf.Races
import Smo.Lib.Runs
import Smo.Lib.Table

/-! An execution run ends once, as long as no transaction writes a run's row on an outdated reading
that the version of the lifecycle row does not reveal. -/
namespace Smo.Aimgf.Races

open Versioned (Row Holds Later)

section Rows

variable {kind : RunKind} {succeeded : Bool} {event : ModelLifecycleEvent}
  {row next later : ModelLifecycle}

/-- No end of a run names a model's current run anew, or brings the model into a stage. -/
def Left (row next : ModelLifecycle) : Prop :=
  next.trainingJobId = row.trainingJobId ∧
    (next.modelLifecycleState = row.modelLifecycleState ∨
      ∀ kind : RunKind, kind.stage ≠ some next.modelLifecycleState)

theorem Left.refl : Left row row := ⟨rfl, .inl rfl⟩

theorem Left.trans (first : Left row next) (second : Left next later) : Left row later := by
  refine ⟨second.1.trans first.1, ?_⟩
  rcases second.2 with same | off
  · exact first.2.imp same.trans fun off kind => same ▸ off kind
  · exact .inr off

theorem Left.stage (left : Left row next) (is : kind.stage = some next.modelLifecycleState) :
    kind.stage = some row.modelLifecycleState := by
  rcases left.2 with same | off
  · exact same ▸ is
  · exact absurd is (off kind)

theorem end_of_run : ∀ edge ∈ modelLifecycleFsm.transitions,
    ∀ kind ∈ [RunKind.training, .validation, .emulation], ∀ succeeded : Bool,
      kind.event succeeded = some edge.event → kind.stage = some edge.fromState ∧
        edge.toState ∉ [ModelLifecycleState.training, .validating, .emulating] := by
  decide

theorem fireModel_end (is : kind.event succeeded = some event) (fired : row.fireModel event = .ok next) :
    kind.stage = some row.modelLifecycleState ∧ next.trainingJobId = row.trainingJobId ∧
      ∀ other : RunKind, other.stage ≠ some next.modelLifecycleState := by
  have staged : kind ∈ [RunKind.training, .validation, .emulation] := by
    cases kind <;> first | decide | cases is
  unfold ModelLifecycle.fireModel at fired
  split at fired
  · cases fired
  · next state fires =>
    cases fired
    obtain ⟨stage, off⟩ := end_of_run _ (edge_of_fire fires) kind staged succeeded is
    have lifecycle : ({ row with modelLifecycleState := state }.flagged event) =
        { row with modelLifecycleState := state } := by
      cases kind <;> cases succeeded <;> cases is <;> rfl
    rw [lifecycle]
    refine ⟨stage, rfl, fun other named => off ?_⟩
    cases other <;> cases named <;> simp

theorem fireModel_legal (is : kind.event succeeded = some event)
    (stage : kind.stage = some row.modelLifecycleState) : ∃ next, row.fireModel event = .ok next := by
  unfold ModelLifecycle.fireModel
  cases kind <;> cases succeeded <;> cases is <;> rw [← Option.some.inj stage] <;> exact ⟨_, rfl⟩

end Rows

section Tasks

variable {accepts : Str → Bool} {w w' : Work} {id other : RunId} {run next : ExecutionRun} {task : Task}

def ExecutionRun.Same (next run : ExecutionRun) : Prop :=
  next.kind = run.kind ∧ next.modelId = run.modelId ∧ next.notificationUri = run.notificationUri

/-- The run's end leaves its model out of the run's stage, unless the model's current run is another. -/
def Off (id : RunId) (run : ExecutionRun) (rows rows' : ModelId → ModelLifecycle) : Prop :=
  ∀ m, run.modelId = some m → (run.kind = .training → (rows m).trainingJobId = some id) →
    run.kind.stage ≠ some (rows' m).modelLifecycleState

inductive Outcome (accepts : Str → Bool) (w : Work) (id : RunId) : Work → Prop
  | same : Outcome accepts w id w
  | pause (run next : ExecutionRun) (found : w.runs id = some run) (live : run.status.live = true)
      (lives : next.status.live = true) (same : next.Same run) :
      Outcome accepts w id (w.setRun id next)
  | ends (run : ExecutionRun) (task : Task) (rows : ModelId → ModelLifecycle)
      (found : w.runs id = some run) (live : run.status.live = true)
      (left : ∀ m, Left (w.rows m) (rows m)) (off : Off id run w.rows rows) :
      Outcome accepts w id { w.endRun accepts id run task with rows }

theorem fire_end {m : ModelId} {succeeded : Bool} {event : ModelLifecycleEvent}
    (its : run.modelId = some m) (is : run.kind.event succeeded = some event)
    (fired : w.fire m event = .ok w') : ∃ rows, w' = { w with rows } ∧
      (∀ m, Left (w.rows m) (rows m)) ∧ Off id run w.rows rows := by
  obtain ⟨row, fires, made⟩ := bind_ok fired
  cases made
  obtain ⟨-, current, off⟩ := fireModel_end is fires
  refine ⟨_, rfl, fun other => ?_, fun other named _ => ?_⟩
  · by_cases mine : other = m
    · subst mine
      rw [Function.update_self]
      exact ⟨current, .inr off⟩
    · rw [Function.update_of_ne mine]
      exact .refl
  · cases its.symm.trans named
    rw [Function.update_self]
    exact off _

theorem fireEnd_ends (id : RunId) {succeeded : Bool} (fired : w.fireEnd run succeeded = .ok w') :
    ∃ rows, w' = { w with rows } ∧ (∀ m, Left (w.rows m) (rows m)) ∧ Off id run w.rows rows := by
  unfold Work.fireEnd at fired
  split at fired
  · next m event its is => exact fire_end its is fired
  · next none =>
    cases fired
    refine ⟨w.rows, rfl, fun _ => .refl, fun m its _ stage => ?_⟩
    cases kind : run.kind with
    | inference =>
      rw [kind] at stage
      cases stage
    | _ => exact none m _ its (by rw [kind]; rfl)

theorem fireIfLegal_ends {m : ModelId} {event : ModelLifecycleEvent} (its : run.modelId = some m)
    (is : run.kind.event false = some event) :
    ∃ rows, w.fireIfLegal m event = { w with rows } ∧ (∀ m, Left (w.rows m) (rows m)) ∧
      Off id run w.rows rows := by
  unfold Work.fireIfLegal
  split
  · next w' fired => exact fire_end its is fired
  · next error refused =>
    refine ⟨w.rows, rfl, fun _ => .refl, fun other named _ stage => ?_⟩
    cases its.symm.trans named
    obtain ⟨row, legal⟩ := fireModel_legal is stage
    rw [Work.fire, legal] at refused
    cases refused

theorem releaseTrainingModel_ends (id : RunId) (kind : run.kind = .training) :
    ∃ rows, w.releaseTrainingModel id run = { w with rows } ∧ (∀ m, Left (w.rows m) (rows m)) ∧
      Off id run w.rows rows := by
  unfold Work.releaseTrainingModel
  split
  · next group => exact ⟨w.rows, rfl, fun _ => .refl, fun m its => by cases group.symm.trans its⟩
  · next m its =>
    split
    · exact fireIfLegal_ends its (by rw [kind]; rfl)
    · next other =>
      refine ⟨w.rows, rfl, fun _ => .refl, fun m' its' current => ?_⟩
      cases its.symm.trans its'
      exact absurd (current kind) other

theorem fireEndIfLegal_ends (id : RunId) : ∃ rows, w.fireEndIfLegal run = { w with rows } ∧
    (∀ m, Left (w.rows m) (rows m)) ∧ Off id run w.rows rows := by
  unfold Work.fireEndIfLegal
  split
  · next m event its is => exact fireIfLegal_ends its is
  · next none =>
    have quiet : w.fireEnd run false = .ok w := by
      rw [Work.fireEnd]
      split
      · next m event its is => exact absurd is (none m event its)
      · rfl
    exact fireEnd_ends id quiet

theorem RunStatus.live_iff {status : RunStatus} :
    status.live = true ↔ status = .running ∨ status = .suspended := by
  cases status <;> decide

theorem task_outcome {now : Int} (done : w.task accepts now (id, task) = .ok w') :
    Outcome accepts w id w' := by
  unfold Work.task at done
  split at done
  · cases done
    exact .same
  · next run found =>
    cases task with
    | complete succeeded =>
      dsimp only [Work.complete] at done
      split at done
      · next status =>
        have live : run.status.live = true := RunStatus.live_iff.mpr (status.imp_right And.left)
        obtain ⟨rows, rfl, left, off⟩ := fireEnd_ends id done
        exact .ends run _ rows found live left off
      · cases done
    | cancel =>
      dsimp only [Work.cancel] at done
      split at done
      · cases done
        exact .same
      · next live =>
        rw [Bool.not_eq_false] at live
        split at done
        · next kind =>
          obtain ⟨rows, same, left, off⟩ := releaseTrainingModel_ends id kind
          cases done
          rw [same]
          exact .ends run _ rows found live left off
        · obtain ⟨rows, rfl, left, off⟩ := fireEnd_ends id done
          exact .ends run _ rows found live left off
        · cases done
          exact .same
    | suspend =>
      dsimp only [Work.suspend] at done
      split at done
      · cases done
        exact .same
      · split at done
        · next status =>
          cases done
          exact .pause run _ found (RunStatus.live_iff.mpr (.inl status)) rfl ⟨rfl, rfl, rfl⟩
        · cases done
    | resume =>
      cases done
      unfold Work.resume
      split
      · next status =>
        exact .pause run _ found (RunStatus.live_iff.mpr (.inr status.2)) rfl ⟨rfl, rfl, rfl⟩
      · exact .same
    | expire =>
      cases done
      unfold Work.expire
      split
      · next status =>
        obtain ⟨rows, same, left, off⟩ := fireEndIfLegal_ends id
        rw [same]
        exact .ends run _ rows found (RunStatus.live_iff.mpr (.inl status.1)) left off
      · exact .same

end Tasks

structure Account where
  ends : List Task := []
  notifications : List Notification := []
  reports : List Report := []

namespace Account

def append (first second : Account) : Account :=
  ⟨first.ends ++ second.ends, first.notifications ++ second.notifications,
    first.reports ++ second.reports⟩

def ended (accepts : Str → Bool) (run : ExecutionRun) (id : RunId) (task : Task) : Account :=
  ⟨[task], (task.notification accepts run id).toList, (task.report run.kind id).toList⟩

theorem append_empty (account : Account) : account.append {} = account := by
  simp [append]

theorem empty_append (account : Account) : append {} account = account := by
  simp [append]

end Account

def accountOf (id : RunId) (ends : List (RunId × Task)) (notifications : List Notification)
    (reports : List Report) : Account :=
  ⟨(ends.filter (·.1 = id)).map (·.2), notifications.filter (·.run = id), reports.filter (·.run = id)⟩

def Work.account (w : Work) (id : RunId) : Account := accountOf id w.ends w.notifications w.reports

def State.account (s : State) (id : RunId) : Account := ⟨s.endsOf id, s.notificationsOf id, s.reportsOf id⟩

section Fates

variable {accepts : Str → Bool} {held : RunId → Option ExecutionRun} {rows : ModelId → ModelLifecycle}
  {w w' : Work} {id other : RunId} {run next : ExecutionRun} {task : Task}

theorem accountOf_append {ends ends' : List (RunId × Task)} {told told' : List Notification}
    {reports reports' : List Report} :
    accountOf id (ends ++ ends') (told ++ told') (reports ++ reports') =
      (accountOf id ends told reports).append (accountOf id ends' told' reports') := by
  simp [accountOf, Account.append]

theorem notification_run {note : Notification}
    (is : task.notification accepts run id = some note) : note.run = id := by
  unfold Task.notification at is
  split at is
  · cases task <;> simp only [Task.tells] at is
    · split at is <;> cases is
      rfl
    · cases is
    · cases is
    · cases is
    · cases is
      rfl
  · cases is

theorem report_run {kind : RunKind} {report : Report} (is : task.report kind id = some report) :
    report.run = id := by
  cases task <;> simp only [Task.report] at is
  · cases kind <;> simp only at is <;> first | (cases is; rfl) | (split at is <;> cases is; rfl)
  · cases is
  · cases is
  · cases is
  · split at is <;> cases is
    rfl

theorem accountOf_ended : accountOf other [(id, task)] (task.notification accepts run id).toList
    (task.report run.kind id).toList = if id = other then .ended accepts run id task else {} := by
  have notes : ∀ note ∈ (task.notification accepts run id).toList, note.run = id :=
    fun note mem => notification_run (Option.mem_toList.mp mem)
  have reports : ∀ report ∈ (task.report run.kind id).toList, report.run = id :=
    fun report mem => report_run (Option.mem_toList.mp mem)
  unfold accountOf
  split
  · next same =>
    subst same
    rw [List.filter_eq_self.mpr fun note mem => decide_eq_true (notes note mem),
      List.filter_eq_self.mpr fun report mem => decide_eq_true (reports report mem)]
    simp [Account.ended]
  · next differs =>
    rw [List.filter_eq_nil_iff.mpr fun note mem is => differs (notes note mem ▸ of_decide_eq_true is),
      List.filter_eq_nil_iff.mpr fun report mem is => differs (reports report mem ▸ of_decide_eq_true is)]
    simp [differs]

inductive Fate (accepts : Str → Bool) (held : RunId → Option ExecutionRun)
    (rows : ModelId → ModelLifecycle) (w : Work) (id : RunId) : Prop
  | kept (same : w.runs id = held id) (quiet : w.account id = {})
  | paused (run next : ExecutionRun) (was : held id = some run) (live : run.status.live = true)
      (is : w.runs id = some next) (lives : next.status.live = true) (same : next.Same run)
      (quiet : w.account id = {})
  | ended (run next : ExecutionRun) (task : Task) (was : held id = some run)
      (live : run.status.live = true) (is : w.runs id = some next)
      (status : next.status = task.status) (same : next.Same run)
      (account : w.account id = .ended accepts next id task) (off : Off id run rows w.rows)

structure Done (accepts : Str → Bool) (held : RunId → Option ExecutionRun)
    (rows : ModelId → ModelLifecycle) (w : Work) : Prop where
  left : ∀ m, Left (rows m) (w.rows m)
  fate : ∀ id, Fate accepts held rows w id

theorem Off.later {rows' : ModelId → ModelLifecycle} (off : Off id run rows w.rows)
    (left : ∀ m, Left (w.rows m) (rows' m)) : Off id run rows rows' :=
  fun m its current stage => off m its current ((left m).stage stage)

theorem Task.status_ended : task.status.live = false := by
  cases task with
  | complete succeeded => cases succeeded <;> rfl
  | _ => rfl

theorem ExecutionRun.Same.trans {last : ExecutionRun} (second : last.Same next)
    (first : next.Same run) : last.Same run :=
  ⟨second.1.trans first.1, second.2.1.trans first.2.1, second.2.2.trans first.2.2⟩

theorem Fate.untouched (fate : Fate accepts held rows w other) (runs : w'.runs other = w.runs other)
    (account : w'.account other = w.account other) (left : ∀ m, Left (w.rows m) (w'.rows m)) :
    Fate accepts held rows w' other := by
  cases fate with
  | kept same quiet => exact .kept (runs.trans same) (account.trans quiet)
  | paused run next was live is lives same quiet =>
    exact .paused run next was live (runs.trans is) lives same (account.trans quiet)
  | ended run next task was live is status same accounted off =>
    exact .ended run next task was live (runs.trans is) status same (account.trans accounted)
      (off.later left)

theorem Fate.live (fate : Fate accepts held rows w id) (found : w.runs id = some run)
    (live : run.status.live = true) :
    w.account id = {} ∧ ∃ first, held id = some first ∧ first.status.live = true ∧ run.Same first := by
  cases fate with
  | kept same quiet => exact ⟨quiet, run, same.symm.trans found, live, rfl, rfl, rfl⟩
  | paused first next was live' is lives same quiet =>
    cases is.symm.trans found
    exact ⟨quiet, first, was, live', same⟩
  | ended first next task was live' is status same accounted off =>
    cases is.symm.trans found
    rw [status, Task.status_ended] at live
    cases live

theorem endRun_account (task : Task) : (w.endRun accepts id run task).account other =
    (w.account other).append (if id = other then .ended accepts run id task else {}) := by
  rw [← accountOf_ended]
  exact accountOf_append

theorem Done.outcome (done : Done accepts held rows w) (outcome : Outcome accepts w id w') :
    Done accepts held rows w' := by
  cases outcome with
  | same => exact done
  | pause run next found live lives same =>
    refine ⟨done.left, fun other => ?_⟩
    by_cases mine : other = id
    · subst mine
      obtain ⟨quiet, first, was, live', same'⟩ := (done.fate other).live found live
      exact .paused first next was live' (Function.update_self _ _ _) lives (same.trans same') quiet
    · exact (done.fate other).untouched (Function.update_of_ne mine _ _) rfl fun _ => .refl
  | ends run task rows' found live left off =>
    refine ⟨fun m => (done.left m).trans (left m), fun other => ?_⟩
    have account : (w.endRun accepts id run task).account other = (w.account other).append
        (if id = other then .ended accepts run id task else {}) := endRun_account task
    by_cases mine : other = id
    · subst mine
      obtain ⟨quiet, first, was, live', same⟩ := (done.fate other).live found live
      rw [quiet, Account.empty_append, if_pos rfl] at account
      refine .ended first { run with status := task.status } task was live'
        (Function.update_self _ _ _) rfl same account ?_
      intro m its current stage
      refine off m (same.2.1.trans its) (fun kind => ?_) (same.1 ▸ stage)
      exact (done.left m).1.trans (current (same.1 ▸ kind))
    · rw [if_neg (Ne.symm mine), Account.append_empty] at account
      exact (done.fate other).untouched (Function.update_of_ne mine _ _) account left

end Fates

section Transactions

variable {accepts : Str → Bool} {s s' : State} {t : Transaction} {w w' : Work} {i : Nat} {id : RunId}
  {m : ModelId}

theorem Outcome.runs {other : RunId} (outcome : Outcome accepts w id w') (differs : other ≠ id) :
    w'.runs other = w.runs other := by
  cases outcome with
  | same => rfl
  | pause run next _ _ _ _ => exact Function.update_of_ne differs _ _
  | ends run task rows _ _ _ _ => exact Function.update_of_ne differs _ _

theorem tasks_done {now : Int} {held : RunId → Option ExecutionRun} {rows : ModelId → ModelLifecycle}
    {tasks : List (RunId × Task)} {first : Work} (start : Done accepts held rows first)
    (ok : tasks.foldlM (Work.task accepts now) first = .ok w) : Done accepts held rows w ∧
      ∀ id, w.runs id ≠ first.runs id → ∃ task, (id, task) ∈ tasks := by
  induction tasks generalizing first with
  | nil =>
    cases ok
    exact ⟨start, fun _ differs => absurd rfl differs⟩
  | cons next rest ih =>
    obtain ⟨second, done, ok⟩ := bind_ok ok
    have outcome : Outcome accepts first next.1 second := task_outcome done
    obtain ⟨all, named⟩ := ih (start.outcome outcome) ok
    refine ⟨all, fun id differs => ?_⟩
    by_cases mine : id = next.1
    · exact ⟨next.2, mine ▸ List.mem_cons_self⟩
    · obtain ⟨task, mem⟩ := named id (outcome.runs mine ▸ differs)
      exact ⟨task, List.mem_cons_of_mem _ mem⟩

theorem work_done (ok : t.work accepts = .ok w) : Done accepts t.runs t.row w ∧
    ∀ id, w.runs id ≠ t.runs id → ∃ task, (id, task) ∈ t.call.tasks :=
  tasks_done ⟨fun _ => .refl, fun _ => .kept rfl rfl⟩ ok

theorem mem_models {run : ExecutionRun} {task : Task} (named : (id, task) ∈ t.call.tasks)
    (held : t.runs id = some run) (its : run.modelId = some m) : m ∈ t.models :=
  List.mem_filterMap.mpr ⟨(id, task), named, by simp [held, its]⟩

/-- The version of the lifecycle row that the transaction writes guards its write of the run: it read
the row in the stage of the run, and for a training run naming the run as the model's current one. -/
def Transaction.guards (t : Transaction) (w : Work) (id : RunId) (held : ExecutionRun) : Bool :=
  held.modelId.any fun m => w.rows m ≠ t.row m &&
    (held.kind.stage = some (t.row m).modelLifecycleState &&
      (held.kind ≠ .training || (t.row m).trainingJobId = some id))

/-- A transaction is about to write a run that is not as it read it, and no version guards that. -/
def State.overwrites (accepts : Str → Bool) (s : State) : Act → Bool
  | .commit i => (s.transaction i).any fun t =>
    match t.work accepts with
    | .error _ => false
    | .ok w => t.call.tasks.any fun next => (t.runs next.1).any fun held =>
      w.runs next.1 ≠ some held && (s.runs next.1 ≠ some held && !t.guards w next.1 held)
  | _ => false

def State.current (s : State) (m : ModelId) : Option (Row ModelLifecycle) := some (s.rows m)

def HeldRow (s : State) (m : ModelId) (held : Row ModelLifecycle) : Prop :=
  Holds s.current m held ∧ Left held.value (s.lifecycle m)

/-- What a transaction holds of a run: one that it read as live is live still, when its model is in
its stage. -/
def HeldRun (s : State) (id : RunId) (held : ExecutionRun) : Prop :=
  ∃ run, s.runs id = some run ∧ run.Same held ∧ (held.status.live = true →
    ∀ m, run.modelId = some m → run.kind.stage = some (s.lifecycle m).modelLifecycleState →
      (run.kind = .training → (s.lifecycle m).trainingJobId = some id) → run.status.live = true)

def Accounted (accepts : Str → Bool) (s : State) (id : RunId) : Prop :=
  s.account id = {} ∨ ∃ run task, s.runs id = some run ∧ run.status = task.status ∧
    s.account id = .ended accepts run id task

structure Sound (accepts : Str → Bool) (s : State) : Prop where
  row : ∀ (i : Nat) (t : Transaction), s.transaction i = some t →
    ∀ (m : ModelId) (held : Row ModelLifecycle), t.rows m = some held → HeldRow s m held
  run : ∀ (i : Nat) (t : Transaction), s.transaction i = some t →
    ∀ (id : RunId) (held : ExecutionRun), t.runs id = some held → HeldRun s id held
  account : ∀ id, Accounted accepts s id

theorem fresh_row (sound : Sound accepts s) (is : s.transaction i = some t)
    (fresh : s.fresh t w = true) (its : m ∈ t.models) (changed : w.rows m ≠ t.row m) :
    t.row m = s.lifecycle m := by
  have same := List.all_eq_true.mp fresh m its
  simp only [Bool.or_eq_true, decide_eq_true_eq, changed, false_or, Option.any_eq_true] at same
  obtain ⟨row, held, version⟩ := same
  have same := (sound.row i t is m row held).1.fresh rfl version
  simp [Transaction.row, State.lifecycle, held, same]

theorem written_live (sound : Sound accepts s) (is : s.transaction i = some t)
    (ok : t.work accepts = .ok w) (fresh : s.fresh t w = true)
    (prompt : s.overwrites accepts (.commit i) = false) (changed : w.runs id ≠ t.runs id) :
    ∃ held run, t.runs id = some held ∧ s.runs id = some run ∧ run.Same held ∧
      run.status.live = true := by
  obtain ⟨done, named⟩ := work_done ok
  obtain ⟨task, mem⟩ := named id changed
  obtain ⟨held, was, live⟩ : ∃ held, t.runs id = some held ∧ held.status.live = true := by
    cases done.fate id with
    | kept same _ => exact absurd same changed
    | paused run _ was live _ _ _ _ => exact ⟨run, was, live⟩
    | ended run _ _ was live _ _ _ _ _ => exact ⟨run, was, live⟩
  obtain ⟨run, found, same, still⟩ := sound.run i t is id held was
  refine ⟨held, run, was, found, same, ?_⟩
  by_cases unread : s.runs id = some held
  · cases found.symm.trans unread
    exact live
  · have guarded : t.guards w id held = true := by
      simp only [State.overwrites, is, ok, Option.any_some, List.any_eq_false] at prompt
      have := prompt _ mem
      simpa [was, was ▸ changed, unread] using this
    simp only [Transaction.guards, Option.any_eq_true, Bool.and_eq_true, Bool.or_eq_true,
      decide_eq_true_eq] at guarded
    obtain ⟨m, its, writes, stage, current⟩ := guarded
    have row := fresh_row sound is fresh (mem_models mem was its) writes
    rw [row] at stage current
    refine still live m (same.2.1.trans its) (same.1 ▸ stage) fun kind => ?_
    exact current.resolve_left fun other => other (same.1 ▸ kind)

inductive Change (accepts : Str → Bool) (s s' : State) (id : RunId) : Prop
  | kept (run : s'.runs id = s.runs id) (account : s'.account id = s.account id)
  | goesOn (run next : ExecutionRun) (was : s.runs id = some run) (live : run.status.live = true)
      (is : s'.runs id = some next) (same : next.Same run) (lives : next.status.live = true)
      (account : s'.account id = s.account id)
  | ends (run next : ExecutionRun) (task : Task) (was : s.runs id = some run)
      (live : run.status.live = true) (is : s'.runs id = some next) (same : next.Same run)
      (status : next.status = task.status)
      (account : s'.account id = (s.account id).append (.ended accepts next id task))
      (off : Off id next s.lifecycle s'.lifecycle)

def RowChange (s s' : State) (m : ModelId) : Prop :=
  (s'.rows m = s.rows m ∨ (s.rows m).version < (s'.rows m).version) ∧
    Left (s.lifecycle m) (s'.lifecycle m)

theorem write_same {current held next : ExecutionRun} : (current.write held next).Same current :=
  ⟨rfl, rfl, rfl⟩

theorem write_own {current held : ExecutionRun} : current.write held held = current := by
  simp [ExecutionRun.write]

theorem apply_kept (same : w.runs id = t.runs id) : (s.apply t w).runs id = s.runs id := by
  unfold State.apply
  dsimp only
  rw [same]
  split
  · next current held next here was is =>
    cases was.symm.trans is
    rw [write_own, here]
  · next here => rfl

theorem apply_account : (s.apply t w).account id = (s.account id).append (w.account id) :=
  accountOf_append

theorem apply_row (m : ModelId) (sound : Sound accepts s) (is : s.transaction i = some t)
    (ok : t.work accepts = .ok w) (fresh : s.fresh t w = true) :
    RowChange s (s.apply t w) m ∧
      (m ∈ t.models → w.rows m = t.row m ∨ (s.apply t w).lifecycle m = w.rows m) := by
  by_cases written : m ∈ t.models ∧ w.rows m ≠ t.row m
  · have row : (s.apply t w).rows m = ⟨w.rows m, (s.rows m).version + 1⟩ := if_pos written
    have value : (s.apply t w).lifecycle m = w.rows m := congrArg Row.value row
    refine ⟨⟨.inr (by simp [row]), ?_⟩, fun _ => .inr value⟩
    rw [value, ← fresh_row sound is fresh written.1 written.2]
    exact (work_done ok).1.left m
  · have row : (s.apply t w).rows m = s.rows m := if_neg written
    refine ⟨⟨.inl row, ?_⟩, fun its => .inl (not_not.mp fun differs => written ⟨its, differs⟩)⟩
    unfold State.lifecycle
    rw [row]
    exact .refl

theorem held_left (sound : Sound accepts s) (is : s.transaction i = some t) (ready : t.ready = true)
    {run : ExecutionRun} {task : Task} (named : (id, task) ∈ t.call.tasks)
    (held : t.runs id = some run) (its : run.modelId = some m) :
    Left (t.row m) (s.lifecycle m) := by
  have reads := List.all_eq_true.mp ready _ named
  simp only [held, its, Option.any_some, Option.all_some] at reads
  obtain ⟨row, found⟩ := Option.isSome_iff_exists.mp reads
  simpa [Transaction.row, found] using (sound.row i t is m row found).2

theorem apply_change (sound : Sound accepts s) (is : s.transaction i = some t)
    (ready : t.ready = true) (ok : t.work accepts = .ok w) (fresh : s.fresh t w = true)
    (prompt : s.overwrites accepts (.commit i) = false) : Change accepts s (s.apply t w) id := by
  obtain ⟨done, named⟩ := work_done ok
  have account : (s.apply t w).account id = (s.account id).append (w.account id) := apply_account
  by_cases changed : w.runs id = t.runs id
  · refine .kept (apply_kept changed) ?_
    cases done.fate id with
    | kept _ quiet => rw [account, quiet, Account.append_empty]
    | paused _ _ _ _ _ _ _ quiet => rw [account, quiet, Account.append_empty]
    | ended run next task was live ends status _ _ _ =>
      cases ends.symm.trans (changed.trans was)
      rw [status, Task.status_ended] at live
      cases live
  · obtain ⟨held, run, was, found, same, live⟩ := written_live sound is ok fresh prompt changed
    cases done.fate id with
    | kept same _ => exact absurd same changed
    | paused first next read liveRead goes lives _ quiet =>
      cases was.symm.trans read
      have after : (s.apply t w).runs id = some (run.write held next) := by
        simp [State.apply, found, was, goes]
      refine .goesOn run _ found live after write_same ?_ (by rw [account, quiet, Account.append_empty])
      dsimp only [ExecutionRun.write]
      split
      · exact live
      · exact lives
    | ended first next task read liveRead ends status alike accounted off =>
      cases was.symm.trans read
      have after : (s.apply t w).runs id = some (run.write held next) := by
        simp [State.apply, found, was, ends]
      have written : (run.write held next).status = task.status := by
        refine (if_neg fun unchanged => ?_).trans status
        rw [← unchanged, status, Task.status_ended] at liveRead
        cases liveRead
      have told : Account.ended accepts next id task = .ended accepts (run.write held next) id task := by
        have alike' := alike.trans ⟨same.1.symm, same.2.1.symm, same.2.2.symm⟩
        unfold Account.ended Task.notification
        rw [alike'.1, alike'.2.2]
        rfl
      refine .ends run _ task found live after write_same written (by rw [account, accounted, told]) ?_
      intro m its current stage
      obtain ⟨task', mem⟩ := named id changed
      have itsHeld : held.modelId = some m := same.2.1.symm.trans its
      have left := held_left sound is ready mem was itsHeld
      have outside : held.kind.stage ≠ some (w.rows m).modelLifecycleState :=
        off m itsHeld fun kind => left.1.symm.trans (current (same.1.trans kind))
      have inStage : held.kind.stage = some ((s.apply t w).lifecycle m).modelLifecycleState :=
        same.1 ▸ stage
      obtain ⟨change, row⟩ := apply_row m sound is ok fresh
      rcases row (mem_models mem was itsHeld) with unwritten | written
      · exact outside (unwritten ▸ left.stage (change.2.stage inStage))
      · exact outside (written ▸ inStage)

theorem Change.transactions (change : Change accepts s s' id) (transactions : List (Option Transaction)) :
    Change accepts s { s' with transactions } id := by
  cases change with
  | kept run account => exact .kept run account
  | goesOn run next was live is same lives account =>
    exact .goesOn run next was live is same lives account
  | ends run next task was live is same status account off =>
    exact .ends run next task was live is same status account off

theorem act_change {act : Act} (id : RunId) (m : ModelId) (sound : Sound accepts s)
    (prompt : s.overwrites accepts act = false) (step : State.Step accepts s act s') : Change accepts s s' id ∧ RowChange s s' m := by
  have nothing : ∀ transactions, Change accepts s { s with transactions } id ∧
      RowChange s { s with transactions } m :=
    fun transactions => ⟨Change.transactions (.kept rfl rfl) transactions, .inl rfl, .refl⟩
  cases act with
  | arrive now call =>
    cases step
    exact nothing _
  | readRun i id =>
    obtain ⟨t, is, reads⟩ := Option.bind_eq_some_iff.mp step
    obtain ⟨run, found, reads⟩ := Option.bind_eq_some_iff.mp reads
    split at reads <;> cases reads
    exact nothing _
  | readRow i m =>
    obtain ⟨t, is, reads⟩ := Option.bind_eq_some_iff.mp step
    split at reads <;> cases reads
    exact nothing _
  | dies i =>
    cases step
    exact nothing _
  | commit i =>
    obtain ⟨t, is, commits⟩ := Option.bind_eq_some_iff.mp step
    split at commits <;> cases commits
    next ready =>
    unfold State.finish
    split
    · exact nothing _
    · next w ok =>
      split
      · next fresh =>
        exact ⟨(apply_change sound is ready ok fresh prompt).transactions _,
          (apply_row m sound is ok fresh).1⟩
      · exact nothing _

theorem transaction_set {transaction : Option Transaction} {j : Nat}
    (is : (s.setTransaction i transaction).transaction j = some t) :
    transaction = some t ∨ s.transaction j = some t :=
  Table.set_join_cases is

theorem Accounted.change (accounted : Accounted accepts s id) (change : Change accepts s s' id) :
    Accounted accepts s' id := by
  have open_ : ∀ run, s.runs id = some run → run.status.live = true → s.account id = {} := by
    intro run found live
    rcases accounted with none | ⟨run', task, found', status, -⟩
    · exact none
    · cases found.symm.trans found'
      rw [status, Task.status_ended] at live
      cases live
  cases change with
  | kept run account =>
    unfold Accounted
    rw [run, account]
    exact accounted
  | goesOn run next was live is same lives account => exact .inl (account.trans (open_ run was live))
  | ends run next task was live is same status account off =>
    rw [open_ run was live, Account.empty_append] at account
    exact .inr ⟨next, task, is, status, account⟩

theorem HeldRun.change {held : ExecutionRun} (holds : HeldRun s id held)
    (change : Change accepts s s' id) (rows : ∀ m, RowChange s s' m) : HeldRun s' id held := by
  obtain ⟨run, found, same, still⟩ := holds
  cases change with
  | kept run' account =>
    refine ⟨run, run'.trans found, same, fun live m its stage current => ?_⟩
    exact still live m its ((rows m).2.stage stage) fun kind => (rows m).2.1.symm.trans (current kind)
  | goesOn run' next was live is alike lives account =>
    cases found.symm.trans was
    exact ⟨next, is, alike.trans same, fun _ _ _ _ _ => lives⟩
  | ends run' next task was live is alike status account off =>
    cases found.symm.trans was
    refine ⟨next, is, alike.trans same, fun _ m its stage current => absurd stage ?_⟩
    exact off m its fun kind => (rows m).2.1.symm.trans (current kind)

theorem HeldRow.change {held : Row ModelLifecycle} (holds : HeldRow s m held)
    (rows : ∀ m, RowChange s s' m) : HeldRow s' m held := by
  refine ⟨holds.1.later ?_, holds.2.trans (rows m).2⟩
  rintro m row ⟨⟩
  exact ⟨s'.rows m, rfl, (rows m).1⟩

theorem Sound.act {act : Act} (sound : Sound accepts s) (prompt : s.overwrites accepts act = false)
    (step : State.Step accepts s act s') : Sound accepts s' := by
  have changes := fun id m => act_change id m sound prompt step
  have rows := fun m => (changes 0 m).2
  have keptRow : ∀ i t, s.transaction i = some t → ∀ m held, t.rows m = some held →
      HeldRow s' m held := fun i t is m held has => (sound.row i t is m held has).change rows
  have keptRun : ∀ i t, s.transaction i = some t → ∀ id held, t.runs id = some held →
      HeldRun s' id held := fun i t is id held has => (sound.run i t is id held has).change (changes id 0).1 rows
  suffices held : ∀ j u, s'.transaction j = some u →
      (∀ m row, u.rows m = some row → HeldRow s' m row) ∧
      ∀ id run, u.runs id = some run → HeldRun s' id run from
    ⟨fun j u is => (held j u is).1, fun j u is => (held j u is).2,
      fun id => (sound.account id).change (changes id 0).1⟩
  intro j u is'
  have old : s.transaction j = some u → (∀ m row, u.rows m = some row → HeldRow s' m row) ∧
      ∀ id run, u.runs id = some run → HeldRun s' id run :=
    fun was => ⟨keptRow j u was, keptRun j u was⟩
  cases act with
  | arrive now call =>
    cases step
    rcases Table.append_cases (Option.join_eq_some_iff.mp is') with ⟨-, new⟩ | was
    · cases new
      exact ⟨by simp, by simp⟩
    · exact old (Option.join_eq_some_iff.mpr was)
  | readRun i id =>
    obtain ⟨t, is, reads⟩ := Option.bind_eq_some_iff.mp step
    obtain ⟨run, found, reads⟩ := Option.bind_eq_some_iff.mp reads
    split at reads <;> cases reads
    rcases transaction_set is' with new | was
    · cases new
      refine ⟨keptRow i t is, fun id' held has => ?_⟩
      dsimp only at has
      by_cases mine : id' = id
      · subst mine
        rw [Function.update_self] at has
        cases has
        exact ⟨run, found, ⟨rfl, rfl, rfl⟩, fun live _ _ _ _ => live⟩
      · rw [Function.update_of_ne mine] at has
        exact keptRun i t is id' held has
    · exact old was
  | readRow i m =>
    obtain ⟨t, is, reads⟩ := Option.bind_eq_some_iff.mp step
    split at reads <;> cases reads
    rcases transaction_set is' with new | was
    · cases new
      refine ⟨fun m' held has => ?_, keptRun i t is⟩
      dsimp only at has
      by_cases mine : m' = m
      · subst mine
        rw [Function.update_self] at has
        cases has
        exact ⟨Versioned.holds_loaded rfl, .refl⟩
      · rw [Function.update_of_ne mine] at has
        exact keptRow i t is m' held has
    · exact old was
  | dies i =>
    cases step
    rcases transaction_set is' with ended | was
    · cases ended
    · exact old was
  | commit i =>
    obtain ⟨t, is, commits⟩ := Option.bind_eq_some_iff.mp step
    split at commits <;> cases commits
    refine old ?_
    unfold State.finish at is'
    split at is'
    · exact (transaction_set is').resolve_left (by simp)
    · split at is' <;> exact (transaction_set is').resolve_left (by simp)

/-- A database with any runs and models, in which no run has been ended yet by what follows. -/
def opening (runs : RunId → Option ExecutionRun) (rows : ModelId → Row ModelLifecycle) : State :=
  { runs, rows }

theorem Sound.start {runs : RunId → Option ExecutionRun} {rows : ModelId → Row ModelLifecycle} :
    Sound accepts (opening runs rows) where
  row i t is := by simp [State.transaction, opening] at is
  run i t is := by simp [State.transaction, opening] at is
  account _ := .inl rfl

def Fixed (s s' : State) : Prop := ∀ id run, s.runs id = some run → run.status.live = false →
  s'.runs id = some run ∧ s'.account id = s.account id

theorem Fixed.trans {s'' : State} (first : Fixed s s') (second : Fixed s' s'') : Fixed s s'' := by
  intro id run found ended
  obtain ⟨found', account⟩ := first id run found ended
  obtain ⟨found'', account'⟩ := second id run found' ended
  exact ⟨found'', account'.trans account⟩

theorem Change.fixed (run : ExecutionRun) (change : Change accepts s s' id)
    (found : s.runs id = some run) (ended : run.status.live = false) :
    s'.runs id = some run ∧ s'.account id = s.account id := by
  cases change with
  | kept run account => exact ⟨run.trans found, account⟩
  | goesOn run next was live is same lives account =>
    cases found.symm.trans was
    rw [ended] at live
    cases live
  | ends run next task was live is same status account off =>
    cases found.symm.trans was
    rw [ended] at live
    cases live

/-- A run ends once: what has ended does not change, at most one task has ended it, and its status is
that task's; whoever asked for it is told once of a completion and of a timeout, and not of a cancel
or of an inference that is resolved; and at most one report is stored, which agrees with the status. -/
structure EndsOnce (accepts : Str → Bool) (trace : List (Runs.Step State Act)) (s : State) : Prop where
  fixed : ∀ t ∈ trace, ∀ id run, t.before.runs id = some run → run.status.live = false →
    s.runs id = some run ∧ s.endsOf id = t.before.endsOf id ∧
      s.notificationsOf id = t.before.notificationsOf id ∧ s.reportsOf id = t.before.reportsOf id
  once : ∀ id, (s.endsOf id).length ≤ 1
  status : ∀ id, ∀ task ∈ s.endsOf id, ∃ run, s.runs id = some run ∧ run.status = task.status
  told : ∀ id run, s.runs id = some run → s.notificationsOf id =
    (s.endsOf id).flatMap fun task => (task.notification accepts run id).toList
  reported : ∀ id run, s.runs id = some run → s.reportsOf id =
    (s.endsOf id).flatMap fun task => (task.report run.kind id).toList
  agrees : ∀ id run, s.runs id = some run →
    (∀ note ∈ s.notificationsOf id, note.succeeded = decide (run.status = .succeeded)) ∧
    ∀ report ∈ s.reportsOf id, report.passed = decide (run.status = .succeeded)

theorem notification_agrees {run : ExecutionRun} {task : Task} {note : Notification}
    (status : run.status = task.status) (is : task.notification accepts run id = some note) :
    note.succeeded = decide (run.status = .succeeded) := by
  unfold Task.notification at is
  split at is
  · cases task with
    | complete succeeded =>
      simp only [Task.tells] at is
      split at is <;> cases is
      rw [status]
      cases succeeded <;> rfl
    | expire =>
      cases is
      rw [status]
      rfl
    | _ => cases is
  · cases is

theorem report_agrees {run : ExecutionRun} {task : Task} {report : Report}
    (status : run.status = task.status) (is : task.report run.kind id = some report) :
    report.passed = decide (run.status = .succeeded) := by
  rw [status]
  cases task with
  | complete succeeded => cases kind : run.kind <;> cases succeeded <;> rw [kind] at is <;> cases is <;> rfl
  | expire =>
    simp only [Task.report] at is
    split at is <;> cases is
    rfl
  | _ => cases is

theorem Accounted.fields (accounted : Accounted accepts s id) :
    (s.endsOf id = [] ∧ s.notificationsOf id = [] ∧ s.reportsOf id = []) ∨
    ∃ run task, s.runs id = some run ∧ run.status = task.status ∧ s.endsOf id = [task] ∧
      s.notificationsOf id = (task.notification accepts run id).toList ∧
      s.reportsOf id = (task.report run.kind id).toList := by
  rcases accounted with none | ⟨run, task, found, status, ended⟩
  · simp only [State.account, Account.mk.injEq] at none
    exact .inl none
  · simp only [State.account, Account.ended, Account.mk.injEq] at ended
    exact .inr ⟨run, task, found, status, ended⟩

theorem run_ends_once {runs : RunId → Option ExecutionRun} {rows : ModelId → Row ModelLifecycle}
    {trace : List (Runs.Step State Act)}
    (run : Runs.Run (State.Step accepts) (opening runs rows) trace s)
    (guarded : ∀ t ∈ trace, t.before.overwrites accepts t.label = false) :
    EndsOnce accepts trace s := by
  have keeps := fun (s : State) (act : Act) (s' : State) (sound : Sound accepts s)
    (prompt : s.overwrites accepts act = false) (step : State.Step accepts s act s') =>
      sound.act prompt step
  have fixes := fun (s : State) (act : Act) (s' : State) (sound : Sound accepts s)
    (prompt : s.overwrites accepts act = false) (step : State.Step accepts s act s') (id : RunId)
    (run : ExecutionRun) => (act_change id 0 sound prompt step).1.fixed run
  have sound := run.invariant_of_guarded (Sound accepts) (·.overwrites accepts · = false) .start
    keeps guarded
  have later := run.later_of_guarded (Sound accepts) (·.overwrites accepts · = false) .start keeps
    Fixed (fun _ _ _ found _ => ⟨found, rfl⟩) (fun _ _ _ => .trans) fixes guarded
  have first := run.transitions_of_guarded (Sound accepts) (·.overwrites accepts · = false) .start
    keeps (fun t => Fixed t.before t.after) fixes guarded
  refine ⟨fun t mem id run found ended => ?_, fun id => ?_, fun id task mem => ?_,
    fun id run found => ?_, fun id run found => ?_, fun id run found => ?_⟩
  · obtain ⟨found', account⟩ := ((first t mem).trans (later t mem)) id run found ended
    simp only [State.account, Account.mk.injEq] at account
    exact ⟨found', account⟩
  · rcases (sound.account id).fields with ⟨none, -, -⟩ | ⟨_, _, _, _, ends, -, -⟩
    · simp [none]
    · simp [ends]
  · rcases (sound.account id).fields with ⟨none, -, -⟩ | ⟨run, last, found, status, ends, -, -⟩
    · simp [none] at mem
    · obtain rfl : task = last := by simpa [ends] using mem
      exact ⟨run, found, status⟩
  · rcases (sound.account id).fields with ⟨none, told, -⟩ | ⟨run', task, found', -, ends, told, -⟩
    · simp [none, told]
    · cases found.symm.trans found'
      simp [ends, told]
  · rcases (sound.account id).fields with ⟨none, -, reports⟩ | ⟨run', task, found', -, ends, -, reports⟩
    · simp [none, reports]
    · cases found.symm.trans found'
      simp [ends, reports]
  · rcases (sound.account id).fields with
      ⟨-, told, reports⟩ | ⟨run', task, found', status, -, told, reports⟩
    · simp [told, reports]
    · cases found.symm.trans found'
      rw [told, reports]
      exact ⟨fun _ mem => notification_agrees status (Option.mem_toList.mp mem),
        fun _ mem => report_agrees status (Option.mem_toList.mp mem)⟩

end Transactions

section Examples

structure EndsTold (accepts : Str → Bool) (s : State) (id : RunId) (run : ExecutionRun) : Prop where
  once : (s.endsOf id).length ≤ 1
  status : ∀ task ∈ s.endsOf id, run.status = task.status
  told : s.endsOf id ≠ [] → run.notificationUri.any accepts = true →
    (s.notificationsOf id).length = 1
  reported : (s.reportsOf id).length ≤ 1

def destination : Str := "https://consumer/notify".toList

def runsUnderWay : RunId → Option ExecutionRun
  | 0 => some { kind := .training, modelId := some 0, notificationUri := some destination }
  | 1 => some { kind := .training, modelId := none, notificationUri := some destination }
  | 2 => some { kind := .inference, modelId := some 0, notificationUri := some destination,
                timeoutSeconds := some 5 }
  | _ => none

def underWay : State := opening runsUnderWay fun _ =>
  ⟨{ modelLifecycleState := .training, trainingJobId := some 0 }, 1⟩

def answer (s : State) (act : Act) : Option State := s.act (fun _ => true) act

/-- A completion and a cancel of the model's run that both read it under way, and a sweep. -/
def races : List Act :=
  [.arrive 0 (.complete 0 true), .arrive 0 (.cancel [0]), .readRun 0 0, .readRun 1 0, .readRow 1 0,
    .readRow 0 0, .commit 0, .commit 1,
    .arrive 10000000 (.sweep [2]), .readRun 2 2, .readRow 2 0, .commit 2]

theorem races_end_once : EndsOnce (fun _ => true) (Runs.stepsOf (Runs.nextOf answer) underWay races)
    (races.foldl (Runs.nextOf answer) underWay) :=
  run_ends_once (Runs.run_enabled (by decide)) (by decide)

def cancelled : List Act :=
  [.arrive 0 (.cancel [0]), .readRun 0 0, .readRow 0 0, .commit 0]

def completedTwice : List Act :=
  [.arrive 0 (.complete 1 true), .arrive 0 (.complete 1 false), .readRun 0 1, .readRun 1 1, .commit 0,
    .commit 1]

theorem untold_or_twice :
    (∃ trace s run, Runs.Run (State.Step fun _ => true) underWay trace s ∧ s.runs 0 = some run ∧
      s.endsOf 0 = [.cancel] ∧ ¬ EndsTold (fun _ => true) s 0 run) ∧
    ∃ trace s run, Runs.Run (State.Step fun _ => true) underWay trace s ∧ s.runs 1 = some run ∧
      s.endsOf 1 = [.complete true, .complete false] ∧ ¬ EndsTold (fun _ => true) s 1 run := by
  refine ⟨⟨_, cancelled.foldl (Runs.nextOf answer) underWay,
      { kind := .training, modelId := some 0, status := .cancelled, notificationUri := some destination },
      Runs.run_enabled (by decide), by decide, by decide, fun ends => ?_⟩,
    ⟨_, completedTwice.foldl (Runs.nextOf answer) underWay,
      { kind := .training, modelId := none, status := .failed, notificationUri := some destination },
      Runs.run_enabled (by decide), by decide, by decide, fun ends => ?_⟩⟩
  · exact absurd (ends.told (by decide) rfl) (by decide)
  · exact absurd ends.once (by decide)

end Examples

end Smo.Aimgf.Races
