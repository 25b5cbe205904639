import Smo.Aimgf.Serving

/-! The ends of execution runs as transactions that interleave (`aimgf/app/main.py`,
`aimgf/app/nrm.py`): completions, cancels, suspends, resumes and timeout sweeps. Each reads the run
rows it works on and the lifecycle rows of their models, decides on what it has read, and writes in
one commit. A lifecycle row has a version and a run row has none: the last write of it stands. -/
namespace Smo.Aimgf.Races

open Versioned (Row)

abbrev RunId := Nat

inductive RunKind
  | training | validation | emulation | inference
  deriving DecidableEq, Repr

inductive RunStatus
  | running | suspended | succeeded | failed | cancelled
  deriving DecidableEq, Repr

namespace RunStatus

def live : RunStatus → Bool
  | running | suspended => true
  | _ => false

def value : RunKind → RunStatus → String
  | .training, running => "IN_PROGRESS"
  | .training, succeeded => "FINISHED"
  | _, running => "RUNNING"
  | _, suspended => "SUSPENDED"
  | _, succeeded => "COMPLETED"
  | _, failed => "FAILED"
  | _, cancelled => "CANCELLED"

end RunStatus

namespace RunKind

def stage : RunKind → Option ModelLifecycleState
  | training => some .training
  | validation => some .validating
  | emulation => some .emulating
  | inference => none

def event : RunKind → Bool → Option ModelLifecycleEvent
  | training, succeeded => some (if succeeded then .trainingComplete else .trainingFailed)
  | validation, succeeded => some (if succeeded then .validationComplete else .validationFailed)
  | emulation, succeeded => some (if succeeded then .emulationComplete else .emulationFailed)
  | inference, _ => none

def suspends : RunKind → Bool
  | training | validation => true
  | _ => false

def name : RunKind → String
  | training => "training"
  | validation => "validation"
  | emulation => "emulation"
  | inference => "inference"

end RunKind

structure ExecutionRun where
  kind : RunKind
  modelId : Option ModelId
  status : RunStatus := .running
  notificationUri : Option Str := none
  startedAt : Int := 0
  timeoutSeconds : Option Int := none
  deriving DecidableEq

/-- A run's row after the columns that a transaction has changed are written to it. -/
def ExecutionRun.write (current held next : ExecutionRun) : ExecutionRun :=
  { current with
    status := if next.status = held.status then current.status else next.status
    startedAt := if next.startedAt = held.startedAt then current.startedAt else next.startedAt }

structure Notification where
  run : RunId
  succeeded : Bool
  timeout : Bool
  deriving DecidableEq

/-- An MLTrainingReport (with or without a generated model), an MLTestingReport (PASSED or FAILED) or
an AIMLInferenceReport. -/
structure Report where
  run : RunId
  passed : Bool
  deriving DecidableEq

inductive Task
  | complete (succeeded : Bool)
  | cancel
  | suspend
  | resume
  | expire
  deriving DecidableEq

namespace Task

def status : Task → RunStatus
  | complete succeeded => if succeeded then .succeeded else .failed
  | cancel => .cancelled
  | _ => .failed

/-- What the requester of a run is told of its end: nothing of a cancel, nor of an inference that is
resolved. -/
def tells (kind : RunKind) (id : RunId) : Task → Option Notification
  | complete succeeded => if kind = .inference then none else some ⟨id, succeeded, false⟩
  | expire => some ⟨id, false, true⟩
  | _ => none

/-- `_notify_job_completion`: a destination that the outbox refuses gets nothing. -/
def notification (accepts : Str → Bool) (run : ExecutionRun) (id : RunId) (task : Task) :
    Option Notification :=
  if run.notificationUri.any accepts then task.tells run.kind id else none

def report (kind : RunKind) (id : RunId) : Task → Option Report
  | complete succeeded =>
    match kind with
    | .training | .validation => some ⟨id, succeeded⟩
    | .emulation | .inference => if succeeded then some ⟨id, true⟩ else none
  | expire => if kind = .validation then some ⟨id, false⟩ else none
  | _ => none

end Task

/-- What a transaction has made of the rows that it read, and what it will add. The ends are history
that the code does not keep. -/
structure Work where
  runs : RunId → Option ExecutionRun
  rows : ModelId → ModelLifecycle
  notifications : List Notification := []
  reports : List Report := []
  ends : List (RunId × Task) := []

namespace Work

variable (accepts : Str → Bool) (w : Work) (id : RunId) (run : ExecutionRun)

def setRun : Work := { w with runs := Function.update w.runs id (some run) }

def endRun (task : Task) : Work :=
  { w.setRun id { run with status := task.status } with
    notifications := w.notifications ++ (task.notification accepts run id).toList
    reports := w.reports ++ (task.report run.kind id).toList
    ends := w.ends ++ [(id, task)] }

/-- `_fire_model_event`, of an event that is no decision. -/
def fire (modelId : ModelId) (event : ModelLifecycleEvent) : Answer Work := do
  let row ← (w.rows modelId).fireModel event
  return { w with rows := Function.update w.rows modelId row }

/-- `_fire_if_legal`. -/
def fireIfLegal (modelId : ModelId) (event : ModelLifecycleEvent) : Work :=
  match w.fire modelId event with
  | .ok fired => fired
  | .error _ => w

def fireEnd (succeeded : Bool) : Answer Work :=
  match run.modelId, run.kind.event succeeded with
  | some modelId, some event => w.fire modelId event
  | _, _ => .ok w

def fireEndIfLegal : Work :=
  match run.modelId, run.kind.event false with
  | some modelId, some event => w.fireIfLegal modelId event
  | _, _ => w

/-- `complete_training`, `complete_validation`, `complete_emulation` and `resolve_inference`. -/
def complete (succeeded : Bool) : Answer Work :=
  if run.status = .running ∨ (run.status = .suspended ∧ run.kind.suspends) then
    (w.endRun accepts id run (.complete succeeded)).fireEnd run succeeded
  else refuse .trainingJobIllegalTransition
    s!"cannot complete a {run.kind.name} job in status {run.status.value run.kind}"

/-- `_release_training_model`. -/
def releaseTrainingModel : Work :=
  match run.modelId with
  | none => w
  | some modelId =>
    if (w.rows modelId).trainingJobId = some id then w.fireIfLegal modelId .trainingFailed else w

/-- `_cancel_training_job` on a run that is live, and the cancel of `modify_ml_testing_request`. The
other runs cannot be cancelled. A run that is not live is left alone; some routes refuse it. -/
def cancel : Answer Work :=
  if run.status.live = false then .ok w
  else
    let closed := w.endRun accepts id run .cancel
    match run.kind with
    | .training => .ok (closed.releaseTrainingModel id run)
    | .validation => closed.fireEnd run false
    | _ => .ok w

def suspend : Answer Work :=
  if run.kind.suspends = false then .ok w
  else if run.status = .running then .ok (w.setRun id { run with status := .suspended })
  else refuse .trainingJobIllegalTransition
    s!"cannot suspend a {run.kind.name} request in status {run.status.value run.kind}"

/-- `_resume_training_job`, and the resume of `modify_ml_testing_request`. -/
def resume (now : Int) : Work :=
  if run.kind.suspends ∧ run.status = .suspended then
    w.setRun id { run with status := .running, startedAt := now }
  else w

/-- The turn of a run in `_expire_overdue_jobs`. -/
def expire (now : Int) : Work :=
  if run.status = .running ∧ overdue run.startedAt run.timeoutSeconds now then
    (w.endRun accepts id run .expire).fireEndIfLegal run
  else w

def task (now : Int) (w : Work) (next : RunId × Task) : Answer Work :=
  match w.runs next.1 with
  | none => .ok w
  | some run =>
    match next.2 with
    | .complete succeeded => w.complete accepts next.1 run succeeded
    | .cancel => w.cancel accepts next.1 run
    | .suspend => w.suspend next.1 run
    | .resume => .ok (w.resume next.1 run now)
    | .expire => .ok (w.expire accepts next.1 run now)

end Work

/-- The transactions: a sweep works on the runs that its scans return, and a request on an ML update
on the training runs of the update. A route that sweeps first is a sweep and then itself. -/
inductive Call
  | sweep (scanned : List RunId)
  | complete (id : RunId) (succeeded : Bool)
  | cancel (ids : List RunId)
  | suspend (ids : List RunId)
  | resume (ids : List RunId)

def Call.tasks : Call → List (RunId × Task)
  | sweep scanned => scanned.map (·, .expire)
  | complete id succeeded => [(id, .complete succeeded)]
  | cancel ids => ids.map (·, .cancel)
  | suspend ids => ids.map (·, .suspend)
  | resume ids => ids.map (·, .resume)

structure Transaction where
  now : Int
  call : Call
  runs : RunId → Option ExecutionRun := fun _ => none
  rows : ModelId → Option (Row ModelLifecycle) := fun _ => none

namespace Transaction

variable (t : Transaction)

def row (m : ModelId) : ModelLifecycle := ((t.rows m).map (·.value)).getD {}

def ready : Bool := t.call.tasks.all fun next =>
  (t.runs next.1).any fun run => run.modelId.all fun m => (t.rows m).isSome

def models : List ModelId := t.call.tasks.filterMap fun next => (t.runs next.1).bind (·.modelId)

def work (accepts : Str → Bool) : Answer Work :=
  t.call.tasks.foldlM (Work.task accepts t.now) { runs := t.runs, rows := t.row }

end Transaction

structure State where
  runs : RunId → Option ExecutionRun
  rows : ModelId → Row ModelLifecycle
  notifications : List Notification := []
  reports : List Report := []
  ends : List (RunId × Task) := []
  transactions : List (Option Transaction) := []

inductive Act
  | arrive (now : Int) (call : Call)
  | readRun (transaction : Nat) (id : RunId)
  | readRow (transaction : Nat) (modelId : ModelId)
  | commit (transaction : Nat)
  | dies (transaction : Nat)

namespace State

variable (s : State)

def lifecycle (m : ModelId) : ModelLifecycle := (s.rows m).value

def transaction (i : Nat) : Option Transaction := s.transactions[i]?.join

def setTransaction (i : Nat) (transaction : Option Transaction) : State :=
  { s with transactions := s.transactions.set i transaction }

def endsOf (id : RunId) : List Task := (s.ends.filter (·.1 = id)).map (·.2)

def notificationsOf (id : RunId) : List Notification := s.notifications.filter (·.run = id)

def reportsOf (id : RunId) : List Report := s.reports.filter (·.run = id)

/-- Each lifecycle row that the transaction writes still has the version at which it was read. -/
def fresh (t : Transaction) (w : Work) : Bool := t.models.all fun m =>
  w.rows m = t.row m || (t.rows m).any fun row => (s.rows m).version = row.version

def apply (t : Transaction) (w : Work) : State :=
  { s with
    runs := fun id =>
      match s.runs id, t.runs id, w.runs id with
      | some current, some held, some next => some (current.write held next)
      | current, _, _ => current
    rows := fun m =>
      if m ∈ t.models ∧ w.rows m ≠ t.row m then ⟨w.rows m, (s.rows m).version + 1⟩ else s.rows m
    notifications := s.notifications ++ w.notifications
    reports := s.reports ++ w.reports
    ends := s.ends ++ w.ends }

/-- A transaction that is refused, or that finds a lifecycle row it writes at another version, changes
nothing. -/
def finish (accepts : Str → Bool) (i : Nat) (t : Transaction) : State :=
  match t.work accepts with
  | .error _ => s.setTransaction i none
  | .ok w => if s.fresh t w then (s.apply t w).setTransaction i none else s.setTransaction i none

def act (accepts : Str → Bool) : Act → Option State
  | .arrive now call => some { s with transactions := s.transactions ++ [some { now, call }] }
  | .readRun i id => do
    let t ← s.transaction i
    let run ← s.runs id
    if t.runs id = none then
      some (s.setTransaction i (some { t with runs := Function.update t.runs id (some run) }))
    else none
  | .readRow i m => do
    let t ← s.transaction i
    if t.rows m = none then
      some (s.setTransaction i (some { t with rows := Function.update t.rows m (some (s.rows m)) }))
    else none
  | .commit i => do
    let t ← s.transaction i
    if t.ready then some (s.finish accepts i t) else none
  | .dies i => some (s.setTransaction i none)

def Step (accepts : Str → Bool) (s : State) (act : Act) (s' : State) : Prop :=
  s.act accepts act = some s'

end State

end Smo.Aimgf.Races
