import Smo.Aimgf.StateMachine
import Smo.Shared.Errors
import Smo.Shared.Str
import Mathlib.Logic.Function.Basic

/-! AIMgF's rows, as far as the lifecycle of a model depends on them (`aimgf/app/models.py`), and
the events fired on the lifecycle row (`aimgf/app/main.py`). Times are in microseconds. -/
namespace Smo.Aimgf

abbrev ModelId := Nat
abbrev GroupId := Nat
abbrev JobId := Nat

/-- The lifecycle row of a model; a model without one reads as the row that is created for it. With
it stand the states that the transitions of its runtime led to, oldest first. -/
structure ModelLifecycle where
  modelLifecycleState : ModelLifecycleState := .registered
  runtimeLifecycleState : RuntimeLifecycleState := .notDeployed
  trainingJobId : Option JobId := none
  nfDeploymentId : Option Nat := none
  trainingApproved : Bool := false
  validationApproved : Bool := false
  runtimeTransitions : List RuntimeLifecycleState := []
  deriving DecidableEq

inductive TrainingStatus
  | notStarted | inProgress | suspended | finished | failed | cancelled
  deriving DecidableEq, Repr

namespace TrainingStatus

def value : TrainingStatus → String
  | notStarted => "NOT_STARTED"
  | inProgress => "IN_PROGRESS"
  | suspended => "SUSPENDED"
  | finished => "FINISHED"
  | failed => "FAILED"
  | cancelled => "CANCELLED"

/-- `ACTIVE_TRAINING_STATUSES`. -/
def active : TrainingStatus → Bool
  | inProgress | suspended => true
  | _ => false

def ended : TrainingStatus → Bool
  | finished | failed | cancelled => true
  | _ => false

end TrainingStatus

structure TrainingJob where
  modelId : Option ModelId
  modelCoordinationGroupId : Option GroupId
  producerId : Str
  mlTrainingType : Str
  status : TrainingStatus := .notStarted
  cancelRequest : Bool := false
  suspendRequest : Bool := false
  mlUpdateProcessId : Option Nat
  startedAt : Int
  timeoutSeconds : Option Int
  nfDeploymentId : Option Nat
  deriving DecidableEq

inductive ValidationStatus
  | running | suspended | completed | failed | cancelled
  deriving DecidableEq, Repr

namespace ValidationStatus

def value : ValidationStatus → String
  | running => "RUNNING"
  | suspended => "SUSPENDED"
  | completed => "COMPLETED"
  | failed => "FAILED"
  | cancelled => "CANCELLED"

def active : ValidationStatus → Bool
  | running | suspended => true
  | _ => false

end ValidationStatus

structure ValidationJob where
  modelId : Option ModelId
  modelCoordinationGroupId : Option GroupId
  producerId : Str
  trainingJobId : Option JobId
  status : ValidationStatus := .running
  cancelRequest : Bool := false
  suspendRequest : Bool := false
  startedAt : Int
  timeoutSeconds : Option Int
  nfDeploymentId : Option Nat
  deriving DecidableEq

structure EmulationJob where
  modelId : ModelId
  producerId : Str
  status : ValidationStatus := .running
  startedAt : Int
  timeoutSeconds : Option Int
  nfDeploymentId : Option Nat
  deriving DecidableEq

inductive UpdateStatus
  | running | suspended | finished | failed | cancelled
  deriving DecidableEq, Repr

/-- An ML update: the `requestStatus` of its request and the `status` of its process, each of which
has one of the other. -/
structure MLUpdate where
  mlModelRefs : List ModelId
  requestStatus : UpdateStatus := .running
  processStatus : UpdateStatus := .running
  deriving DecidableEq

structure CertificationRecord where
  modelId : ModelId
  decision : ModelLifecycleEvent
  decidedBy : Option Str
  rationale : Option Str
  deriving DecidableEq

inductive Run
  | training (id : JobId)
  | validation (id : JobId)
  | emulation (id : JobId)
  deriving DecidableEq

/-- A lifecycle transition, with the certification record that is added along with it. That the
end of a run fired it is history that the code does not keep. -/
structure LifecycleTransition where
  modelId : ModelId
  fromState : ModelLifecycleState
  toState : ModelLifecycleState
  event : ModelLifecycleEvent
  record : Option CertificationRecord
  run : Option Run
  deriving DecidableEq

structure Database where
  lifecycle : ModelId → ModelLifecycle := fun _ => {}
  transitions : List LifecycleTransition := []
  trainingJobs : List TrainingJob := []
  validationJobs : List ValidationJob := []
  emulationJobs : List EmulationJob := []
  updates : List MLUpdate := []

/-- What a request learns outside the database: the clock, the models that MLMR knows, the
deployment that NFO makes for a run or a model, and the timeout that the environment sets. -/
structure Outside where
  now : Int
  known : ModelId → Bool
  deployment : Nat → Nat
  timeout : Int

abbrev Answer := Except Problem

def refuse {α : Type} (error : FrameworkError) (detail : String) : Answer α := .error ⟨error, detail⟩

/-- `_get_model`. -/
def getModel (o : Outside) (modelId : ModelId) : Answer Unit :=
  if o.known modelId then .ok () else refuse .modelNotFound "no such model"

/-- `_overdue`. -/
def overdue (startedAt : Int) (timeoutSeconds : Option Int) (now : Int) : Bool :=
  timeoutSeconds.any fun seconds => startedAt + seconds * 1000000 ≤ now

def ModelLifecycle.flagged (row : ModelLifecycle) : ModelLifecycleEvent → ModelLifecycle
  | .approveTraining => { row with trainingApproved := true }
  | .approveValidation => { row with validationApproved := true }
  | .createTraining => { row with trainingApproved := false, validationApproved := false }
  | _ => row

def ModelLifecycle.fireModel (row : ModelLifecycle) (event : ModelLifecycleEvent) :
    Answer ModelLifecycle :=
  match modelLifecycleFsm.fire row.modelLifecycleState event with
  | .error _ => refuse .lifecycleIllegalTransition
      s!"cannot fire {event.value} from model lifecycle state {row.modelLifecycleState.value}"
  | .ok newState => .ok ({ row with modelLifecycleState := newState }.flagged event)

def ModelLifecycle.fireRuntime (row : ModelLifecycle) (event : RuntimeLifecycleEvent) :
    Answer ModelLifecycle :=
  match runtimeLifecycleFsm.fire row.runtimeLifecycleState event with
  | .error _ => refuse .lifecycleIllegalTransition
      s!"cannot fire {event.value} from runtime lifecycle state {row.runtimeLifecycleState.value}"
  | .ok newState =>
    .ok { row with
      runtimeLifecycleState := newState
      runtimeTransitions := row.runtimeTransitions ++ [newState] }

namespace Database

def setLifecycle (db : Database) (modelId : ModelId) (row : ModelLifecycle) : Database :=
  { db with lifecycle := Function.update db.lifecycle modelId row }

def state (db : Database) (modelId : ModelId) : ModelLifecycleState :=
  (db.lifecycle modelId).modelLifecycleState

/-- `_fire_model_event`, with the run whose end fires the event. -/
def fireModelEvent (db : Database) (modelId : ModelId) (event : ModelLifecycleEvent)
    (decidedBy rationale : Option Str) (run : Option Run) : Answer Database :=
  if event.governance ∧ decidedBy = none then
    refuse .governanceDeciderRequired s!"{event.value} requires decidedBy"
  else do
    let row ← (db.lifecycle modelId).fireModel event
    let record : CertificationRecord := { modelId, decision := event, decidedBy, rationale }
    let transition : LifecycleTransition :=
      { modelId, fromState := db.state modelId, toState := row.modelLifecycleState, event, run
        record := if event.governance then some record else none }
    return { db.setLifecycle modelId row with transitions := db.transitions ++ [transition] }

/-- `_fire_if_legal`. -/
def fireIfLegal (db : Database) (modelId : Option ModelId) (event : ModelLifecycleEvent)
    (run : Run) : Database :=
  match modelId with
  | none => db
  | some modelId =>
    match db.fireModelEvent modelId event none none (some run) with
    | .ok fired => fired
    | .error _ => db

def certificationRecords (db : Database) : List CertificationRecord :=
  db.transitions.filterMap (·.record)

end Database

end Smo.Aimgf
