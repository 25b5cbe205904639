import Smo.Aimgf.Certification
import Smo.Lib.Versioned

/-! The serving runtime of models and the inference on it, under requests that interleave
(`aimgf/app/main.py`, `aimgf/app/nrm.py`). A request reads the lifecycle rows it works on, each with
its version, and writes back those it changed in one commit, which fails when another request has
written one of them meanwhile. The version of a row without changes is not looked at. -/
namespace Smo.Aimgf

open Versioned (Row)

inductive InferenceState
  | running | completed | failed
  deriving DecidableEq, Repr

def InferenceState.value : InferenceState → String
  | running => "RUNNING"
  | completed => "COMPLETED"
  | failed => "FAILED"

structure InferenceJob where
  modelId : ModelId
  status : InferenceState := .running
  nfDeploymentId : Option Nat
  aimlInferenceFunctionId : Option Nat
  startedAt : Int
  timeoutSeconds : Option Int
  deriving DecidableEq

structure InferenceFunction where
  activated : Bool
  mlModelRefs : List ModelId
  deriving DecidableEq

structure InferenceRequest where
  modelId : ModelId
  aimlInferenceFunction : Option (Nat × Option InferenceFunction) := none
  timeoutSeconds : Option Int := none
  deriving DecidableEq

def InferenceRequest.checkFunction (body : InferenceRequest) : Answer Unit :=
  match body.aimlInferenceFunction with
  | none => .ok ()
  | some (_, none) => refuse .nrmObjectNotFound "no such AIMLInferenceFunction"
  | some (id, some function) =>
    if function.activated = false then refuse .inferenceFunctionNotActivated ""
    else if body.modelId ∈ function.mlModelRefs then .ok ()
    else refuse .modelNotLoaded
      s!"model {body.modelId} is not loaded on AIMLInferenceFunction {id}"

/-- `request_inference`, on the lifecycle row as it was read. -/
def requestInference (o : Outside) (row : ModelLifecycle) (body : InferenceRequest) :
    Answer InferenceJob := do
  getModel o body.modelId
  if row.modelLifecycleState = .retired then refuse .inferenceModelNotActive "model is RETIRED"
  else if row.runtimeLifecycleState ≠ .active then refuse .inferenceModelNotActive ""
  else do
    body.checkFunction
    return {
      modelId := body.modelId
      nfDeploymentId := row.nfDeploymentId
      aimlInferenceFunctionId := body.aimlInferenceFunction.map (·.1)
      startedAt := o.now
      timeoutSeconds := some (body.timeoutSeconds.getD o.timeout) }

/-- An event that a transaction of a run fires, with the training run that becomes the model's
current one if it starts one. -/
structure RunEvent where
  modelId : ModelId
  event : ModelLifecycleEvent
  trainingJobId : Option JobId := none
  driven : event.advanceable = false := by rfl

namespace ModelLifecycle

/-- The lifecycle row of a model after the events that a transaction of runs fires. -/
def fireRuns (row : ModelLifecycle) (modelId : ModelId) (events : List RunEvent) :
    Answer ModelLifecycle :=
  (events.filter (·.modelId = modelId)).foldlM (fun row fires => do
    let fired ← row.fireModel fires.event
    return { fired with trainingJobId := fires.trainingJobId.or fired.trainingJobId }) row

/-- `_check_loadable`, and the turn of a model in `_run_loading`. -/
def loadRuntime (row : ModelLifecycle) (modelId : ModelId) (deployment : Nat) :
    Answer ModelLifecycle :=
  if row.modelLifecycleState.cleared = false then
    refuse .modelNotCertified
      s!"cannot load model {modelId} in state {row.modelLifecycleState.value}"
  else if row.runtimeLifecycleState = .terminating ∨ row.runtimeLifecycleState = .terminated then
    refuse .lifecycleIllegalTransition
      s!"model {modelId}'s runtime is {row.runtimeLifecycleState.value}"
  else do
    let deployed ←
      (if row.runtimeLifecycleState = .notDeployed then row.deployRuntime deployment else .ok row)
    if deployed.runtimeLifecycleState = .deployed then deployed.activateRuntime else .ok deployed

/-- `advance_model_lifecycle`, as far as it concerns the row. -/
def advance (row : ModelLifecycle) (o : Outside) (rapp : Bool) (modelId : ModelId)
    (event : ModelLifecycleEvent) (decidedBy : Option Str) : Answer ModelLifecycle := do
  let db ← Database.advanceModelLifecycle o { lifecycle := fun _ => row } rapp modelId event decidedBy none
  return db.lifecycle modelId

end ModelLifecycle

namespace Serving

/-- The requests that write lifecycle rows, and the inference request, which reads one. `other` writes
a column that no check reads, or adds the row (`update_node_groups`, `get_model_lifecycle`). -/
inductive Call
  | deploy (modelId : ModelId)
  | activate (modelId : ModelId)
  | scale (modelId : ModelId)
  | terminate (modelId : ModelId)
  | load (modelIds : List ModelId)
  | infer (body : InferenceRequest)
  | advance (rapp : Bool) (modelId : ModelId) (event : ModelLifecycleEvent) (decidedBy : Option Str)
  | runs (events : List RunEvent)
  | other (modelId : ModelId)

namespace Call

def models : Call → List ModelId
  | deploy modelId | activate modelId | scale modelId | terminate modelId => [modelId]
  | load modelIds => modelIds
  | infer body => [body.modelId]
  | advance _ modelId _ _ => [modelId]
  | runs events => events.map (·.modelId)
  | other modelId => [modelId]

def move (o : Outside) (modelId : ModelId) (row : ModelLifecycle) : Call → Answer ModelLifecycle
  | deploy _ => do
    getModel o modelId
    row.deployRuntime (o.deployment modelId)
  | activate _ => row.activateRuntime
  | scale _ => row.scaleRuntime
  | terminate _ => row.terminateRuntime
  | load _ => do
    getModel o modelId
    row.loadRuntime modelId (o.deployment modelId)
  | infer body => do
    let _ ← requestInference o row body
    return row
  | advance rapp _ event decidedBy => row.advance o rapp modelId event decidedBy
  | runs events => row.fireRuns modelId events
  | other _ => .ok row

def writesOther : Call → Bool
  | other _ => true
  | _ => false

end Call

structure Request where
  outside : Outside
  call : Call
  held : ModelId → Option (Row ModelLifecycle) := fun _ => none

namespace Request

variable (r : Request)

def ready : Bool := r.call.models.all fun m => (r.held m).isSome

def accepted : Bool := r.call.models.all fun m =>
  (r.held m).all fun row => (r.call.move r.outside m row.value).isOk

def written (m : ModelId) : Option ModelLifecycle := do
  let row ← r.held m
  let next ← (r.call.move r.outside m row.value).toOption
  if m ∈ r.call.models ∧ (r.call.writesOther ∨ next ≠ row.value) then some next else none

def job : Option InferenceJob :=
  match r.call with
  | .infer body =>
    (r.held body.modelId).bind fun row => (requestInference r.outside row.value body).toOption
  | _ => none

end Request

/-- The rows of the models, where one that is not there yet reads as the row that is added for it, at
version 0; and the requests, as long as they are under way. -/
structure State where
  rows : ModelId → Row ModelLifecycle := fun _ => ⟨{}, 0⟩
  inferenceJobs : List InferenceJob := []
  requests : List (Option Request) := []

inductive Act
  | arrive (outside : Outside) (call : Call)
  | read (request : Nat) (modelId : ModelId)
  | commit (request : Nat)
  | dies (request : Nat)

namespace State

variable (s : State)

def lifecycle (m : ModelId) : ModelLifecycle := (s.rows m).value

def state (m : ModelId) : ModelLifecycleState := (s.lifecycle m).modelLifecycleState

def runtime (m : ModelId) : RuntimeLifecycleState := (s.lifecycle m).runtimeLifecycleState

def jobsOf (m : ModelId) : List InferenceJob := s.inferenceJobs.filter (·.modelId = m)

def request (i : Nat) : Option Request := s.requests[i]?.join

def setRequest (i : Nat) (request : Option Request) : State :=
  { s with requests := s.requests.set i request }

def fresh (r : Request) : Bool := r.call.models.all fun m =>
  (r.written m).isNone || (r.held m).all fun row => (s.rows m).version = row.version

def apply (r : Request) : State :=
  { s with
    rows := fun m =>
      match r.written m with
      | none => s.rows m
      | some next => ⟨next, (s.rows m).version + 1⟩
    inferenceJobs := s.inferenceJobs ++ r.job.toList }

/-- A request that refuses, or that finds a row it writes at another version, changes nothing. -/
def finish (i : Nat) (r : Request) : State :=
  if r.accepted && s.fresh r then (s.apply r).setRequest i none else s.setRequest i none

def act : Act → Option State
  | .arrive outside call => some { s with requests := s.requests ++ [some { outside, call }] }
  | .read i m => do
    let r ← s.request i
    if m ∈ r.call.models ∧ r.held m = none then
      some (s.setRequest i
        (some { r with held := fun other => if other = m then some (s.rows m) else r.held other }))
    else none
  | .commit i => do
    let r ← s.request i
    if r.ready then some (s.finish i r) else none
  | .dies i => some (s.setRequest i none)

def Step (s : State) (act : Act) (s' : State) : Prop := s.act act = some s'

end State

end Serving

end Smo.Aimgf
