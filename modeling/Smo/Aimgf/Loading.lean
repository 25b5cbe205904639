import Smo.Aimgf.Serving

/-! The loading of models onto an inference function (`aimgf/app/nrm.py`), under requests that
interleave. A load reads the list of the function and the lifecycle rows of its models, brings the
runtimes up, and writes the rows and the list back in one commit. The row of the function has no
version, nor has that of a loading request. -/
namespace Smo.Aimgf.Loading

open Serving (Request)

inductive RequestStatus
  | notStarted | inProgress | suspended | finished | cancelled
  deriving DecidableEq, Repr

namespace RequestStatus

def value : RequestStatus → String
  | notStarted => "NOT_STARTED"
  | inProgress => "IN_PROGRESS"
  | suspended => "SUSPENDED"
  | finished => "FINISHED"
  | cancelled => "CANCELLED"

def closed : RequestStatus → Bool
  | finished | cancelled => true
  | _ => false

end RequestStatus

structure MLModelLoadingRequest where
  requestStatus : RequestStatus := .notStarted
  cancelRequest : Bool
  suspendRequest : Bool
  mlModelToLoadRefs : List ModelId
  deriving DecidableEq

structure RequestFlags where
  cancelRequest : Option Bool := none
  suspendRequest : Option Bool := none
  deriving DecidableEq

def RequestFlags.resumes (flags : RequestFlags) (row : MLModelLoadingRequest) : Bool :=
  flags.cancelRequest ≠ some true ∧ flags.suspendRequest = some false ∧
    row.requestStatus = .suspended

inductive ProcessStatus
  | running | finished
  deriving DecidableEq, Repr

structure MLModelLoadingProcess where
  status : ProcessStatus := .running
  progressPercentage : Nat := 0
  resultStateInfo : Option String := none
  loadingRequestRefs : List Nat
  loadingPolicyRefs : List Nat
  loadedMlModelRefs : List ModelId := []
  deriving DecidableEq

/-- The turn of a model in `_run_loading`: what it makes of the list and of the process. -/
def turn (count : Nat) (progress : List ModelId × MLModelLoadingProcess) (modelId : ModelId) :
    List ModelId × MLModelLoadingProcess :=
  let (loaded, process) := progress
  let through := process.loadedMlModelRefs ++ [modelId]
  (if modelId ∈ loaded then loaded else loaded ++ [modelId],
    { process with
      loadedMlModelRefs := through
      progressPercentage := 100 * through.length / count })

/-- `_run_loading`, as far as it concerns the list and the process. -/
def runLoading (refs modelIds : List ModelId) (process : MLModelLoadingProcess) :
    List ModelId × MLModelLoadingProcess :=
  let (loaded, process) := modelIds.foldl (turn modelIds.length) (refs, process)
  (loaded, { process with
    status := .finished
    progressPercentage := 100
    resultStateInfo := some "SUCCEEDED" })

/-- What starts a load: the trigger of a policy, a request that is made, or a request that is
modified, with its row as it was read. -/
inductive Start
  | trigger (policy : Nat)
  | create (cancelRequest suspendRequest : Bool)
  | modify (request : Nat) (row : MLModelLoadingRequest) (flags : RequestFlags)
  deriving DecidableEq

/-- It gets as far as `_run_loading`, if nothing refuses it. -/
def Start.runs : Start → Bool
  | .trigger _ => true
  | .create cancelRequest suspendRequest => !cancelRequest && !suspendRequest
  | .modify _ row flags => flags.resumes row

def Start.readsFunction : Start → Bool
  | .modify _ row flags => flags.resumes row
  | _ => true

/-- A load under way, with the models that it checks and the function's list as it read it. -/
structure Load where
  start : Start
  modelIds : List ModelId
  refs : Option (List ModelId) := none
  deriving DecidableEq

def Load.ready (load : Load) : Bool := load.refs.isSome || !load.start.readsFunction

inductive Refusal
  | problem (problem : Problem)
  | concurrentModification

/-- `_check_loadable`, and the turns of the models in `_run_loading`, on the rows as they were
read. -/
def turns (r : Request) : Except Refusal (List ModelLifecycle) :=
  (r.call.models.mapM fun m =>
    r.call.move r.outside m (((r.held m).map (·.value)).getD {})).mapError .problem

/-- The function may be deleted, and its requests and processes with it. The loads are known by
the requests for lifecycle rows that they make. -/
structure State where
  serving : Serving.State := {}
  function : Option (List ModelId) := some []
  processes : List MLModelLoadingProcess := []
  requests : List (Option MLModelLoadingRequest) := []
  loads : Nat → Option Load := fun _ => none

inductive Act
  | serve (act : Serving.Act)
  | trigger (outside : Outside) (policy : Nat) (modelIds : List ModelId)
  | create (outside : Outside) (modelIds : List ModelId) (cancelRequest suspendRequest : Bool)
  | modify (outside : Outside) (request : Nat) (flags : RequestFlags)
  | readFunction (load : Nat)
  | commit (load : Nat)
  | deleteFunction

namespace State

variable (s : State)

def request (i : Nat) : Option MLModelLoadingRequest := s.requests[i]?.join

/-- What a row that is added is refused with when the function that it names is gone. -/
def unreferenced : Refusal :=
  .problem ⟨.referencedResourceNotFound, "the request refers to something that does not exist"⟩

def addRequest (row : MLModelLoadingRequest) : Except Refusal State :=
  if s.function = none then .error unreferenced
  else .ok { s with requests := s.requests ++ [some row] }

def writeRequest (i : Nat) (row next : MLModelLoadingRequest) : Except Refusal State :=
  match s.request i with
  | none => if next = row then .ok s else .error .concurrentModification
  | some current =>
    .ok { s with requests := s.requests.set i (some {
      requestStatus :=
        if next.requestStatus = row.requestStatus then current.requestStatus else next.requestStatus
      cancelRequest :=
        if next.cancelRequest = row.cancelRequest then current.cancelRequest else next.cancelRequest
      suspendRequest :=
        if next.suspendRequest = row.suspendRequest then current.suspendRequest
        else next.suspendRequest
      mlModelToLoadRefs := current.mlModelToLoadRefs }) }

/-- The commit of a load that has run: a list that is assigned as it was is not written. -/
def commitLoading (load : Load) (r : Request) (requestRefs policyRefs : List Nat) :
    Except Refusal State :=
  let refs := load.refs.getD []
  let (loaded, process) := runLoading refs load.modelIds
    { loadingRequestRefs := requestRefs, loadingPolicyRefs := policyRefs }
  if s.function = none then .error unreferenced
  else if s.serving.fresh r = false then .error .concurrentModification
  else .ok { s with
    serving := s.serving.apply r
    function := if loaded = refs then s.function else some loaded
    processes := s.processes ++ [process] }

/-- `modify_ml_model_loading_request`. -/
def modifyRequest (load : Load) (r : Request) (i : Nat) (row : MLModelLoadingRequest)
    (flags : RequestFlags) : Except Refusal State :=
  if row.requestStatus.closed then
    .error (.problem
      ⟨.trainingJobIllegalTransition, s!"loading request already {row.requestStatus.value}"⟩)
  else if flags.cancelRequest = some true then
    s.writeRequest i row { row with cancelRequest := true, requestStatus := .cancelled }
  else if flags.suspendRequest = some false ∧ row.requestStatus = .suspended then do
    let _ ← turns r
    let loaded ← s.commitLoading load r [i] []
    loaded.writeRequest i row { row with suspendRequest := false, requestStatus := .finished }
  else if flags.suspendRequest = some true then
    s.writeRequest i row { row with suspendRequest := true, requestStatus := .suspended }
  else .ok s

/-- `create_ml_model_loading_request`. -/
def createRequest (load : Load) (r : Request) (cancelRequest suspendRequest : Bool) :
    Except Refusal State := do
  let _ ← turns r
  let row : MLModelLoadingRequest :=
    { cancelRequest, suspendRequest, mlModelToLoadRefs := load.modelIds }
  if cancelRequest then s.addRequest { row with requestStatus := .cancelled }
  else if suspendRequest then s.addRequest { row with requestStatus := .suspended }
  else
    let loaded ← s.commitLoading load r [s.requests.length] []
    loaded.addRequest { row with requestStatus := .finished }

/-- `trigger_ml_model_loading_policy`. -/
def triggerPolicy (load : Load) (r : Request) (policy : Nat) : Except Refusal State := do
  let _ ← turns r
  s.commitLoading load r [] [policy]

def transaction (load : Load) (r : Request) : Except Refusal State :=
  match load.start with
  | .trigger policy => s.triggerPolicy load r policy
  | .create cancelRequest suspendRequest => s.createRequest load r cancelRequest suspendRequest
  | .modify i row flags => s.modifyRequest load r i row flags

def close (i : Nat) : State := { s with serving := s.serving.setRequest i none }

def finish (i : Nat) (load : Load) (r : Request) : State :=
  match s.transaction load r with
  | .ok committed => committed.close i
  | .error _ => s.close i

def begin (outside : Outside) (start : Start) (modelIds : List ModelId) : State :=
  { s with
    serving := { s.serving with
      requests := s.serving.requests ++ [some { outside, call := .load modelIds }] }
    loads := Function.update s.loads s.serving.requests.length (some { start, modelIds }) }

def commitsLoad : Serving.Act → Bool
  | .commit i => (s.loads i).isSome
  | _ => false

def act : Act → Option State
  | .serve act => do
    let serving ← s.serving.act act
    if s.commitsLoad act then none else some { s with serving }
  | .trigger outside policy modelIds => some (s.begin outside (.trigger policy) modelIds)
  | .create outside modelIds cancelRequest suspendRequest =>
    some (s.begin outside (.create cancelRequest suspendRequest) modelIds)
  | .modify outside i flags => do
    let row ← s.request i
    some (s.begin outside (.modify i row flags)
      (if flags.resumes row then row.mlModelToLoadRefs else []))
  | .readFunction i => do
    let load ← s.loads i
    let refs ← s.function
    if load.refs = none then
      some { s with loads := Function.update s.loads i (some { load with refs := some refs }) }
    else none
  | .commit i => do
    let load ← s.loads i
    let r ← s.serving.request i
    if r.ready && load.ready then some (s.finish i load r) else none
  | .deleteFunction =>
    some { s with function := none, processes := [], requests := s.requests.map fun _ => none }

def Step (s : State) (act : Act) (s' : State) : Prop := s.act act = some s'

end State

end Smo.Aimgf.Loading
