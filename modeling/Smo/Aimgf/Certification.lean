import Smo.Aimgf.Training

/-! The rest of a model's certification path: validation and emulation runs, the timeout sweep, the
decisions on the model and its serving runtime, and the transactions of all of these
(`aimgf/app/main.py`, `aimgf/app/nrm.py`). -/
namespace Smo.Aimgf

structure ValidationRequest where
  modelId : Option ModelId
  modelCoordinationGroupId : Option GroupId := none
  producerId : Str
  trainingJobId : Option JobId := none
  timeoutSeconds : Option Int := none

structure EmulationRequest where
  modelId : ModelId
  producerId : Str
  timeoutSeconds : Option Int := none

def ValidationJob.close (job : ValidationJob) (status : ValidationStatus) : ValidationJob :=
  { job with status, nfDeploymentId := none }

def EmulationJob.close (job : EmulationJob) (status : ValidationStatus) : EmulationJob :=
  { job with status, nfDeploymentId := none }

namespace Database

def setValidation (db : Database) (id : JobId) (job : ValidationJob) : Database :=
  { db with validationJobs := db.validationJobs.set id job }

def setEmulation (db : Database) (id : JobId) (job : EmulationJob) : Database :=
  { db with emulationJobs := db.emulationJobs.set id job }

def addValidation (o : Outside) (db : Database) (body : ValidationRequest) : Database :=
  let job : ValidationJob :=
    { modelId := body.modelId
      modelCoordinationGroupId := body.modelCoordinationGroupId
      producerId := body.producerId
      trainingJobId := body.trainingJobId
      startedAt := o.now
      timeoutSeconds := some (body.timeoutSeconds.getD o.timeout)
      nfDeploymentId := some (o.deployment db.validationJobs.length) }
  { db with validationJobs := db.validationJobs ++ [job] }

/-- `_start_validation`. -/
def startValidation (o : Outside) (db : Database) (body : ValidationRequest) : Answer Database :=
  if body.modelId.isNone = body.modelCoordinationGroupId.isNone then
    refuse .coordinationGroupMismatch ""
  else
    match body.modelId with
    | none => .ok (db.addValidation o body)
    | some modelId => do
      getModel o modelId
      if db.state modelId ≠ .trained then
        refuse .lifecycleIllegalTransition
          s!"cannot request validation for a model in state {(db.state modelId).value}"
      else if (db.lifecycle modelId).trainingApproved = false then
        refuse .trainingNotApproved
          "an operator must advance(APPROVE_TRAINING, decidedBy) before validation can start"
      else (db.addValidation o body).fireModelEvent modelId .createValidation none none none

/-- `complete_validation`. -/
def completeValidation (db : Database) (id : JobId) (succeeded : Bool) : Answer Database :=
  match db.validationJobs[id]? with
  | none => refuse .validationJobNotFound "no such validation job"
  | some job =>
    if job.status.active = false then
      refuse .trainingJobIllegalTransition
        s!"cannot complete a validation job in status {job.status.value}"
    else
      let closed := db.setValidation id (job.close (if succeeded then .completed else .failed))
      let event := if succeeded then .validationComplete else .validationFailed
      match job.modelId with
      | none => .ok closed
      | some modelId => closed.fireModelEvent modelId event none none (some (.validation id))

/-- `modify_ml_testing_request`. -/
def modifyMlTestingRequest (o : Outside) (db : Database) (id : JobId)
    (cancelRequest suspendRequest : Option Bool) : Answer Database :=
  match db.validationJobs[id]? with
  | none => refuse .nrmObjectNotFound "no such MLTestingRequest"
  | some job =>
    if cancelRequest = some true then
      if job.status.active = false then
        refuse .trainingJobIllegalTransition
          s!"cannot cancel a testing request in status {job.status.value}"
      else
        let closed := db.setValidation id { job.close .cancelled with cancelRequest := true }
        match job.modelId with
        | none => .ok closed
        | some modelId =>
          closed.fireModelEvent modelId .validationFailed none none (some (.validation id))
    else if suspendRequest = some true then
      if job.status = .running then
        .ok (db.setValidation id { job with status := .suspended, suspendRequest := true })
      else refuse .trainingJobIllegalTransition
        s!"cannot suspend a testing request in status {job.status.value}"
    else if suspendRequest = some false ∧ job.status = .suspended then
      .ok (db.setValidation id
        { job with status := .running, suspendRequest := false, startedAt := o.now })
    else .ok db

/-- `request_emulation`. -/
def requestEmulation (o : Outside) (db : Database) (body : EmulationRequest) : Answer Database := do
  getModel o body.modelId
  if db.state body.modelId ≠ .validated then
    refuse .lifecycleIllegalTransition
      s!"cannot request emulation for a model in state {(db.state body.modelId).value}"
  else if (db.lifecycle body.modelId).validationApproved = false then
    refuse .validationNotApproved
      "an operator must advance(APPROVE_VALIDATION, decidedBy) before emulation can start"
  else
    let job : EmulationJob :=
      { modelId := body.modelId
        producerId := body.producerId
        startedAt := o.now
        timeoutSeconds := some (body.timeoutSeconds.getD o.timeout)
        nfDeploymentId := some (o.deployment db.emulationJobs.length) }
    let added := { db with emulationJobs := db.emulationJobs ++ [job] }
    added.fireModelEvent body.modelId .createEmulation none none none

/-- `complete_emulation`. -/
def completeEmulation (db : Database) (id : JobId) (succeeded : Bool) : Answer Database :=
  match db.emulationJobs[id]? with
  | none => refuse .emulationJobNotFound "no such emulation job"
  | some job =>
    if job.status ≠ .running then
      refuse .trainingJobIllegalTransition
        s!"cannot complete an emulation job in status {job.status.value}"
    else
      let closed := db.setEmulation id (job.close (if succeeded then .completed else .failed))
      let event := if succeeded then .emulationComplete else .emulationFailed
      closed.fireModelEvent job.modelId event none none (some (.emulation id))

/-- A validation run's turn in `_expire_overdue_jobs`. -/
def expireValidation (o : Outside) (db : Database) (id : JobId) : Database :=
  match db.validationJobs[id]? with
  | none => db
  | some job =>
    if job.status = .running ∧ overdue job.startedAt job.timeoutSeconds o.now then
      (db.setValidation id (job.close .failed)).fireIfLegal job.modelId .validationFailed
        (.validation id)
    else db

/-- An emulation run's turn in `_expire_overdue_jobs`. -/
def expireEmulation (o : Outside) (db : Database) (id : JobId) : Database :=
  match db.emulationJobs[id]? with
  | none => db
  | some job =>
    if job.status = .running ∧ overdue job.startedAt job.timeoutSeconds o.now then
      (db.setEmulation id (job.close .failed)).fireIfLegal (some job.modelId) .emulationFailed
        (.emulation id)
    else db

/-- `_expire_overdue_jobs`, without the inference jobs. -/
def expireOverdueJobs (o : Outside) (db : Database) : Database :=
  let trained := (List.range db.trainingJobs.length).foldl (expireTraining o) db
  let validated := (List.range db.validationJobs.length).foldl (expireValidation o) trained
  (List.range db.emulationJobs.length).foldl (expireEmulation o) validated

end Database

namespace ModelLifecycle

/-- `_terminate_runtime`. -/
def terminateRuntime (row : ModelLifecycle) : Answer ModelLifecycle := do
  let terminating ← row.fireRuntime .requestTermination
  terminating.fireRuntime .terminationComplete

/-- `_deploy_runtime`, with the deployment that NFO makes. -/
def deployRuntime (row : ModelLifecycle) (deployment : Nat) : Answer ModelLifecycle :=
  if row.modelLifecycleState.cleared = false then
    refuse .modelNotCertified
      s!"cannot deploy a runtime for a model in state {row.modelLifecycleState.value}"
  else do
    let requested ← row.fireRuntime .requestDeployment
    { requested with nfDeploymentId := some deployment }.fireRuntime .deploymentComplete

/-- `_refuse_end_of_life`. -/
def refuseEndOfLife (row : ModelLifecycle) (action : String) : Answer Unit :=
  if row.modelLifecycleState.endOfLife then
    refuse .lifecycleIllegalTransition
      s!"cannot {action} the runtime of a {row.modelLifecycleState.value} model"
  else .ok ()

/-- `_activate_runtime`. -/
def activateRuntime (row : ModelLifecycle) : Answer ModelLifecycle := do
  row.refuseEndOfLife "activate"
  let activating ← row.fireRuntime .activate
  activating.fireRuntime .activationComplete

/-- `scale_model_runtime`. -/
def scaleRuntime (row : ModelLifecycle) : Answer ModelLifecycle := do
  row.refuseEndOfLife "scale"
  let scaling ← row.fireRuntime .requestScale
  scaling.fireRuntime .scaleComplete

def retireRuntime (row : ModelLifecycle) : Answer ModelLifecycle :=
  if row.runtimeLifecycleState.terminable then row.terminateRuntime else .ok row

end ModelLifecycle

/-- `_JOB_ROUTE_FOR_EVENT`. -/
def jobRouteForEvent : ModelLifecycleEvent → String
  | .createTraining => "POST /training-jobs"
  | .trainingComplete => "POST /training-jobs/\x7bid\x7d/complete"
  | .trainingFailed => "POST /training-jobs/\x7bid\x7d/complete or DELETE /training-jobs/\x7bid\x7d"
  | .createValidation => "POST /validation-jobs"
  | .validationComplete | .validationFailed => "POST /validation-jobs/\x7bid\x7d/complete"
  | .createEmulation => "POST /emulation-jobs"
  | .emulationComplete | .emulationFailed => "POST /emulation-jobs/\x7bid\x7d/complete"
  | _ => ""

namespace Database

/-- `advance_model_lifecycle`, by a caller that is an rApp or is not. -/
def advanceModelLifecycle (o : Outside) (db : Database) (rapp : Bool) (modelId : ModelId)
    (event : ModelLifecycleEvent) (decidedBy rationale : Option Str) : Answer Database :=
  if rapp then
    refuse .roleNotPermitted
      ("an rApp cannot advance a model's lifecycle: " ++
        "governance and end-of-life decisions are an operator's")
  else if event.advanceable = false then
    refuse .schemaValidationFailed
      (s!"{event.value} is job-driven and cannot be advanced directly; use " ++
        jobRouteForEvent event)
  else do
    getModel o modelId
    let fired ← db.fireModelEvent modelId event decidedBy rationale none
    if event = .retire then
      let row ← (fired.lifecycle modelId).retireRuntime
      return fired.setLifecycle modelId row
    else return fired

def moveRuntime (db : Database) (modelId : ModelId)
    (move : ModelLifecycle → Answer ModelLifecycle) : Answer Database := do
  let row ← move (db.lifecycle modelId)
  return db.setLifecycle modelId row

end Database

/-- A transaction of AIMgF. A route that first runs `_expire_overdue_jobs`, which commits on its own,
is that transaction and then its own. -/
inductive Call
  | sweep
  | startTraining (body : TrainingRequest)
  | completeTraining (id : JobId) (succeeded : Bool)
  | cancelTraining (id : JobId)
  | deleteMlTrainingRequest (id : JobId)
  | suspendTraining (id : JobId)
  | resumeTraining (id : JobId)
  | modifyMlTrainingRequest (id : JobId) (cancelRequest suspendRequest : Option Bool)
  | reportBreach (retrainPropagation : Str) (memberModelIds : List ModelId)
  | createMlUpdateRequest (requestSource : Str) (mlModelRefList : List ModelId)
  | modifyMlUpdateRequest (id : Nat) (cancelRequest suspendRequest : Option Bool)
  | startValidation (body : ValidationRequest)
  | completeValidation (id : JobId) (succeeded : Bool)
  | modifyMlTestingRequest (id : JobId) (cancelRequest suspendRequest : Option Bool)
  | requestEmulation (body : EmulationRequest)
  | completeEmulation (id : JobId) (succeeded : Bool)
  | advance (rapp : Bool) (modelId : ModelId) (event : ModelLifecycleEvent)
    (decidedBy rationale : Option Str)
  | deployRuntime (modelId : ModelId)
  | activateRuntime (modelId : ModelId)
  | scaleRuntime (modelId : ModelId)
  | terminateRuntime (modelId : ModelId)

/-- Exactly one target; `request_training` and `create_ml_training_request` check it. -/
def requestTraining (o : Outside) (db : Database) (body : TrainingRequest) : Answer Database :=
  if body.modelId.isNone = body.modelCoordinationGroupId.isNone then
    refuse .coordinationGroupMismatch ""
  else db.startTraining o body none

def Call.run (o : Outside) (db : Database) : Call → Answer Database
  | .sweep => .ok (db.expireOverdueJobs o)
  | .startTraining body => requestTraining o db body
  | .completeTraining id succeeded => db.completeTraining id succeeded
  | .cancelTraining id => db.cancelTraining id
  | .deleteMlTrainingRequest id => .ok (db.deleteMlTrainingRequest id)
  | .suspendTraining id => db.suspendTraining id
  | .resumeTraining id => db.resumeTraining o id
  | .modifyMlTrainingRequest id cancel suspend => db.modifyMlTrainingRequest o id cancel suspend
  | .reportBreach propagation members => db.reportBreach o propagation members
  | .createMlUpdateRequest source models => db.createMlUpdateRequest o source models
  | .modifyMlUpdateRequest id cancel suspend => db.modifyMlUpdateRequest o id cancel suspend
  | .startValidation body => db.startValidation o body
  | .completeValidation id succeeded => db.completeValidation id succeeded
  | .modifyMlTestingRequest id cancel suspend => db.modifyMlTestingRequest o id cancel suspend
  | .requestEmulation body => db.requestEmulation o body
  | .completeEmulation id succeeded => db.completeEmulation id succeeded
  | .advance rapp modelId event decidedBy rationale =>
    db.advanceModelLifecycle o rapp modelId event decidedBy rationale
  | .deployRuntime modelId => do
    getModel o modelId
    db.moveRuntime modelId (·.deployRuntime (o.deployment modelId))
  | .activateRuntime modelId => db.moveRuntime modelId (·.activateRuntime)
  | .scaleRuntime modelId => db.moveRuntime modelId (·.scaleRuntime)
  | .terminateRuntime modelId => db.moveRuntime modelId (·.terminateRuntime)

/-- A transaction that a call to another module interrupts, that refuses something it names there, or
whose process dies is not committed. -/
structure Transaction where
  outside : Outside
  call : Call
  interrupted : Bool := false

def serve (db : Database) (t : Transaction) : Database :=
  if t.interrupted then db
  else
    match t.call.run t.outside db with
    | .ok committed => committed
    | .error _ => db

def Step (db : Database) (t : Transaction) (db' : Database) : Prop := serve db t = db'

end Smo.Aimgf
