import Smo.Aimgf.Models

/-! Training runs: how one starts, ends, is suspended and resumed, the timeout sweep over them, the
retraining of a group and the ML updates (`aimgf/app/main.py`, `aimgf/app/nrm.py`). -/
namespace Smo.Aimgf

structure TrainingRequest where
  modelId : Option ModelId
  modelCoordinationGroupId : Option GroupId := none
  producerId : Str
  mlTrainingType : Option Str := none
  timeoutSeconds : Option Int := none

def initialTraining : Str := "INITIAL_TRAINING".toList

def reTraining : Str := "RE_TRAINING".toList

def fineTuning : Str := "FINE_TUNING".toList

def TrainingJob.close (job : TrainingJob) (status : TrainingStatus) : TrainingJob :=
  { job with status, nfDeploymentId := none }

namespace Database

def setTraining (db : Database) (id : JobId) (job : TrainingJob) : Database :=
  { db with trainingJobs := db.trainingJobs.set id job }

def newTraining (o : Outside) (db : Database) (body : TrainingRequest) (mlTrainingType : Str)
    (mlUpdateProcessId : Option Nat) : TrainingJob where
  modelId := body.modelId
  modelCoordinationGroupId := body.modelCoordinationGroupId
  producerId := body.producerId
  mlTrainingType
  status := .inProgress
  mlUpdateProcessId
  startedAt := o.now
  timeoutSeconds := some (body.timeoutSeconds.getD o.timeout)
  nfDeploymentId := some (o.deployment db.trainingJobs.length)

def addTraining (db : Database) (job : TrainingJob) : Database :=
  { db with trainingJobs := db.trainingJobs ++ [job] }

/-- A run that is in progress when another supersedes it is cancelled; no event fires. -/
def supersede (db : Database) (modelId : ModelId) : Database :=
  match (db.lifecycle modelId).trainingJobId with
  | none => db
  | some existing =>
    match db.trainingJobs[existing]? with
    | none => db
    | some orphaned =>
      if orphaned.status = .inProgress then db.setTraining existing (orphaned.close .cancelled)
      else db

/-- `_start_training`. -/
def startTraining (o : Outside) (db : Database) (body : TrainingRequest)
    (mlUpdateProcessId : Option Nat) : Answer Database :=
  match body.modelId with
  | none =>
    .ok (db.addTraining
      (db.newTraining o body (body.mlTrainingType.getD reTraining) mlUpdateProcessId))
  | some modelId => do
    getModel o modelId
    let state := db.state modelId
    let firstType := if state = .registered then initialTraining else reTraining
    if state.trainable = false then
      refuse .lifecycleIllegalTransition s!"cannot (re)train a model in state {state.value}"
    else if body.mlTrainingType = some initialTraining ∧ state ≠ .registered then
      refuse .lifecycleIllegalTransition
        s!"INITIAL_TRAINING requires a REGISTERED model, not {state.value}"
    else
      let job := db.newTraining o body (body.mlTrainingType.getD firstType) mlUpdateProcessId
      let added := db.addTraining job
      let fired ← (if state = .training then .ok (added.supersede modelId)
        else added.fireModelEvent modelId .createTraining none none none)
      return fired.setLifecycle modelId
        { fired.lifecycle modelId with trainingJobId := some db.trainingJobs.length }

def setUpdate (db : Database) (id : Nat) (update : MLUpdate) : Database :=
  { db with updates := db.updates.set id update }

/-- `advance_ml_update_process`. -/
def advanceMlUpdateProcess (db : Database) (processId : Nat) : Database :=
  match db.updates[processId]? with
  | none => db
  | some update =>
    if update.processStatus ∈ [.finished, .failed, .cancelled] then db
    else
      let jobs := db.trainingJobs.filter (·.mlUpdateProcessId = some processId)
      if jobs.all (·.status.ended) then
        let processStatus :=
          if jobs.all (·.status = .finished) then UpdateStatus.finished else .failed
        db.setUpdate processId { update with processStatus, requestStatus := .finished }
      else db

def advanceUpdateOf (db : Database) (job : TrainingJob) : Database :=
  job.mlUpdateProcessId.elim db db.advanceMlUpdateProcess

/-- `complete_training`. -/
def completeTraining (db : Database) (id : JobId) (succeeded : Bool) : Answer Database :=
  match db.trainingJobs[id]? with
  | none => refuse .trainingJobNotFound "no such training job"
  | some job =>
    if job.status.active = false then
      refuse .trainingJobIllegalTransition
        s!"cannot complete a training job in status {job.status.value}"
    else do
      let closed := db.setTraining id (job.close (if succeeded then .finished else .failed))
      let event := if succeeded then .trainingComplete else .trainingFailed
      let fired ← (match job.modelId with
        | none => .ok closed
        | some modelId => closed.fireModelEvent modelId event none none (some (.training id)))
      return fired.advanceUpdateOf job

/-- `_release_training_model`: only the model's current run fails the model. -/
def releaseTrainingModel (db : Database) (id : JobId) (job : TrainingJob) : Database :=
  match job.modelId with
  | none => db
  | some modelId =>
    if (db.lifecycle modelId).trainingJobId = some id then
      db.fireIfLegal (some modelId) .trainingFailed (.training id)
    else db

/-- `_cancel_training_job`, without the update that the run belongs to. -/
def closeCancelled (db : Database) (id : JobId) (job : TrainingJob) : Database :=
  (db.setTraining id { job.close .cancelled with cancelRequest := true }).releaseTrainingModel id job

/-- `_cancel_training_job`. -/
def cancelTrainingJob (db : Database) (id : JobId) (job : TrainingJob) : Database :=
  (db.closeCancelled id job).advanceUpdateOf job

/-- `cancel_training`. -/
def cancelTraining (db : Database) (id : JobId) : Answer Database :=
  match db.trainingJobs[id]? with
  | none => .ok db
  | some job =>
    if job.status = .cancelled then .ok db
    else if job.status.active = false then
      refuse .trainingJobIllegalTransition
        s!"cannot cancel a training job in status {job.status.value}"
    else .ok (db.cancelTrainingJob id job)

/-- `delete_ml_training_request`. -/
def deleteMlTrainingRequest (db : Database) (id : JobId) : Database :=
  match db.trainingJobs[id]? with
  | none => db
  | some job => if job.status.active then db.cancelTrainingJob id job else db

def suspendTrainingJob (db : Database) (id : JobId) (job : TrainingJob) : Database :=
  db.setTraining id { job with status := .suspended, suspendRequest := true }

/-- `_resume_training_job`. -/
def resumeTrainingJob (o : Outside) (db : Database) (id : JobId) (job : TrainingJob) : Database :=
  db.setTraining id { job with status := .inProgress, suspendRequest := false, startedAt := o.now }

/-- `suspend_training`. -/
def suspendTraining (db : Database) (id : JobId) : Answer Database :=
  match db.trainingJobs[id]? with
  | none => refuse .trainingJobNotFound "no such training job"
  | some job =>
    if job.status = .inProgress then .ok (db.suspendTrainingJob id job)
    else refuse .trainingJobIllegalTransition
      s!"cannot suspend a training job in status {job.status.value}"

/-- `resume_training`. -/
def resumeTraining (o : Outside) (db : Database) (id : JobId) : Answer Database :=
  match db.trainingJobs[id]? with
  | none => refuse .trainingJobNotFound "no such training job"
  | some job =>
    if job.status = .suspended then .ok (db.resumeTrainingJob o id job)
    else refuse .trainingJobIllegalTransition
      s!"cannot resume a training job in status {job.status.value}"

/-- `_apply_training_flags`. -/
def applyTrainingFlags (o : Outside) (db : Database) (id : JobId) (job : TrainingJob)
    (cancel suspend : Option Bool) : Answer Database :=
  if cancel = some true then
    if job.status.active = false then
      refuse .trainingJobIllegalTransition
        s!"cannot cancel a training request in status {job.status.value}"
    else .ok (db.cancelTrainingJob id job)
  else if suspend = some true then
    if job.status = .inProgress then .ok (db.suspendTrainingJob id job)
    else refuse .trainingJobIllegalTransition
      s!"cannot suspend a training request in status {job.status.value}"
  else if suspend = some false ∧ job.status = .suspended then .ok (db.resumeTrainingJob o id job)
  else .ok db

/-- `modify_ml_training_request`, and `modify_ml_training_process` as far as the run. -/
def modifyMlTrainingRequest (o : Outside) (db : Database) (id : JobId)
    (cancelRequest suspendRequest : Option Bool) : Answer Database :=
  match db.trainingJobs[id]? with
  | none => refuse .nrmObjectNotFound "no such MLTrainingRequest"
  | some job => db.applyTrainingFlags o id job cancelRequest suspendRequest

/-- A training run's turn in `_expire_overdue_jobs`. -/
def expireTraining (o : Outside) (db : Database) (id : JobId) : Database :=
  match db.trainingJobs[id]? with
  | none => db
  | some job =>
    if job.status = .inProgress ∧ overdue job.startedAt job.timeoutSeconds o.now then
      ((db.setTraining id (job.close .failed)).fireIfLegal job.modelId .trainingFailed
        (.training id)).advanceUpdateOf job
    else db

/-- `_trigger_group_retrain`. -/
def triggerGroupRetrain (o : Outside) (db : Database) (memberModelIds : List ModelId) :
    Answer Database :=
  memberModelIds.foldlM (fun db memberId =>
    if o.known memberId = false then .ok db
    else if db.state memberId ≠ .promoted then .ok db
    else db.startTraining o
      { modelId := some memberId
        producerId := "aimgf:group-retrain".toList
        mlTrainingType := some reTraining } none) db

/-- What `create_ml_update_request` asks of each model before any run starts. -/
def updatable (o : Outside) (db : Database) (modelId : ModelId) : Answer Unit := do
  getModel o modelId
  let state := db.state modelId
  if state.trainable = false ∨ state = .training then
    refuse .lifecycleIllegalTransition s!"cannot update model {modelId} in state {state.value}"
  else .ok ()

def startUpdates (o : Outside) (requestSource : Str) (processId : Nat) (db : Database)
    (modelIds : List ModelId) : Answer Database :=
  modelIds.foldlM (fun db modelId => db.startTraining o
    { modelId := some modelId, producerId := requestSource, mlTrainingType := some fineTuning }
    (some processId)) db

/-- `create_ml_update_request`. -/
def createMlUpdateRequest (o : Outside) (db : Database) (requestSource : Str)
    (mlModelRefList : List ModelId) : Answer Database :=
  if mlModelRefList = [] then
    refuse .schemaValidationFailed "mLModelRefList must not be empty"
  else do
    let _ ← mlModelRefList.mapM (db.updatable o)
    let update : MLUpdate := { mlModelRefs := mlModelRefList }
    let added := { db with updates := db.updates ++ [update] }
    added.startUpdates o requestSource db.updates.length mlModelRefList

def updateJobs (db : Database) (processId : Nat) : List JobId :=
  (List.range db.trainingJobs.length).filter fun id =>
    db.trainingJobs[id]?.any (·.mlUpdateProcessId = some processId)

def cancelOfUpdate (db : Database) (id : JobId) : Database :=
  match db.trainingJobs[id]? with
  | none => db
  | some job => if job.status.active then db.closeCancelled id job else db

def suspendOfUpdate (o : Outside) (suspend : Bool) (db : Database) (id : JobId) : Answer Database :=
  match db.trainingJobs[id]? with
  | none => .ok db
  | some job => db.applyTrainingFlags o id job none (some suspend)

/-- `modify_ml_update_request`. -/
def modifyMlUpdateRequest (o : Outside) (db : Database) (id : Nat)
    (cancelRequest suspendRequest : Option Bool) : Answer Database :=
  match db.updates[id]? with
  | none => refuse .nrmObjectNotFound "no such MLUpdateRequest"
  | some update =>
    if update.requestStatus = .finished then
      refuse .trainingJobIllegalTransition "update request already FINISHED"
    else if update.requestStatus = .cancelled then
      refuse .trainingJobIllegalTransition "update request already CANCELLED"
    else if cancelRequest = some true then
      let closed := db.setUpdate id
        { update with requestStatus := .cancelled, processStatus := .cancelled }
      .ok ((db.updateJobs id).foldl cancelOfUpdate closed)
    else
      match suspendRequest with
      | none => .ok db
      | some suspend => do
        let flagged ← (db.updateJobs id).foldlM (suspendOfUpdate o suspend) db
        let status := if suspend then .suspended else .running
        return flagged.setUpdate id { update with requestStatus := status, processStatus := status }

end Database

/-- `should_trigger_group_retrain`; none where it raises. -/
def shouldTriggerGroupRetrain (retrainPropagation : Str) (memberCount breachedCount : Nat) :
    Option Bool :=
  if breachedCount = 0 then some false
  else if retrainPropagation = "ANY_MEMBER_TRIGGERS".toList then some true
  else if retrainPropagation = "MAJORITY_TRIGGERS".toList then
    some (memberCount < 2 * breachedCount)
  else none

/-- What `report_performance` starts for the group of a model whose report breached its floor. -/
def Database.reportBreach (o : Outside) (db : Database) (retrainPropagation : Str)
    (memberModelIds : List ModelId) : Answer Database :=
  match shouldTriggerGroupRetrain retrainPropagation memberModelIds.length 1 with
  | some true => db.triggerGroupRetrain o memberModelIds
  | some false | none => .ok db

end Smo.Aimgf
