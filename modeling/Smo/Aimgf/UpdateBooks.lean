import Mathlib.Data.List.Dedup
import Smo.Aimgf.EndOfLife
import Smo.Aimgf.LiveRun

/-! The books of the ML updates (`aimgf/app/nrm.py`): the reports that are written when an update is
over and the update functions that gain the models, beside the rows of the runs and the updates. -/
namespace Smo.Aimgf

structure MLUpdateReport where
  mlUpdateProcessId : Nat
  mlModelRefs : List ModelId
  deriving DecidableEq

/-- An update function. The models that it was made with are history that the code does not keep. -/
structure MLUpdateFunction where
  made : List ModelId
  mlModelRefs : List ModelId
  deriving DecidableEq

structure Books where
  db : Database := {}
  updateFunctions : List (Option MLUpdateFunction) := []
  functionRefs : List (Option Nat) := []
  reports : List MLUpdateReport := []

def MLUpdateFunction.gain (function : MLUpdateFunction) (models : List ModelId) :
    MLUpdateFunction :=
  { function with mlModelRefs := (function.mlModelRefs ++ models).dedup.mergeSort (· ≤ ·) }

namespace Books

def runsOf (b : Books) (processId : Nat) : List TrainingJob :=
  b.db.trainingJobs.filter (·.mlUpdateProcessId = some processId)

def succeeded (b : Books) (processId : Nat) : List ModelId :=
  ((b.runsOf processId).filter (·.status = .finished)).filterMap (·.modelId)

/-- `advance_ml_update_process`, without the capability in the report. -/
def advanceMlUpdateProcess (b : Books) (processId : Nat) : Books :=
  match b.db.updates[processId]? with
  | none => b
  | some update =>
    if update.processStatus ∈ [.finished, .failed, .cancelled] then b
    else if (b.runsOf processId).all (·.status.ended) = false then b
    else
      let models := b.succeeded processId
      { b with
        db := b.db.advanceMlUpdateProcess processId
        reports := b.reports ++ [{ mlUpdateProcessId := processId, mlModelRefs := models }]
        updateFunctions :=
          match b.functionRefs[processId]?.join with
          | none => b.updateFunctions
          | some function => b.updateFunctions.modify function (Option.map (·.gain models)) }

def advanceUpdateOf (b : Books) (job : TrainingJob) : Books :=
  job.mlUpdateProcessId.elim b b.advanceMlUpdateProcess

/-- `complete_training`. -/
def completeTraining (b : Books) (id : JobId) (succeeded : Bool) : Answer Books :=
  match b.db.trainingJobs[id]? with
  | none => refuse .trainingJobNotFound "no such training job"
  | some job =>
    if job.status.active = false then
      refuse .trainingJobIllegalTransition
        s!"cannot complete a training job in status {job.status.value}"
    else do
      let closed := b.db.setTraining id (job.close (if succeeded then .finished else .failed))
      let event := if succeeded then .trainingComplete else .trainingFailed
      let fired ← (match job.modelId with
        | none => .ok closed
        | some modelId => closed.fireModelEvent modelId event none none (some (.training id)))
      return { b with db := fired }.advanceUpdateOf job

/-- `_cancel_training_job`. -/
def cancelTrainingJob (b : Books) (id : JobId) (job : TrainingJob) : Books :=
  { b with db := b.db.closeCancelled id job }.advanceUpdateOf job

/-- `cancel_training`. -/
def cancelTraining (b : Books) (id : JobId) : Answer Books :=
  match b.db.trainingJobs[id]? with
  | none => .ok b
  | some job =>
    if job.status = .cancelled then .ok b
    else if job.status.active = false then
      refuse .trainingJobIllegalTransition
        s!"cannot cancel a training job in status {job.status.value}"
    else .ok (b.cancelTrainingJob id job)

/-- `delete_ml_training_request`. -/
def deleteMlTrainingRequest (b : Books) (id : JobId) : Books :=
  match b.db.trainingJobs[id]? with
  | none => b
  | some job => if job.status.active then b.cancelTrainingJob id job else b

/-- `modify_ml_training_request`, with `_apply_training_flags`. -/
def modifyMlTrainingRequest (o : Outside) (b : Books) (id : JobId)
    (cancelRequest suspendRequest : Option Bool) : Answer Books :=
  match b.db.trainingJobs[id]? with
  | none => refuse .nrmObjectNotFound "no such MLTrainingRequest"
  | some job =>
    if cancelRequest = some true then
      if job.status.active = false then
        refuse .trainingJobIllegalTransition
          s!"cannot cancel a training request in status {job.status.value}"
      else .ok (b.cancelTrainingJob id job)
    else do
      let db ← b.db.applyTrainingFlags o id job cancelRequest suspendRequest
      return { b with db }

/-- A training run's turn in `_expire_overdue_jobs`. -/
def expireTraining (o : Outside) (b : Books) (id : JobId) : Books :=
  match b.db.trainingJobs[id]? with
  | none => b
  | some job =>
    if job.status = .inProgress ∧ overdue job.startedAt job.timeoutSeconds o.now then
      let failed := b.db.setTraining id (job.close .failed)
      let fired := failed.fireIfLegal job.modelId .trainingFailed (.training id)
      { b with db := fired }.advanceUpdateOf job
    else b

/-- `_expire_overdue_jobs`, without the inference jobs. -/
def expireOverdueJobs (o : Outside) (b : Books) : Books :=
  let trained := (List.range b.db.trainingJobs.length).foldl (expireTraining o) b
  let validated :=
    (List.range b.db.validationJobs.length).foldl (Database.expireValidation o) trained.db
  { trained with
    db := (List.range b.db.emulationJobs.length).foldl (Database.expireEmulation o) validated }

def checkFunction (b : Books) : Option Nat → Answer Unit
  | none => .ok ()
  | some function =>
    if b.updateFunctions[function]?.join = none then
      refuse .nrmObjectNotFound s!"no such MLUpdateFunction {function}"
    else .ok ()

/-- `create_ml_update_request`. -/
def createMlUpdateRequest (o : Outside) (b : Books) (requestSource : Str)
    (mlModelRefList : List ModelId) (mlUpdateFunctionRef : Option Nat) : Answer Books :=
  if mlModelRefList = [] then
    refuse .schemaValidationFailed "mLModelRefList must not be empty"
  else do
    b.checkFunction mlUpdateFunctionRef
    let db ← b.db.createMlUpdateRequest o requestSource mlModelRefList
    return { b with db, functionRefs := b.functionRefs ++ [mlUpdateFunctionRef] }

/-- What a transaction makes of the books; one that ends no run changes the database alone. -/
def run (o : Outside) (b : Books) (mlUpdateFunctionRef : Option Nat) : Call → Answer Books
  | .sweep => .ok (b.expireOverdueJobs o)
  | .completeTraining id succeeded => b.completeTraining id succeeded
  | .cancelTraining id => b.cancelTraining id
  | .deleteMlTrainingRequest id => .ok (b.deleteMlTrainingRequest id)
  | .modifyMlTrainingRequest id cancel suspend => b.modifyMlTrainingRequest o id cancel suspend
  | .createMlUpdateRequest source models =>
    b.createMlUpdateRequest o source models mlUpdateFunctionRef
  | call => do
    let db ← call.run o b.db
    return { b with db }

inductive Act
  | transaction (t : Transaction) (mlUpdateFunctionRef : Option Nat := none)
  | createFunction (mlModelRef : List ModelId)
  | deleteFunction (function : Nat)

def serve (b : Books) : Act → Books
  | .transaction t mlUpdateFunctionRef =>
    if t.interrupted then b
    else
      match b.run t.outside mlUpdateFunctionRef t.call with
      | .ok committed => committed
      | .error _ => b
  | .createFunction models =>
    { b with
      updateFunctions := b.updateFunctions ++ [some { made := models, mlModelRefs := models }] }
  | .deleteFunction function =>
    { b with updateFunctions := b.updateFunctions.set function none }

def Step (b : Books) (act : Act) (b' : Books) : Prop := b.serve act = b'

end Books

end Smo.Aimgf

/-! When an ML update is over: what holds of its process, its request, its report and the function
that it names, and how the end of a run and what leaves the runs alone keep it. -/
namespace Smo.Aimgf

open Table

structure Progress where
  mlUpdateProcessId : Option Nat
  modelId : Option ModelId
  outcome : Option TrainingStatus
  deriving DecidableEq

def TrainingJob.progress (job : TrainingJob) : Progress where
  mlUpdateProcessId := job.mlUpdateProcessId
  modelId := job.modelId
  outcome := if job.status.active then none else some job.status

def Database.progress (db : Database) : List Progress := db.trainingJobs.map (·.progress)

def UpdateStatus.over : UpdateStatus → Bool
  | finished | failed | cancelled => true
  | _ => false

def MLUpdate.closed (update : MLUpdate) : Bool :=
  update.processStatus = .finished ∨ update.processStatus = .failed

namespace Books

variable (b : Books)

def runs (p : Nat) : List Progress := b.db.progress.filter (·.mlUpdateProcessId = some p)

def reportsOf (p : Nat) : List MLUpdateReport := b.reports.filter (·.mlUpdateProcessId = p)

def Updated (p : Nat) (m : ModelId) : Prop :=
  ∃ run ∈ b.runs p, run.outcome = some .finished ∧ run.modelId = some m

/-- The process is over when all runs have ended, as they have when it was cancelled, and FINISHED
when all have finished; then the request is over as well, and there is one report, of the models
that were updated. -/
structure Kept (p : Nat) (update : MLUpdate) : Prop where
  isOver : update.processStatus.over = true ↔ ∀ run ∈ b.runs p, run.outcome.isSome = true
  finished : update.processStatus = .finished ↔ ∀ run ∈ b.runs p, run.outcome = some .finished
  request : if update.closed then update.requestStatus = .finished
    else update.requestStatus = update.processStatus
  report : if update.closed then
      ∃ report, b.reportsOf p = [report] ∧ ∀ m, m ∈ report.mlModelRefs ↔ b.Updated p m
    else b.reportsOf p = []

def Gained (function : Nat) (row : MLUpdateFunction) : Prop := ∀ m, m ∈ row.mlModelRefs ↔
  m ∈ row.made ∨ ∃ p update, b.db.updates[p]? = some update ∧ update.closed = true ∧
    b.functionRefs[p]? = some (some function) ∧ b.Updated p m

structure Sound : Prop where
  kept : ∀ (p : Nat) (update : MLUpdate), b.db.updates[p]? = some update → b.Kept p update
  begun : ∀ run ∈ b.db.progress, run.outcome ≠ some .notStarted
  within : ∀ run ∈ b.db.progress, ∀ p, run.mlUpdateProcessId = some p → p < b.db.updates.length
  reported : ∀ report ∈ b.reports, report.mlUpdateProcessId < b.db.updates.length
  current : ∀ m i, (b.db.lifecycle m).trainingJobId = some i → i < b.db.progress.length
  refs : b.functionRefs.length = b.db.updates.length
  named : ∀ (p function : Nat), b.functionRefs[p]? = some (some function) →
    function < b.updateFunctions.length
  gained : ∀ (function : Nat) (row : MLUpdateFunction),
    b.updateFunctions[function]? = some (some row) → b.Gained function row

end Books

namespace Books

variable {b b' : Books} {db : Database} {p : Nat} {update : MLUpdate} {id : JobId}
  {job : TrainingJob} {m : ModelId}

theorem runs_congr (same : b'.db.progress = b.db.progress) (p : Nat) : b'.runs p = b.runs p := by
  unfold runs
  rw [same]

theorem Kept.congr (kept : b.Kept p update) (runs : b'.runs p = b.runs p)
    (reports : b'.reportsOf p = b.reportsOf p) : b'.Kept p update where
  isOver := runs ▸ kept.isOver
  finished := runs ▸ kept.finished
  request := kept.request
  report := by
    have report := kept.report
    unfold Updated at report ⊢
    rwa [runs, reports]

structure Quiet (db db' : Database) : Prop where
  progress : db'.progress = db.progress
  updates : db'.updates = db.updates
  current : ∀ m, (db'.lifecycle m).trainingJobId = (db.lifecycle m).trainingJobId

theorem Quiet.refl : Quiet db db := ⟨rfl, rfl, fun _ => rfl⟩

theorem Quiet.trans {db' db'' : Database} (first : Quiet db db') (second : Quiet db' db'') :
    Quiet db db'' :=
  ⟨second.progress.trans first.progress, second.updates.trans first.updates,
    fun m => (second.current m).trans (first.current m)⟩

theorem Quiet.of_jobs {db' : Database} (jobs : db'.trainingJobs = db.trainingJobs)
    (updates : db'.updates = db.updates)
    (current : ∀ m, (db'.lifecycle m).trainingJobId = (db.lifecycle m).trainingJobId) :
    Quiet db db' :=
  ⟨by rw [Database.progress, Database.progress, jobs], updates, current⟩

theorem Sound.of_same (sound : b.Sound) (progress : db.progress = b.db.progress)
    (updates : db.updates = b.db.updates)
    (current : ∀ m i, (db.lifecycle m).trainingJobId = some i → i < db.progress.length) :
    Sound { b with db } where
  kept p update is := (sound.kept p update (updates ▸ is)).congr (runs_congr progress p) rfl
  begun run mem := sound.begun run (progress ▸ mem)
  within run mem p is := by
    rw [updates]
    exact sound.within run (progress ▸ mem) p is
  reported report mem := by
    rw [updates]
    exact sound.reported report mem
  current := current
  refs := by rw [updates]; exact sound.refs
  named := sound.named
  gained function row is m := by
    have gained := sound.gained function row is m
    unfold Updated at gained ⊢
    rw [updates]
    have same : ∀ p, runs { b with db } p = b.runs p := runs_congr progress
    simpa only [same] using gained

theorem Sound.quiet (sound : b.Sound) (quiet : Quiet b.db db) : Sound { b with db } := by
  refine sound.of_same quiet.progress quiet.updates fun m i is => ?_
  rw [quiet.current] at is
  exact quiet.progress ▸ sound.current m i is

variable {run next : Progress} {function : Nat} {row : MLUpdateFunction} {models : List ModelId}

theorem runs_set (found : b.db.progress[id]? = some run)
    (progress : b'.db.progress = b.db.progress.set id next)
    (same : next.mlUpdateProcessId = run.mlUpdateProcessId) (apart : run.mlUpdateProcessId ≠ some p)
    : b'.runs p = b.runs p := by
  unfold runs
  rw [progress]
  exact filter_set found (by simpa using apart) (by simpa [same] using apart)

theorem Sound.begun_set (sound : b.Sound) (progress : db.progress = b.db.progress.set id next)
    (begun : next.outcome ≠ some .notStarted) :
    ∀ run ∈ db.progress, run.outcome ≠ some .notStarted := by
  intro run mem
  rw [progress] at mem
  rcases List.mem_or_eq_of_mem_set mem with before | rfl
  · exact sound.begun run before
  · exact begun

theorem Sound.within_set (sound : b.Sound) (found : b.db.progress[id]? = some run)
    (progress : db.progress = b.db.progress.set id next)
    (same : next.mlUpdateProcessId = run.mlUpdateProcessId) :
    ∀ run ∈ db.progress, ∀ p, run.mlUpdateProcessId = some p → p < b.db.updates.length := by
  intro other mem p is
  rw [progress] at mem
  rcases List.mem_or_eq_of_mem_set mem with before | rfl
  · exact sound.within other before p is
  · exact sound.within run (List.mem_of_getElem? found) p (same.symm.trans is)

theorem Gained.opened {next : MLUpdate} (gained : b.Gained function row)
    (found : b.db.updates[p]? = some update) (opened : update.closed = false)
    (closed : next.closed = false) (updates : b'.db.updates = b.db.updates.set p next)
    (refs : b'.functionRefs = b.functionRefs) (apart : ∀ q, q ≠ p → b'.runs q = b.runs q) :
    b'.Gained function row := by
  refine fun m => (gained m).trans (or_congr_right ⟨?_, ?_⟩)
  · rintro ⟨q, other, was, ends, names, updated⟩
    have differs : q ≠ p := by
      rintro rfl
      obtain rfl := Option.some.inj (found.symm.trans was)
      cases opened.symm.trans ends
    refine ⟨q, other, ?_, ends, refs ▸ names, ?_⟩
    · rw [updates, List.getElem?_set_ne (Ne.symm differs), was]
    · unfold Updated at updated ⊢
      rwa [apart q differs]
  · rintro ⟨q, other, now, ends, names, updated⟩
    rw [updates] at now
    rcases set_cases now with ⟨rfl, rfl⟩ | ⟨differs, was⟩
    · cases closed.symm.trans ends
    · refine ⟨q, other, was, ends, refs ▸ names, ?_⟩
      unfold Updated at updated ⊢
      rwa [← apart q differs]

theorem Sound.pauseUpdate {next : MLUpdate} (sound : b.Sound)
    (found : b.db.updates[p]? = some update)
    (goes : update.processStatus.over = false) (on : next.processStatus.over = false)
    (request : next.requestStatus = next.processStatus) :
    Sound { b with db := b.db.setUpdate p next } := by
  have closed : next.closed = false := by
    unfold MLUpdate.closed
    cases is : next.processStatus <;> simp_all [UpdateStatus.over]
  have before : update.closed = false := by
    unfold MLUpdate.closed
    cases is : update.processStatus <;> simp_all [UpdateStatus.over]
  have length : (b.db.updates.set p next).length = b.db.updates.length := List.length_set
  refine ⟨fun q other is => ?_, sound.begun, fun run mem q its => ?_, fun report mem => ?_,
    sound.current, ?_, sound.named, fun function row is => ?_⟩
  · rcases set_cases is with ⟨rfl, rfl⟩ | ⟨-, was⟩
    · have kept := sound.kept q update found
      refine ⟨?_, ?_, ?_, ?_⟩
      · rw [on, ← goes]
        exact kept.isOver
      · have both : other.processStatus = .finished ↔ update.processStatus = .finished := by
          constructor <;> intro is <;> simp_all [UpdateStatus.over]
        exact both.trans kept.finished
      · rw [if_neg (by simp [closed])]
        exact request
      · have report := kept.report
        rw [if_neg (by simp [before])] at report
        rw [if_neg (by simp [closed])]
        exact report
    · exact (sound.kept q other was).congr rfl rfl
  · exact length.symm ▸ sound.within run mem q its
  · exact length.symm ▸ sound.reported report mem
  · exact sound.refs.trans length.symm
  · exact (sound.gained function row is).opened found before closed rfl rfl fun _ _ => rfl

theorem Sound.adds (sound : b.Sound) (progress : db.progress = b.db.progress ++ [run])
    (group : run.mlUpdateProcessId = none) (starts : run.outcome = none)
    (updates : db.updates = b.db.updates)
    (current : ∀ m i, (db.lifecycle m).trainingJobId = some i → i < db.progress.length) :
    Sound { b with db } := by
  have same : ∀ p, runs { b with db } p = b.runs p := by
    intro p
    unfold runs
    rw [progress, List.filter_append]
    simp [group]
  refine ⟨fun p update is => ?_, fun row mem => ?_, fun row mem p is => ?_, ?_, current, ?_,
    sound.named, ?_⟩
  · exact (sound.kept p update (updates ▸ is)).congr (same p) rfl
  · rw [progress, List.mem_append, List.mem_singleton] at mem
    rcases mem with before | rfl
    · exact sound.begun row before
    · simp [starts]
  · rw [progress, List.mem_append, List.mem_singleton] at mem
    rw [updates]
    rcases mem with before | rfl
    · exact sound.within row before p is
    · cases group.symm.trans is
  · rw [updates]
    exact sound.reported
  · rw [updates]
    exact sound.refs
  · intro function row is m
    have gained := sound.gained function row is m
    unfold Updated at gained ⊢
    simpa only [updates, same] using gained

theorem Kept.goes (kept : b.Kept p update) (mem : run ∈ b.runs p) (live : run.outcome = none) :
    update.processStatus.over = false ∧ update.closed = false := by
  have goes : update.processStatus.over = false := by
    by_contra isOver
    have ended := kept.isOver.mp (by simpa using isOver) run mem
    simp [live] at ended
  refine ⟨goes, ?_⟩
  unfold MLUpdate.closed
  cases is : update.processStatus <;> simp_all [UpdateStatus.over]

theorem Kept.live (kept : b.Kept p update) {run' : Progress} (mem : run ∈ b.runs p)
    (live : run.outcome = none) (mem' : run' ∈ b'.runs p) (live' : run'.outcome = none)
    (reports : b'.reportsOf p = b.reportsOf p) : b'.Kept p update := by
  obtain ⟨goes, opened⟩ := kept.goes mem live
  have report := kept.report
  rw [if_neg (by simp [opened])] at report
  refine ⟨⟨fun isOver => ?_, fun ended => ?_⟩, ⟨fun finished => ?_, fun ended => ?_⟩, kept.request,
    ?_⟩
  · cases goes.symm.trans isOver
  · have none := ended run' mem'
    simp [live'] at none
  · rw [finished] at goes
    cases goes
  · cases live'.symm.trans (ended run' mem')
  · rw [if_neg (by simp [opened]), reports, report]

theorem Sound.endsOne (sound : b.Sound) (found : b.db.progress[id]? = some run)
    (live : run.outcome = none) (progress : db.progress = b.db.progress.set id next)
    (same : next.mlUpdateProcessId = run.mlUpdateProcessId)
    (begun : next.outcome ≠ some .notStarted) (updates : db.updates = b.db.updates)
    (current : ∀ m i, (db.lifecycle m).trainingJobId = some i → i < db.progress.length)
    (other : ∀ p, run.mlUpdateProcessId = some p →
      ∃ run' ∈ runs { b with db } p, run'.outcome = none) : Sound { b with db } := by
  have its : ∀ p, run.mlUpdateProcessId = some p → run ∈ b.runs p := fun p is =>
    List.mem_filter.mpr ⟨List.mem_of_getElem? found, by simpa using is⟩
  have apart : ∀ p, run.mlUpdateProcessId ≠ some p → runs { b with db } p = b.runs p :=
    fun p apart => runs_set found progress same apart
  refine ⟨fun p update is => ?_, sound.begun_set progress begun, fun row mem p is => ?_, ?_,
    current, ?_, sound.named, ?_⟩
  · have kept := sound.kept p update (updates ▸ is)
    by_cases mine : run.mlUpdateProcessId = some p
    · obtain ⟨run', mem', live'⟩ := other p mine
      exact kept.live (its p mine) live mem' live' rfl
    · exact kept.congr (apart p mine) rfl
  · rw [updates]
    exact sound.within_set found progress same row mem p is
  · rw [updates]
    exact sound.reported
  · rw [updates]
    exact sound.refs
  · intro function row is m
    refine (sound.gained function row is m).trans (or_congr_right (exists_congr fun p => ?_))
    rw [updates]
    refine exists_congr fun update => and_congr_right fun found' => and_congr_right fun closed => ?_
    have elsewhere : run.mlUpdateProcessId ≠ some p := fun mine => by
      have opened := ((sound.kept p update found').goes (its p mine) live).2
      cases opened.symm.trans closed
    unfold Updated
    rw [apart p elsewhere]

theorem runs_eq (p : Nat) : b.runs p = (b.runsOf p).map (·.progress) := by
  unfold runs runsOf Database.progress
  rw [List.filter_map]
  rfl

theorem ended_iff (begun : job.progress.outcome ≠ some .notStarted) :
    job.status.ended = true ↔ job.progress.outcome.isSome = true := by
  unfold TrainingJob.progress at begun ⊢
  cases is : job.status <;> simp_all [TrainingStatus.ended, TrainingStatus.active]

theorem finished_iff : job.status = .finished ↔ job.progress.outcome = some .finished := by
  unfold TrainingJob.progress
  cases is : job.status <;> simp [TrainingStatus.active]

theorem all_ended (begun : ∀ run ∈ b.db.progress, run.outcome ≠ some .notStarted) :
    (b.runsOf p).all (·.status.ended) = true ↔ ∀ run ∈ b.runs p, run.outcome.isSome = true := by
  rw [runs_eq, List.all_eq_true, List.forall_mem_map]
  refine forall_congr' fun job => forall_congr' fun mem => ended_iff (begun _ ?_)
  exact List.mem_map_of_mem (List.mem_of_mem_filter mem)

theorem all_finished : (b.runsOf p).all (·.status = .finished) = true ↔
    ∀ run ∈ b.runs p, run.outcome = some .finished := by
  rw [runs_eq, List.all_eq_true, List.forall_mem_map]
  refine forall_congr' fun job => forall_congr' fun _ => ?_
  rw [decide_eq_true_iff]
  exact finished_iff

theorem mem_succeeded : m ∈ b.succeeded p ↔ b.Updated p m := by
  unfold succeeded Updated
  rw [runs_eq]
  constructor
  · intro mem
    obtain ⟨job, its, names⟩ := List.mem_filterMap.mp mem
    obtain ⟨mem, finished⟩ := List.mem_filter.mp its
    exact ⟨_, List.mem_map_of_mem mem, finished_iff.mp (of_decide_eq_true finished), names⟩
  · rintro ⟨_, mem, finished, names⟩
    obtain ⟨job, its, rfl⟩ := List.mem_map.mp mem
    exact List.mem_filterMap.mpr
      ⟨job, List.mem_filter.mpr ⟨its, decide_eq_true (finished_iff.mpr finished)⟩, names⟩

/-- The update as `advance_ml_update_process` leaves it when all its runs have ended. -/
def closing (b : Books) (p : Nat) (update : MLUpdate) : MLUpdate :=
  { update with
    processStatus := if (b.runsOf p).all (·.status = .finished) then .finished else .failed
    requestStatus := .finished }

theorem over_iff : update.processStatus.over = true ↔
    update.processStatus ∈ [UpdateStatus.finished, .failed, .cancelled] := by
  cases update.processStatus <;> simp [UpdateStatus.over]

theorem advance_open (ended : (b.runsOf p).all (·.status.ended) = false) :
    b.advanceMlUpdateProcess p = b := by
  unfold advanceMlUpdateProcess
  split
  · rfl
  · split
    · rfl
    · rfl

theorem advance_closes (found : b.db.updates[p]? = some update)
    (goes : update.processStatus.over = false) (ended : (b.runsOf p).all (·.status.ended) = true) :
    b.advanceMlUpdateProcess p = { b with
      db := b.db.setUpdate p (b.closing p update)
      reports := b.reports ++ [{ mlUpdateProcessId := p, mlModelRefs := b.succeeded p }]
      updateFunctions :=
        match b.functionRefs[p]?.join with
        | none => b.updateFunctions
        | some function =>
          b.updateFunctions.modify function (Option.map (·.gain (b.succeeded p))) } := by
  have going : ¬ update.processStatus ∈ [UpdateStatus.finished, .failed, .cancelled] := by
    rw [← over_iff, goes]
    decide
  unfold advanceMlUpdateProcess
  simp only [found, if_neg going, ended, Bool.true_eq_false, if_false]
  congr 1
  unfold Database.advanceMlUpdateProcess
  simp only [found, if_neg going]
  exact if_pos ended

theorem mem_gain : m ∈ (row.gain models).mlModelRefs ↔ m ∈ row.mlModelRefs ∨ m ∈ models := by
  unfold MLUpdateFunction.gain
  rw [List.mem_mergeSort, List.mem_dedup, List.mem_append]

theorem gains {functions : List (Option MLUpdateFunction)} {ref : Option Nat} (is : (match ref with
      | none => functions
      | some function => functions.modify function (Option.map (·.gain models)))[function]? =
        some (some row)) :
    ∃ before, functions[function]? = some (some before) ∧ row.made = before.made ∧
      ∀ m, m ∈ row.mlModelRefs ↔ m ∈ before.mlModelRefs ∨ ref = some function ∧ m ∈ models := by
  cases ref with
  | none => exact ⟨row, is, rfl, fun m => by simp⟩
  | some named =>
    rw [List.getElem?_modify] at is
    split at is
    · next same =>
      subst same
      obtain ⟨entry, found, now⟩ := Option.map_eq_some_iff.mp is
      obtain ⟨before, rfl, rfl⟩ := Option.map_eq_some_iff.mp now
      exact ⟨before, found, rfl, fun m => by simp [mem_gain]⟩
    · next apart =>
      exact ⟨row, by simpa using is, rfl, fun m => by simp [apart]⟩

theorem Sound.closes (sound : b.Sound) (found : b.db.progress[id]? = some run)
    (live : run.outcome = none) (progress : db.progress = b.db.progress.set id next)
    (same : next.mlUpdateProcessId = run.mlUpdateProcessId)
    (begun : next.outcome ≠ some .notStarted) (updates : db.updates = b.db.updates)
    (current : ∀ m i, (db.lifecycle m).trainingJobId = some i → i < db.progress.length)
    (its : run.mlUpdateProcessId = some p)
    (ended : (runsOf { b with db } p).all (·.status.ended) = true) :
    (advanceMlUpdateProcess { b with db } p).Sound := by
  have mem : run ∈ b.runs p :=
    List.mem_filter.mpr ⟨List.mem_of_getElem? found, by simpa using its⟩
  have within := sound.within run (List.mem_of_getElem? found) p its
  obtain ⟨update, is⟩ : ∃ update, b.db.updates[p]? = some update :=
    ⟨_, List.getElem?_eq_getElem within⟩
  obtain ⟨goes, opened⟩ := (sound.kept p update is).goes mem live
  have allBegun := sound.begun_set progress begun
  have apart : ∀ q, q ≠ p → runs { b with db } q = b.runs q := fun q differs =>
    runs_set found progress same fun mine => differs (Option.some.inj (mine.symm.trans its))
  rw [advance_closes (updates ▸ is) goes ended]
  have length : (db.updates.set p (closing { b with db } p update)).length =
      b.db.updates.length := by
    rw [List.length_set, updates]
  have closed : (closing { b with db } p update).closed = true := by
    unfold closing MLUpdate.closed
    split <;> simp
  refine ⟨fun q other found' => ?_, allBegun, fun row mem q is' => ?_, fun report mem => ?_,
    current, sound.refs.trans length.symm, fun q function names => ?_, fun function row is' m => ?_⟩
  · rcases set_cases found' with ⟨rfl, rfl⟩ | ⟨differs, was⟩
    · refine ⟨⟨fun _ => (all_ended allBegun).mp ended, fun _ => ?_⟩, ?_, ?_, ?_⟩
      · unfold closing
        split <;> rfl
      · refine Iff.trans ?_ (all_finished (b := { b with db }))
        unfold closing
        split <;> simp_all
      · rw [if_pos closed]
        rfl
      · rw [if_pos closed]
        have none := (sound.kept q update is).report
        rw [if_neg (by simp [opened])] at none
        refine ⟨⟨q, succeeded { b with db } q⟩, ?_, fun m => mem_succeeded (b := { b with db })⟩
        unfold reportsOf at none ⊢
        rw [List.filter_append, none]
        simp
    · refine (sound.kept q other (updates ▸ was)).congr (apart q differs) ?_
      unfold reportsOf
      simp [Ne.symm differs]
  · exact length.symm ▸ sound.within_set found progress same row mem q is'
  · refine length.symm ▸ ?_
    rcases List.mem_append.mp mem with before | new
    · exact sound.reported report before
    · rw [List.mem_singleton.mp new]
      exact within
  · have bound := sound.named q function names
    split
    · exact bound
    · rwa [List.length_modify]
  · obtain ⟨before, was, made, gained⟩ := gains is'
    rw [gained m, made, sound.gained function before was m, or_assoc]
    refine or_congr_right ⟨?_, ?_⟩
    · rintro (⟨q, other, at_, ends, names, done⟩ | ⟨names, done⟩)
      · have differs : q ≠ p := by
          rintro rfl
          obtain rfl := Option.some.inj (is.symm.trans at_)
          cases opened.symm.trans ends
        refine ⟨q, other, ?_, ends, names, ?_⟩
        · exact (List.getElem?_set_ne (Ne.symm differs)).trans (updates ▸ at_)
        · unfold Updated at done ⊢
          rwa [← apart q differs] at done
      · exact ⟨p, _, List.getElem?_set_self (updates ▸ within), closed,
          Option.join_eq_some_iff.mp names, mem_succeeded.mp done⟩
    · rintro ⟨q, other, at_, ends, names, done⟩
      rcases set_cases at_ with ⟨rfl, -⟩ | ⟨differs, was⟩
      · exact .inr ⟨Option.join_eq_some_iff.mpr names, mem_succeeded.mpr done⟩
      · refine .inl ⟨q, other, updates ▸ was, ends, names, ?_⟩
        unfold Updated at done ⊢
        rwa [← apart q differs]

theorem progress_set (next : TrainingJob) :
    (db.setTraining id next).progress = db.progress.set id next.progress := List.map_set

theorem progress_get (found : db.trainingJobs[id]? = some job) :
    db.progress[id]? = some job.progress := by
  rw [Database.progress, List.getElem?_map, found, Option.map_some]

theorem Sound.ends (sound : b.Sound) (found : b.db.trainingJobs[id]? = some job)
    (active : job.status.active = true) (next : TrainingJob) (ended : next.status.ended = true)
    (same : next.mlUpdateProcessId = job.mlUpdateProcessId)
    (quiet : Quiet (b.db.setTraining id next) db) :
    (advanceUpdateOf { b with db } job).Sound := by
  have at_ := progress_get found
  have live : job.progress.outcome = none := if_pos active
  have progress : db.progress = b.db.progress.set id next.progress :=
    quiet.progress.trans (progress_set next)
  have begun : next.progress.outcome ≠ some .notStarted := by
    unfold TrainingJob.progress
    cases is : next.status <;> simp_all [TrainingStatus.ended, TrainingStatus.active]
  have current : ∀ m i, (db.lifecycle m).trainingJobId = some i → i < db.progress.length := by
    intro m i is
    rw [quiet.current] at is
    rw [progress, List.length_set]
    exact sound.current m i is
  unfold advanceUpdateOf
  cases its : job.mlUpdateProcessId with
  | none =>
    exact sound.endsOne at_ live progress same begun quiet.updates current fun p mine => by
      cases its.symm.trans mine
  | some p =>
    cases ends : (runsOf { b with db } p).all (·.status.ended) with
    | true => exact sound.closes at_ live progress same begun quiet.updates current its ends
    | false =>
      rw [Option.elim_some, advance_open ends]
      refine sound.endsOne at_ live progress same begun quiet.updates current fun q mine => ?_
      obtain rfl := Option.some.inj (its.symm.trans mine)
      obtain ⟨other, mem, lives⟩ := List.all_eq_false.mp ends
      refine ⟨other.progress, runs_eq (b := { b with db }) p ▸ List.mem_map_of_mem mem, ?_⟩
      have row : other.progress ∈ db.progress := List.mem_map_of_mem (List.mem_of_mem_filter mem)
      rw [ended_iff (sound.begun_set progress begun _ row)] at lives
      simpa using lives

section Frames

variable {o : Outside} {db' : Database}

variable {event : ModelLifecycleEvent}

theorem fireModelEvent_quiet {decidedBy rationale : Option Str} {by_ : Option Run}
    (fired : db.fireModelEvent m event decidedBy rationale by_ = .ok db') : Quiet db db' := by
  obtain ⟨jobs, others, names, -⟩ := fireModelEvent_frame fired
  obtain ⟨-, _, -, rfl⟩ := fireModelEvent_ok fired
  refine .of_jobs rfl rfl fun n => ?_
  by_cases own : n = m
  · exact own ▸ names
  · rw [others n own]

theorem fireIfLegal_quiet {modelId : Option ModelId} {by_ : Run} :
    Quiet db (db.fireIfLegal modelId event by_) := by
  unfold Database.fireIfLegal
  split
  · exact .refl
  · split
    · next fired => exact fireModelEvent_quiet fired
    · exact .refl

theorem releaseTrainingModel_quiet : Quiet db (db.releaseTrainingModel id job) := by
  unfold Database.releaseTrainingModel
  split
  · exact .refl
  · split
    · exact fireIfLegal_quiet
    · exact .refl

theorem setTraining_quiet {next : TrainingJob} (found : db.trainingJobs[id]? = some job)
    (same : next.progress = job.progress) : Quiet db (db.setTraining id next) := by
  refine ⟨?_, rfl, fun _ => rfl⟩
  rw [progress_set, same]
  obtain ⟨within, is⟩ := List.getElem?_eq_some_iff.mp (progress_get found)
  rw [← is, List.set_getElem_self]

theorem applyTrainingFlags_quiet {cancel suspend : Option Bool} (goes : cancel ≠ some true)
    (found : db.trainingJobs[id]? = some job)
    (flagged : db.applyTrainingFlags o id job cancel suspend = .ok db') : Quiet db db' := by
  unfold Database.applyTrainingFlags at flagged
  rw [if_neg goes] at flagged
  split at flagged
  · split at flagged
    · next runs =>
      cases flagged
      exact setTraining_quiet found (by simp [TrainingJob.progress, runs, TrainingStatus.active])
    · cases flagged
  · split at flagged
    · next resumes =>
      cases flagged
      exact setTraining_quiet found
        (by simp [TrainingJob.progress, resumes.2, TrainingStatus.active])
    · cases flagged
      exact .refl

theorem suspendTraining_quiet (suspended : db.suspendTraining id = .ok db') : Quiet db db' := by
  unfold Database.suspendTraining at suspended
  split at suspended
  · cases suspended
  · next job found =>
    split at suspended <;> cases suspended
    next runs =>
    exact setTraining_quiet found (by simp [TrainingJob.progress, runs, TrainingStatus.active])

theorem resumeTraining_quiet (resumed : db.resumeTraining o id = .ok db') : Quiet db db' := by
  unfold Database.resumeTraining at resumed
  split at resumed
  · cases resumed
  · next job found =>
    split at resumed <;> cases resumed
    next waits =>
    exact setTraining_quiet found (by simp [TrainingJob.progress, waits, TrainingStatus.active])

theorem moveRuntime_quiet {move : ModelLifecycle → Answer ModelLifecycle}
    (keeps : ∀ row next, move row = .ok next → next.trainingJobId = row.trainingJobId)
    (moved : db.moveRuntime m move = .ok db') : Quiet db db' := by
  obtain ⟨row, moves, made⟩ := bind_ok moved
  cases made
  refine .of_jobs rfl rfl fun n => ?_
  by_cases own : n = m
  · subst own
    rw [lifecycle_setLifecycle_self]
    exact keeps _ _ moves
  · rw [lifecycle_setLifecycle_of_ne _ own]

end Frames

theorem Sound.completeTraining {succeeded : Bool} (sound : b.Sound)
    (completed : b.completeTraining id succeeded = .ok b') : b'.Sound := by
  unfold Books.completeTraining at completed
  split at completed
  · cases completed
  next job found =>
  split at completed
  · cases completed
  next active =>
  rw [Bool.not_eq_false] at active
  obtain ⟨fired, fires, made⟩ := bind_ok completed
  cases made
  refine sound.ends found active (job.close (if succeeded then .finished else .failed)) ?_ rfl ?_
  · cases succeeded <;> rfl
  · split at fires
    · cases fires
      exact .refl
    · exact fireModelEvent_quiet fires

theorem Sound.cancelTrainingJob (sound : b.Sound) (found : b.db.trainingJobs[id]? = some job)
    (active : job.status.active = true) : (b.cancelTrainingJob id job).Sound :=
  sound.ends found active { job.close .cancelled with cancelRequest := true } rfl rfl
    releaseTrainingModel_quiet

theorem Sound.cancelTraining (sound : b.Sound) (cancelled : b.cancelTraining id = .ok b') :
    b'.Sound := by
  unfold Books.cancelTraining at cancelled
  split at cancelled
  · cases cancelled
    exact sound
  next job found =>
  split at cancelled
  · cases cancelled
    exact sound
  split at cancelled <;> cases cancelled
  next active => exact sound.cancelTrainingJob found (by simpa using active)

theorem Sound.deleteMlTrainingRequest (sound : b.Sound) : (b.deleteMlTrainingRequest id).Sound := by
  unfold Books.deleteMlTrainingRequest
  split
  · exact sound
  next job found =>
  split
  · next active => exact sound.cancelTrainingJob found active
  · exact sound

theorem Sound.modifyMlTrainingRequest {o : Outside} {cancel suspend : Option Bool} (sound : b.Sound)
    (modified : b.modifyMlTrainingRequest o id cancel suspend = .ok b') : b'.Sound := by
  unfold Books.modifyMlTrainingRequest at modified
  split at modified
  · cases modified
  next job found =>
  split at modified
  · split at modified <;> cases modified
    next active => exact sound.cancelTrainingJob found (by simpa using active)
  · next goes =>
    obtain ⟨db, flagged, made⟩ := bind_ok modified
    cases made
    exact sound.quiet (applyTrainingFlags_quiet goes found flagged)

theorem Sound.expireTraining {o : Outside} (sound : b.Sound) : (b.expireTraining o id).Sound := by
  unfold Books.expireTraining
  split
  · exact sound
  next job found =>
  split
  · next late =>
    have active : job.status.active = true := by rw [late.1]; rfl
    exact sound.ends found active (job.close .failed) rfl rfl fireIfLegal_quiet
  · exact sound

section Others

variable {o : Outside} {db' : Database}

variable {event : ModelLifecycleEvent} {decidedBy rationale : Option Str} {succeeded : Bool}
  {row next : ModelLifecycle}

theorem Quiet.fire {middle : Database} {by_ : Option Run} (first : Quiet db middle)
    (fired : middle.fireModelEvent m event decidedBy rationale by_ = .ok db') : Quiet db db' :=
  first.trans (fireModelEvent_quiet fired)

theorem setValidation_quiet {job : ValidationJob} : Quiet db (db.setValidation id job) :=
  ⟨rfl, rfl, fun _ => rfl⟩

theorem emulationJobs_quiet (emulationJobs : List EmulationJob) :
    Quiet db { db with emulationJobs } := ⟨rfl, rfl, fun _ => rfl⟩

theorem startValidation_quiet {body : ValidationRequest}
    (started : db.startValidation o body = .ok db') : Quiet db db' := by
  have added : Quiet db (db.addValidation o body) := ⟨rfl, rfl, fun _ => rfl⟩
  unfold Database.startValidation at started
  split at started
  · cases started
  split at started
  · cases started
    exact added
  · obtain ⟨-, -, started⟩ := bind_ok started
    split at started
    · cases started
    split at started
    · cases started
    · exact added.fire started

theorem completeValidation_quiet (completed : db.completeValidation id succeeded = .ok db') :
    Quiet db db' := by
  unfold Database.completeValidation at completed
  split at completed
  · cases completed
  split at completed
  · cases completed
  · dsimp only at completed
    split at completed
    · cases completed
      exact ⟨rfl, rfl, fun _ => rfl⟩
    · exact setValidation_quiet.fire completed

theorem modifyMlTestingRequest_quiet {cancel suspend : Option Bool}
    (modified : db.modifyMlTestingRequest o id cancel suspend = .ok db') : Quiet db db' := by
  unfold Database.modifyMlTestingRequest at modified
  split at modified
  · cases modified
  split at modified
  · split at modified
    · cases modified
    · dsimp only at modified
      split at modified
      · cases modified
        exact ⟨rfl, rfl, fun _ => rfl⟩
      · exact setValidation_quiet.fire modified
  split at modified
  · split at modified <;> cases modified
    exact ⟨rfl, rfl, fun _ => rfl⟩
  · split at modified <;> cases modified
    · exact ⟨rfl, rfl, fun _ => rfl⟩
    · exact .refl

theorem requestEmulation_quiet {body : EmulationRequest}
    (requested : db.requestEmulation o body = .ok db') : Quiet db db' := by
  obtain ⟨-, -, requested⟩ := bind_ok requested
  split at requested
  · cases requested
  split at requested
  · cases requested
  · exact (emulationJobs_quiet _).fire requested

theorem completeEmulation_quiet (completed : db.completeEmulation id succeeded = .ok db') :
    Quiet db db' := by
  unfold Database.completeEmulation at completed
  split at completed
  · cases completed
  split at completed
  · cases completed
  · exact (emulationJobs_quiet _).fire completed

theorem expireValidation_quiet : Quiet db (db.expireValidation o id) := by
  unfold Database.expireValidation
  split
  · exact .refl
  · split
    · exact setValidation_quiet.trans fireIfLegal_quiet
    · exact .refl

theorem expireEmulation_quiet : Quiet db (db.expireEmulation o id) := by
  unfold Database.expireEmulation
  split
  · exact .refl
  · split
    · exact (emulationJobs_quiet _).trans fireIfLegal_quiet
    · exact .refl

theorem foldl_quiet {act : Database → JobId → Database} (each : ∀ db id, Quiet db (act db id))
    (ids : List JobId) : Quiet db (ids.foldl act db) := by
  induction ids generalizing db with
  | nil => exact .refl
  | cons id ids ih => exact (each db id).trans ih

theorem fireRuntime_current {event : RuntimeLifecycleEvent}
    (fired : row.fireRuntime event = .ok next) : next.trainingJobId = row.trainingJobId := by
  obtain ⟨-, rfl⟩ := ModelLifecycle.fireRuntime_ok fired
  rfl

theorem terminateRuntime_current (terminated : row.terminateRuntime = .ok next) :
    next.trainingJobId = row.trainingJobId := by
  obtain ⟨terminating, first, second⟩ := bind_ok terminated
  exact (fireRuntime_current second).trans (fireRuntime_current first)

theorem deployRuntime_current {deployment : Nat}
    (deployed : row.deployRuntime deployment = .ok next) :
    next.trainingJobId = row.trainingJobId := by
  unfold ModelLifecycle.deployRuntime at deployed
  split at deployed
  · cases deployed
  · obtain ⟨requested, first, second⟩ := bind_ok deployed
    have same := fireRuntime_current first
    exact (fireRuntime_current second).trans same

theorem activateRuntime_current (activated : row.activateRuntime = .ok next) :
    next.trainingJobId = row.trainingJobId := by
  obtain ⟨-, -, rest⟩ := bind_ok activated
  obtain ⟨activating, first, second⟩ := bind_ok rest
  exact (fireRuntime_current second).trans (fireRuntime_current first)

theorem scaleRuntime_current (scaled : row.scaleRuntime = .ok next) :
    next.trainingJobId = row.trainingJobId := by
  obtain ⟨-, -, rest⟩ := bind_ok scaled
  obtain ⟨scaling, first, second⟩ := bind_ok rest
  exact (fireRuntime_current second).trans (fireRuntime_current first)

theorem advanceModelLifecycle_quiet {rapp : Bool}
    (advanced : db.advanceModelLifecycle o rapp m event decidedBy rationale = .ok db') :
    Quiet db db' := by
  unfold Database.advanceModelLifecycle at advanced
  split at advanced
  · cases advanced
  split at advanced
  · cases advanced
  · obtain ⟨-, -, advanced⟩ := bind_ok advanced
    obtain ⟨fired, fires, advanced⟩ := bind_ok advanced
    have first := fireModelEvent_quiet fires
    split at advanced
    · have moved : fired.moveRuntime m ModelLifecycle.retireRuntime = .ok db' := advanced
      refine first.trans (moveRuntime_quiet ?_ moved)
      intro row next retires
      unfold ModelLifecycle.retireRuntime at retires
      split at retires
      · exact terminateRuntime_current retires
      · cases retires
        rfl
    · cases advanced
      exact first

end Others

theorem Sound.expireOverdueJobs {o : Outside} (sound : b.Sound) :
    (b.expireOverdueJobs o).Sound := by
  have trained : ∀ (ids : List JobId) (b : Books), b.Sound →
      (ids.foldl (Books.expireTraining o) b).Sound := by
    intro ids
    induction ids with
    | nil => exact fun _ sound => sound
    | cons id ids ih => exact fun b sound => ih _ sound.expireTraining
  refine (trained _ _ sound).quiet (Quiet.trans (foldl_quiet (fun _ _ => ?_) _)
    (foldl_quiet (fun _ _ => ?_) _))
  · exact expireValidation_quiet
  · exact expireEmulation_quiet

end Books

end Smo.Aimgf
