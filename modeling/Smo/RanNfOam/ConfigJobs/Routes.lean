import Smo.Lib.Runs
import Smo.RanNfOam.ConfigJobs.Writes

/-! The routes of the config jobs: who may act on a job, creating, continuing, halting,
aborting, approving and rejecting one, the sweep of the due pauses, and the undo. -/
namespace Smo.RanNfOam.ConfigJobs

open Transaction

inductive Role where
  | rapp | internal | other
  deriving DecidableEq, Repr

structure Request where
  role : Role := .other
  invoker : Option String := none
  onBehalfOf : Option String := none
  actingUser : Option String := none
  scope : Option Scope := none
  deriving DecidableEq, Repr

namespace Request

def invokerId (request : Request) : Option String :=
  if request.role = .internal then request.onBehalfOf.or request.invoker else request.invoker

def ownAccount (request : Request) : Bool :=
  request.role = .internal && request.onBehalfOf.isNone

def ownJobsOnly (request : Request) : Bool := request.scope.isSome && !request.ownAccount

end Request

structure WaveActionRequest where
  requestedBy : String
  force : Bool := false
  deriving DecidableEq, Repr

structure ApprovalDecisionRequest where
  decidedBy : Option String := none
  reason : Option String := none
  deriving DecidableEq, Repr

structure RollbackRequest where
  requestedBy : String
  accessScope : Option String := none
  msacRole : Option String := none
  force : Bool := false
  dryRun : Bool := false
  deriving DecidableEq, Repr

structure KpiCheckRequest where
  requestedBy : String
  kpi : String
  revert : Bool := false
  accessScope : Option String := none
  msacRole : Option String := none
  force : Bool := false
  deriving DecidableEq, Repr

/-- `job_owned_by`, along the jobs that were undone. -/
def jobOwnedBy (store : Store) (caller : Option String) : (fuel : Nat) → WriteConfigJob → Bool
  | 0, _ => false
  | fuel + 1, job =>
    if caller.isSome ∧ job.invokerId = caller then true
    else
      match job.rollbackOf.bind store.job? with
      | none => false
      | some earlier => jobOwnedBy store caller fuel earlier.job

def samePerson (site : Site) (a b : String) : Bool :=
  site.casefold (Str.strip a.toList) = site.casefold (Str.strip b.toList)

section Routes

variable {σ : Type} (o1 : O1Clients σ) (site : Site) (now : Time)

/-- `write_configuration_changes`. -/
def writeConfigurationChanges (request : Request) (body : WriteConfigRequest) : Db σ Written := do
  let caller := request.invokerId
  refuseIfKilled now caller (some body.requestedBy)
  enforceScope site now request.scope caller body.requestedBy
    (body.changes.map (·.managedElementRef))
  enforceRappLimit site now caller body.requestedBy
  enforceChangeLimits site now body caller
  executeWrite o1 site now body
    { invoker := caller, park := true, requesterScope := request.scope }

/-- `_job_in_reach`. -/
def jobInReach (request : Request) (jobId : Nat) (requestedBy : Option String) :
    Db σ JobRows := do
  let store ← database
  match store.job? jobId with
  | none => raiseProblem .configJobNotFound s!"no configuration job {jobId}"
  | some jr =>
    if request.ownJobsOnly && !jobOwnedBy store request.invokerId store.jobs.length jr.job then
      raiseProblem .configJobNotFound s!"no configuration job {jobId}"
    else if deniedRefs site.registry request.scope (jr.rows.map (·.managedElementRef)) = [] then
      return jr
    else
      let problem : Problem :=
        ⟨.scopeDenied, "the job wrote to managed elements outside the caller's scope"⟩
      match request.invokerId with
      | some name => refuse now name requestedBy problem
      | none => throw (.problem problem)

/-- `_halted_job`. -/
def haltedJob (request : Request) (jobId : Nat) (event : JobEvent) (requestedBy : String) :
    Db σ JobRows := do
  let jr ← jobInReach site now request jobId (some requestedBy)
  if jr.job.status = .halted then return jr
  else
    raiseProblem .lifecycleIllegalTransition
      s!"configuration job {jobId}: event {event.text} is not allowed in state {jr.job.status.text}"

/-- A halted job as `_resume` sets it going, whatever its status is now. -/
def resumed (jr : JobRows) : Except (IllegalTransition JobState JobEvent) JobRows := do
  let status ← writeConfigJobFsm.fire .halted .resume
  return { jr with job := { jr.job with
    status, haltedReason := none, haltedDetail := none, nextWaveAt := none } }

/-- `_resume`. -/
def resume (jr : JobRows) : Db σ JobRows := do
  let going ← orRaise (resumed jr)
  let going ← keep going
  let final ← advance o1 site now going
  commit
  return final

/-- `_start_scheduled`. -/
def startScheduled (jr : JobRows) (body : WaveActionRequest) : Db σ JobRows :=
  if windowOver now jr.job.windowEnd then
    let close := jr.job.windowEnd.getD 0
    raiseProblem .changeWindowClosed s!"the change window closed at {close}"
  else if jr.job.scheduledAt.any (now < ·) ∧ !body.force then
    let opens := jr.job.scheduledAt.getD 0
    raiseProblem .changeWindowNotOpen
      s!"the change window opens at {opens}; send force=true to start now"
  else do
    refuseIfKilled now jr.job.invokerId (some body.requestedBy)
    let status ← orRaise (writeConfigJobFsm.fire .scheduled .start)
    let started ← keep (startedJob now jr status)
    let final ← advance o1 site now started
    commit
    return final

/-- `continue_configuration_job`. -/
def continueConfigurationJob (request : Request) (jobId : Nat) (body : WaveActionRequest) :
    Db σ JobRows := do
  let scheduled ← jobInReach site now request jobId (some body.requestedBy)
  if scheduled.job.status = .scheduled then startScheduled o1 site now scheduled body
  else do
    let jr ← haltedJob site now request jobId .resume body.requestedBy
    refuseIfKilled now jr.job.invokerId (some body.requestedBy)
    if jr.job.haltedReason = some .wavePause ∧ jr.job.nextWaveAt.any (now < ·) ∧ !body.force then
      let ends := jr.job.nextWaveAt.getD 0
      raiseProblem .wavePauseNotElapsed
        s!"the pause between waves ends at {ends}; send force=true to go on now"
    else resume o1 site now jr

/-- `halt_configuration_job`. -/
def haltConfigurationJob (request : Request) (jobId : Nat) (body : WaveActionRequest) :
    Db σ JobRows := do
  let jr ← haltedJob site now request jobId .halt body.requestedBy
  if jr.job.haltedReason = some .wavePause then do
    let held ← keep { jr with job := { jr.job with
      haltedReason := some .operatorHalt, haltedDetail := some s!"halted by {body.requestedBy}"
      nextWaveAt := none } }
    commit
    return held
  else return jr

def notRun (row : WriteConfigSubChange) : WriteConfigSubChange :=
  if row.status = .pending then
    { row with status := .rejected, rejectionReason := some "WAVE_NOT_RUN" }
  else row

def aborted (jr : JobRows) (requestedBy : String) :
    Except (IllegalTransition JobState JobEvent) JobRows :=
  let why := (jr.job.haltedReason.map (·.text)).getD "None"
  finish { job := { jr.job with haltedDetail := some s!"aborted by {requestedBy} ({why})" }
           rows := jr.rows.map notRun }

/-- `abort_configuration_job`. -/
def abortConfigurationJob (request : Request) (jobId : Nat) (body : WaveActionRequest) :
    Db σ JobRows := do
  let jr ← haltedJob site now request jobId .aggregateMixed body.requestedBy
  let ended ← orRaise (aborted jr body.requestedBy)
  let ended ← keep ended
  commit
  return ended

def dueJobs (store : Store) : List Nat :=
  let due := store.jobs.filter fun jr =>
    jr.job.status = .halted && jr.job.haltedReason = some .wavePause &&
      jr.job.nextWaveAt.any (· ≤ now)
  (due.insertionSort fun a b => a.job.nextWaveAt.getD 0 ≤ b.job.nextWaveAt.getD 0).map
    (·.job.jobId)

def resumeAll : List Nat → Db σ (List JobRows)
  | [] => return []
  | jobId :: rest => do
    let store ← database
    match store.job? jobId with
    | none => throw .keyError
    | some jr => do
      let final ← resume o1 site now jr
      let others ← resumeAll rest
      return final :: others

/-- `advance_due`. -/
def advanceDue : Db σ (List JobRows) := do
  let store ← database
  resumeAll o1 site now (dueJobs now store)

/-- `_decider`. -/
def decider (request : Request) (claimed : Option String) : Db σ String :=
  if request.role = .internal then
    match request.actingUser with
    | none => raiseProblem .approverIdentityRequired
        "a decision is a person's: the call carries no X-R1-Acting-User (the operator's console sets it)"
    | some verified =>
      if claimed.any (fun name => !samePerson site name verified) then
        raiseProblem .approverIdentityMismatch
          "decidedBy is not the signed-in user; it is taken from the gateway and the field is deprecated"
      else return verified
  else
    match claimed with
    | none => raiseProblem .schemaValidationFailed
        "decidedBy is required when the call does not come through the gateway"
    | some name => return name

/-- `_waiting_job`, with the verified decider. -/
def waitingJob (request : Request) (jobId : Nat) (body : ApprovalDecisionRequest)
    (states : List JobState) : Db σ (JobRows × String) :=
  if request.role = .rapp then
    raiseProblem .roleNotPermitted "an rApp cannot decide a change window"
  else do
    let name ← decider site request body.decidedBy
    let jr ← jobInReach site now request jobId (some name)
    if jr.job.status ∈ states then return (jr, name)
    else raiseProblem .approvalNotPending s!"the job is {jr.job.status.text}"

/-- `approve_configuration_job`. -/
def approveConfigurationJob (request : Request) (jobId : Nat) (body : ApprovalDecisionRequest) :
    Db σ JobRows := do
  let (jr, name) ← waitingJob site now request jobId body [.pendingApproval]
  if samePerson site name jr.job.requestedBy || jr.job.invokerId.any (samePerson site name) then
    raiseProblem .approvalSelfDecision "the requester of a change cannot approve it"
  else do
    let final ← approveWindow o1 site now jr name body.reason
    commit
    return final

def rejectedJob (jr : JobRows) (name : String) (reason : Option String) :
    Except (IllegalTransition JobState JobEvent) JobRows := do
  let status ← writeConfigJobFsm.fire jr.job.status .reject
  return {
    job := { jr.job with
      status, decidedBy := some name, decidedAt := some now, decisionReason := reason }
    rows := jr.rows.map fun row =>
      { row with status := .rejected, rejectionReason := some "APPROVAL_REJECTED" } }

/-- `reject_configuration_job`. -/
def rejectConfigurationJob (request : Request) (jobId : Nat) (body : ApprovalDecisionRequest) :
    Db σ JobRows := do
  let (jr, name) ← waitingJob site now request jobId body [.pendingApproval, .scheduled]
  let ended ← orRaise (rejectedJob now jr name body.reason)
  let ended ← keep ended
  commit
  return ended

def conflictText (jobId : Nat) (changed : List Difference) : String :=
  let found := match changed with
    | [] => ""
    | first :: _ =>
      let target := (first.managedFunctionRef.filter (· ≠ "")).getD first.managedElementRef
      let name := first.attributeName.getD "None"
      s!"{target} {name}: expected {first.expected}, found {first.actual}"
  s!"{changed.length} value(s) differ from what job {jobId} wrote, for example {found}; send force=true to restore anyway"

def regressionText (jobId : Nat) (regressed : List String) (changed : List Difference) : String :=
  let shown := ", ".intercalate regressed
  s!"{changed.length} value(s) differ from what job {jobId} wrote; the KPI regressed on {shown} but the revert would overwrite a later change; send force=true to restore anyway"

/-- Undoes a job, or some elements of it, unless values changed since and it is not forced. -/
def undoJob (jr : JobRows) (elements : Option (List String)) (body : RollbackRequest)
    (conflict : List Difference → String) : Db σ Written := do
  let plan := rollbackPlan jr elements
  if plan.problems ≠ [] then
    raiseProblem .rollbackNotPossible ("; ".intercalate plan.problems)
  else do
    let network ← networkNow
    let changed := changedSince o1 site network plan.expected
    if body.dryRun then return .planned []
    else if changed ≠ [] ∧ !body.force then raiseProblem .configChangedSince (conflict changed)
    else
      executeWrite o1 site now
        { requestedBy := body.requestedBy, accessScope := body.accessScope.getD jr.job.scope
          msacRole := body.msacRole, changes := plan.undo }
        { rollbackOf := some jr.job.jobId, rollbackForced := changed ≠ [] }

/-- `rollback_configuration_job`. -/
def rollbackConfigurationJob (request : Request) (jobId : Nat) (body : RollbackRequest) :
    Db σ Written := do
  let jr ← jobInReach site now request jobId (some body.requestedBy)
  undoJob o1 site now jr none body (conflictText jobId)

def appliedElements (jr : JobRows) : List String :=
  ((jr.rows.filter (·.status = .applied)).map (·.managedElementRef)).eraseDups

/-- `check_configuration_job_kpi`. -/
def checkConfigurationJobKpi (request : Request) (jobId : Nat) (body : KpiCheckRequest) :
    Db σ Unit := do
  let jr ← jobInReach site now request jobId (some body.requestedBy)
  orThrow (checkKpi site (some body.kpi))
  let regressed := site.regressed jr.job (appliedElements jr)
  if regressed ≠ [] ∧ body.revert then do
    let _ ← undoJob o1 site now jr (some regressed)
      ⟨body.requestedBy, body.accessScope, body.msacRole, body.force, false⟩
      (regressionText jobId regressed)
    return ()
  else return ()

end Routes

end Smo.RanNfOam.ConfigJobs
