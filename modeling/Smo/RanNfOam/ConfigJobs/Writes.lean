import Smo.RanNfOam.ConfigJobs.Rollback

/-! The write shared by the job routes (`_execute_write`): the safeguards before it, the
checks, the job with its waves, the change window it may be held for, and the automatic
revert, which makes a write of its own. The clock stands still during one request. -/
namespace Smo.RanNfOam.ConfigJobs

open Transaction

abbrev Db (σ : Type) := Txn Store (Wire σ) Raised

def hour : Time := seconds 3600

structure Origin where
  rollbackOf : Option Nat := none
  rollbackForced : Bool := false
  invoker : Option String := none
  park : Bool := false
  approval : Option RAppActionApproval := none
  requesterScope : Option Scope := none

/-- The answer of a write: the plan of a dry run, a request that was parked, or a job. -/
inductive Written where
  | planned (verdicts : List (Option String))
  | parked (approvalId : Nat)
  | made (jr : JobRows)
  deriving DecidableEq, Repr

/-- Python's `repr` of a list of texts without quotes. -/
def reprList (texts : List String) : String :=
  let shown := ", ".intercalate (texts.map fun text => s!"'{text}'")
  s!"[{shown}]"

def elementsOf (changes : List Change) : List String :=
  (changes.map (·.managedElementRef)).eraseDups

section Checks

variable (site : Site)

def configOperation (operation : String) : Option Msac.Operation :=
  if operation = "merge" ∨ operation = "replace" then some .update
  else if operation = "create" then some .create
  else if operation = "delete" ∨ operation = "remove" then some .delete
  else none

def deniedChanges (roles : List Msac.MsacRole) : List Change → Except Raised (List String)
  | [] => .ok []
  | change :: rest =>
    match Msac.targetPath change.managedElementRef.toList
        (change.managedFunctionRef.map (·.toList)) with
    | .error _ => .error .badRdn
    | .ok target => do
      let denied ← deniedChanges roles rest
      if (configOperation change.operation).any (Msac.authorize site.msac roles target) then
        return denied
      else
        let path := String.ofList target
        return s!"{change.operation} {path}" :: denied

def checkAccess (body : WriteConfigRequest) : Except Raised Unit :=
  let resolved := Msac.resolveRoles site.msac body.requestedBy body.msacRole
  if resolved.1 then do
    let denied ← deniedChanges site resolved.2 body.changes
    if denied = [] then return ()
    else
      let shown := "; ".intercalate denied
      throw (.problem ⟨.msacAccessDenied, s!"{body.requestedBy} is not permitted: {shown}"⟩)
  else if body.accessScope = "entire-RAN" ∧ body.msacRole.all (· = "") then
    throw (.problem ⟨.msacAccessDenied, "entire-RAN scope requires an MSAC access tier"⟩)
  else return ()

/-- `require_service`. -/
def requireService (managedElementRef service : String) : Except Raised Unit :=
  match site.registry.effectiveServices managedElementRef with
  | none => .ok ()
  | some services =>
    if services.contains service then .ok ()
    else
      let shown := reprList services
      .error (.problem ⟨.o1ServiceNotSupported,
        s!"{managedElementRef} does not support MnS service {service} (supports {shown})"⟩)

/-- The pre-check: provisioning is implemented, and what the data model has against the
changes. -/
def precheck : List Change → Except Raised (List String)
  | [] => .ok []
  | change :: rest => do
    requireService site change.managedElementRef "PROV"
    let problems ← precheck rest
    return site.schemaProblems change ++ problems

def checkSchema (changes : List Change) : Except Raised Unit := do
  let problems ← precheck site changes
  if problems = [] then return ()
  else throw (.problem ⟨.schemaValidationFailed, "; ".intercalate problems⟩)

def checkKpi (kpi : Option String) : Except Raised Unit :=
  match kpi with
  | none => .ok ()
  | some name =>
    if name ∈ site.kpis then .ok () else .error (.problem ⟨.kpiNotFound, s!"no KPI '{name}'"⟩)

def checkWrite (body : WriteConfigRequest) : Except Raised Unit := do
  checkAccess site body
  checkSchema site body.changes
  checkKpi site body.kpiGuard

end Checks

def waveSizeOf (body : WriteConfigRequest) : Nat :=
  match body.waveSize with
  | some size => size
  | none => if body.changes = [] then 1 else (elementsOf body.changes).length

def waveOf (body : WriteConfigRequest) (element : String) : Nat :=
  (elementsOf body.changes).idxOf element / waveSizeOf body + 1

/-- `max(wave_of.values(), default=1)`. -/
def waveCountOf (body : WriteConfigRequest) : Nat :=
  ((elementsOf body.changes).map (waveOf body)).max?.getD 1

def windowOf (body : WriteConfigRequest) (origin : Origin) : Option ChangeWindow :=
  if origin.rollbackOf.isNone then body.changeWindow else none

def windowOver (now : Time) (close : Option Time) : Bool := close.any (· ≤ now)

def holds (body : WriteConfigRequest) (origin : Origin) : Bool :=
  origin.rollbackOf.isNone && ((windowOf body origin).isSome || body.requireApproval)

def newJob (now : Time) (body : WriteConfigRequest) (origin : Origin) (jobId : Nat) : JobRows :=
  let window := windowOf body origin
  { job := {
      jobId, rollbackOf := origin.rollbackOf, rollbackForced := origin.rollbackForced
      requestedBy := body.requestedBy, scope := body.accessScope, msacRole := body.msacRole
      waveSize := body.waveSize, wavePauseSeconds := body.wavePauseSeconds
      waveCount := waveCountOf body, gateMaxNewAlarms := body.gateMaxNewAlarms
      onGateFailure := body.onGateFailure, invokerId := origin.invoker, createdAt := now
      kpiGuard := body.kpiGuard
      scheduledAt := window.bind (·.start), windowEnd := window.bind (·.close)
      schemaValidatedAt := some now
      status := if holds body origin then .pendingApproval else .processing }
    rows := body.changes.zipIdx.map fun (change, index) => {
      managedElementRef := change.managedElementRef
      managedFunctionRef := change.managedFunctionRef
      attributeChanges := change.attributeChanges, operation := change.operation
      position := index, wave := waveOf body change.managedElementRef } }

section Routes

variable {σ : Type} (o1 : O1Clients σ) (site : Site) (now : Time)

def raiseProblem {α : Type} (error : FrameworkError) (detail : String) : Db σ α :=
  throw (.problem ⟨error, detail⟩)

def orThrow {α : Type} : Except Raised α → Db σ α
  | .ok value => return value
  | .error raised => throw raised

def newId : Db σ Nat := outside fun wire => .ok wire.fresh { wire with fresh := wire.fresh + 1 }

def networkNow : Db σ σ := outside fun wire => .ok wire.network wire

/-- `_refuse`: the refusal is recorded, and with it all that was not committed. -/
def refuse {α : Type} (caller : String) (requestedBy : Option String) (problem : Problem) :
    Db σ α := do
  update fun store => { store with
    refusals := store.refusals ++ [⟨now, caller, requestedBy, problem.error.code, problem.detail⟩] }
  commit
  throw (.problem problem)

def killDetail (caller : String) (kill : RAppKill) : String :=
  let why := match kill.reason with
    | none => ""
    | some reason => if reason = "" then "" else s!": {reason}"
  s!"{caller} was stopped by {kill.killedBy} at {kill.killedAt}{why}"

/-- `_refuse_if_killed`. -/
def refuseIfKilled (caller : Option String) (requestedBy : Option String) : Db σ Unit := do
  let store ← database
  match caller with
  | none => return ()
  | some name =>
    match store.killOf name with
    | none => return ()
    | some kill => refuse now name requestedBy ⟨.rappKilled, killDetail name kill⟩

/-- `_enforce_scope`. -/
def enforceScope (scope : Option Scope) (caller : Option String) (requestedBy : String)
    (refs : List String) : Db σ Unit :=
  let denied := deniedRefs site.registry scope refs
  if denied = [] then return ()
  else
    let shown := ", ".intercalate (denied.take 10) ++
      (if denied.length > 10 then s!" and {denied.length - 10} more" else "")
    let problem : Problem := ⟨.scopeDenied, s!"the caller's scope does not cover: {shown}"⟩
    match caller with
    | some name => refuse now name (some requestedBy) problem
    | none => throw (.problem problem)

def limitOf (caller : Option String) : Option RAppLimit :=
  caller.bind fun name => site.limits.find? (·.invokerId = name)

/-- `_enforce_rapp_limit`. -/
def enforceRappLimit (caller : Option String) (requestedBy : String) : Db σ Unit := do
  let store ← database
  match limitOf site caller with
  | none => return ()
  | some limit =>
    let used := store.jobs.countP fun jr =>
      jr.job.invokerId = some limit.invokerId ∧ now ≤ jr.job.createdAt + hour
    match limit.maxConfigJobsPerHour with
    | none => return ()
    | some most =>
      if used < most then return ()
      else refuse now limit.invokerId (some requestedBy) ⟨.rappRateLimited,
        s!"{limit.invokerId} has started {used} config jobs in the last hour; its limit is {most}"⟩

/-- `_enforce_change_limits`. -/
def enforceChangeLimits (body : WriteConfigRequest) (caller : Option String) : Db σ Unit :=
  match limitOf site caller with
  | none => return ()
  | some limit =>
    let named := (elementsOf body.changes).length
    match limit.maxElementsPerJob.filter (· < named) with
    | some most => refuse now limit.invokerId (some body.requestedBy) ⟨.rappBlastRadiusExceeded,
        s!"{limit.invokerId} may change {most} managed elements in one job; this one names {named}"⟩
    | none =>
      match site.magnitudeExceeded limit body.changes with
      | none => return ()
      | some detail =>
        refuse now limit.invokerId (some body.requestedBy) ⟨.rappMagnitudeExceeded, detail⟩

/-- `_advance`, for a job that is in the session. -/
def advanceWith (revert : JobRows → String → Db σ JobRows) (jr : JobRows) : Db σ JobRows := do
  let store ← database
  let ran ← outside (advanceWaves o1 site now jr store.alarms)
  update fun store => { store.put ran.jr with alarms := ran.alarms }
  match ran.undo with
  | none => return ran.jr
  | some failure => revert ran.jr failure

def keep (jr : JobRows) : Db σ JobRows := do
  update (·.put jr)
  return jr

def decidedJob (jr : JobRows) (name : String) (reason : Option String) : JobRows :=
  { jr with job := { jr.job with
    decidedBy := some name, decidedAt := some now, decisionReason := reason } }

def startedJob (jr : JobRows) (status : JobState) : JobRows :=
  { jr with job := { jr.job with status, schemaValidatedAt := some now } }

/-- `_approve_window`, for a job that is in the session. -/
def approveWindowWith (revert : JobRows → String → Db σ JobRows) (jr : JobRows)
    (decider : String) (reason : Option String) : Db σ JobRows :=
  if windowOver now jr.job.windowEnd then
    let close := jr.job.windowEnd.getD 0
    raiseProblem .changeWindowClosed s!"the change window closed at {close}"
  else do
    let decided ← keep (decidedJob now jr decider reason)
    if decided.job.scheduledAt.any (now < ·) then
      let status ← orRaise (writeConfigJobFsm.fire decided.job.status .approveForWindow)
      keep { decided with job := { decided.job with status } }
    else do
      refuseIfKilled now decided.job.invokerId (some decided.job.requestedBy)
      let status ← orRaise (writeConfigJobFsm.fire decided.job.status .approve)
      let started ← keep (startedJob now decided status)
      advanceWith o1 site now revert started

/-- `_park_for_approval`. -/
def parkForApproval (body : WriteConfigRequest) (invoker : String) (policy : RAppApprovalPolicy)
    (requesterScope : Option Scope) : Db σ Written := do
  let store ← database
  let row : RAppActionApproval := {
    approvalId := store.approvals.length, invokerId := invoker, requestedBy := body.requestedBy
    request := body, expiresAt := now + seconds policy.timeoutSeconds
    onTimeout := policy.onTimeout, requesterScope
    requiredApprovals := policy.requiredApprovals }
  update fun store => { store with approvals := store.approvals ++ [row] }
  commit
  return .parked row.approvalId

def parkPolicy (origin : Origin) : Option RAppApprovalPolicy :=
  if origin.park then
    origin.invoker.bind fun name => site.policies.find? (·.invokerId = name)
  else none

def closeApproved (approval : Option RAppActionApproval) (jobId : Nat) : Db σ Unit :=
  match approval with
  | none => return ()
  | some row => update (·.putApproval { row with status := .approved, jobId := some jobId })

/-- A new job runs unless it is held; the approval of an rApp's request is the job's. -/
def startJobWith (revert : JobRows → String → Db σ JobRows) (held : Bool)
    (approval : Option RAppActionApproval) (jr : JobRows) : Db σ JobRows :=
  match held, approval with
  | true, some row =>
    approveWindowWith o1 site now revert jr (row.decidedBy.getD "system:rapp-approval")
      (some s!"approved as rApp request {row.approvalId}")
  | true, none => return jr
  | false, _ => advanceWith o1 site now revert jr

def makeJobWith (revert : JobRows → String → Db σ JobRows) (body : WriteConfigRequest)
    (origin : Origin) : Db σ Written := do
  let jobId ← newId
  let jr := newJob now body origin jobId
  update (·.add jr)
  closeApproved origin.approval jobId
  let final ← startJobWith o1 site now revert (holds body origin) origin.approval jr
  commit
  return .made final

/-- `_execute_write`. -/
def executeWriteWith (revert : JobRows → String → Db σ JobRows) (body : WriteConfigRequest)
    (origin : Origin) : Db σ Written := do
  orThrow (checkWrite site body)
  if body.dryRun then
    return .planned (body.changes.map fun change =>
      match dispatchBlocker site now change with
      | .error reason => some reason
      | .ok _ => none)
  else
    match parkPolicy site origin with
    | some policy => parkForApproval now body policy.invokerId policy origin.requesterScope
    | none =>
      if windowOver now ((windowOf body origin).bind (·.close)) then
        raiseProblem .schemaValidationFailed "the change window has already closed"
      else makeJobWith o1 site now revert body origin

def undoRequest (job : WriteConfigJob) (changes : List Change) : WriteConfigRequest :=
  { requestedBy := job.requestedBy, accessScope := job.scope, msacRole := job.msacRole, changes }

def undoneRow (row : WriteConfigSubChange) : WriteConfigSubChange :=
  match row.status with
  | .applied => { row with status := .reverted }
  | .pending => { row with status := .rejected, rejectionReason := some "WAVE_NOT_RUN" }
  | _ => row

/-- `_auto_revert`, with the write it makes. -/
def autoRevertWith (write : WriteConfigRequest → Origin → Db σ Written) (jr : JobRows)
    (failure : String) : Db σ JobRows := do
  let plan := rollbackPlan jr
  let network ← networkNow
  let changed := if plan.problems = [] then changedSince o1 site network plan.expected else []
  if plan.problems ≠ [] ∨ changed ≠ [] then
    let why := if plan.problems ≠ [] then "; ".intercalate plan.problems
      else s!"{changed.length} value(s) changed since the waves wrote them"
    let halted ← orRaise (halt jr .revertRefused (some s!"{failure}; not reverted: {why}"))
    keep halted
  else do
    let written ← write (undoRequest jr.job plan.undo) { rollbackOf := some jr.job.jobId }
    match written with
    | .made undo =>
      if undo.job.status ≠ .completed then
        let status := undo.job.status.text
        let detail := s!"{failure}; the revert job {undo.job.jobId} ended {status}"
        let halted ← orRaise (halt jr .revertRefused (some detail))
        keep halted
      else
        let ended ← orRaise (finish { jr with
          job := { jr.job with
            haltedReason := some .gateFailed
            haltedDetail := some s!"{failure}; reverted by job {undo.job.jobId}" }
          rows := jr.rows.map undoneRow })
        keep ended
    | _ => throw .keyError

def executeUndo : WriteConfigRequest → Origin → Db σ Written :=
  executeWriteWith o1 site now fun _ _ => throw .keyError

def autoRevert : JobRows → String → Db σ JobRows := autoRevertWith o1 site (executeUndo o1 site now)

def advance : JobRows → Db σ JobRows := advanceWith o1 site now (autoRevert o1 site now)

def approveWindow : JobRows → String → Option String → Db σ JobRows :=
  approveWindowWith o1 site now (autoRevert o1 site now)

def executeWrite : WriteConfigRequest → Origin → Db σ Written :=
  executeWriteWith o1 site now (autoRevert o1 site now)

end Routes

end Smo.RanNfOam.ConfigJobs
