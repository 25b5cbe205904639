import Smo.Lib.Runs
import Smo.RanNfOam.Lifecycle.Campaign

/-! The operations on software campaigns: job reports, the sweep with its job
timeouts, and the create, halt, continue, abort and rollback routes. Each is a
transaction of its own, run one at a time; what a request that raised had not
committed is gone. -/
namespace Smo.RanNfOam.Lifecycle

section Rows

variable (w : Surroundings)

def expireJob (timeout : Nat) (s : CampaignRows) (stuck : SoftwareManagementJob × Nat) :
    Except Raised CampaignRows := do
  let (job, id) := stuck
  let status ← fireSoftware job.status .phaseFailed
  let s := { s with jobs := s.jobs.set id { job with status } }
  let ref := job.managedElementRef
  let phase := phaseText job.phase
  return log w s .jobTimedOut (some s!"{ref} did not report within {timeout} s (phase {phase})")
    (some job.campaignWave) none (some id)

def stuckJobs (s : CampaignRows) : List (SoftwareManagementJob × Nat) :=
  (if s.c.status = .running then jobsOf s (some s.c.currentWave) false
    else jobsOf s none true).filter fun (job, _) => job.status = .inProgress

def expireJobs (s : CampaignRows) : Except Raised CampaignRows :=
  match s.c.jobTimeoutSeconds, s.c.waveStartedAt with
  | some timeout, some started =>
    if s.c.status ≠ .running ∧ s.c.status ≠ .rollingBack then .ok s
    else if w.now < started + seconds timeout then .ok s
    else (stuckJobs s).foldlM (expireJob w timeout) s
  | _, _ => .ok s

def setRunning (s : CampaignRows) (requester : Option String) : Except Raised CampaignRows := do
  let status ← fireCampaign .halted .resume
  let after := match s.c.haltedReason with | none => "None" | some reason => reason.text
  let s := { s with c := { s.c with
    status, haltedReason := none, haltedDetail := none, nextWaveAt := none } }
  return log w s .continued (some s!"after {after}") none requester none

def leaveWave (s : CampaignRows) (reason : Option HaltedReason) : Except Raised CampaignRows :=
  if reason = some .gateFailed ∨ reason = some .wavePause then nextWaveOrFinish w s else .ok s

def resume (s : CampaignRows) (requester : Option String) : Except Raised CampaignRows := do
  let running ← setRunning w s requester
  let next ← leaveWave w running s.c.haltedReason
  progress w next

def phaseEvent : SwmPhase → SwmEvent
  | .download => .downloadOk
  | .install => .installOk
  | .activate => .activateOk

def subject (campaignId : Nat) : String := s!"software campaign {campaignId}"

/-- `illegal_transition_error`. -/
def illegalTransitionError (state : CampaignState) (event : CampaignEvent) (subject : String) :
    Raised :=
  let fired := event.text
  let held := state.text
  .problem ⟨.lifecycleIllegalTransition,
    s!"{subject}: event {fired} is not allowed in state {held}"⟩

def reportJob (s : CampaignRows) (id : Nat) (succeeded : Bool) : Except Raised CampaignRows := do
  match s.jobs[id]? with
  | none => .error (.problem ⟨.softwareJobNotFound, s!"unknown jobId {id}"⟩)
  | some job =>
    let event := phaseEvent job.phase
    if succeeded then
      let status ← fireSoftware job.status event
      let phase := (phaseOrder event).getD job.phase
      return { s with jobs := s.jobs.set id { job with status, phase } }
    else
      let status ← fireSoftware job.status .phaseFailed
      return { s with jobs := s.jobs.set id { job with status } }

structure CampaignAction where
  requestedBy : String
  force : Bool := false
  deriving DecidableEq, Repr

def continueCampaign (s : CampaignRows) (id : Nat) (body : CampaignAction) :
    Except Raised CampaignRows :=
  if s.c.status ≠ .halted then .error (illegalTransitionError s.c.status .resume (subject id))
  else if s.c.haltedReason = some .wavePause ∧ (s.c.nextWaveAt.any fun next => w.now < next) ∧
      !body.force then
    let next := s.c.nextWaveAt.getD 0
    .error (.problem ⟨.wavePauseNotElapsed,
      s!"the pause between waves ends at {next}; send force=true to go on now"⟩)
  else resume w s (some body.requestedBy)

def holdCampaign (s : CampaignRows) (requester : String) : CampaignRows :=
  let s := { s with c := { s.c with
    haltedReason := some .operatorHalt, haltedDetail := some s!"halted by {requester}"
    nextWaveAt := none } }
  log w s .halted (some "OPERATOR_HALT") none (some requester) none

def haltCampaign (s : CampaignRows) (id : Nat) (body : CampaignAction) :
    Except Raised CampaignRows :=
  let requester := body.requestedBy
  if s.c.status = .running then
    halt w s .operatorHalt (some s!"halted by {requester}") none (some requester)
  else if s.c.status = .halted ∧ s.c.haltedReason = some .wavePause then
    .ok (holdCampaign w s requester)
  else if s.c.status ≠ .halted then
    .error (illegalTransitionError s.c.status .halt (subject id))
  else .ok s

def setAborted (s : CampaignRows) (requester : String) : Except Raised CampaignRows := do
  let status ← fireCampaign .halted .abort
  let after := match s.c.haltedReason with | none => "None" | some reason => reason.text
  let s := { s with c := { s.c with status, finishedAt := some w.now, nextWaveAt := none } }
  return log w s .aborted (some s!"after {after}") none (some requester) none

def abortCampaign (s : CampaignRows) (id : Nat) (body : CampaignAction) :
    Except Raised CampaignRows :=
  if s.c.status ≠ .halted then .error (illegalTransitionError s.c.status .abort (subject id))
  else setAborted w s body.requestedBy

def rollbackCampaign (s : CampaignRows) (id : Nat) (body : CampaignAction) :
    Except Raised CampaignRows :=
  let running := (jobsOf s none false).filter fun (job, _) => inFlight job
  let requester := body.requestedBy
  if s.c.status ∉ [.halted, .completed, .aborted, .rollbackFailed] then
    .error (illegalTransitionError s.c.status .rollback (subject id))
  else if running ≠ [] then
    let named := ", ".intercalate ((running.map (·.1.managedElementRef)).take 10)
    .error (.problem ⟨.rollbackNotPossible, s!"software job(s) still running: {named}"⟩)
  else startRollback w s s!"requested by {requester}" (some requester)

end Rows

structure CampaignSelector where
  entityType : Option String := none
  vendorName : Option String := none
  region : Option String := none
  tenant : Option String := none
  deriving DecidableEq, Repr

inductive ElementChoice where
  | managedElementRefs (refs : List String)
  | selector (selector : CampaignSelector)
  deriving DecidableEq, Repr

structure CampaignRequest where
  requestedBy : String
  name : String
  softwareVersion : Option String := none
  choice : ElementChoice
  waveSize : Option PNat := none
  wavePauseSeconds : Nat := 0
  gateMaxNewAlarms : Nat := 0
  onGateFailure : OnGateFailure := .halt
  jobTimeoutSeconds : Option Nat := none
  rollbackOrder : RollbackOrder := .all
  dryRun : Bool := false
  deriving DecidableEq, Repr

def CampaignRequest.Valid (body : CampaignRequest) : Prop :=
  body.choice ≠ .managedElementRefs []

/-- The campaigns, the registry, the elements with a software job in flight outside
any campaign, the alarms and the clock. -/
structure CampaignStore where
  campaigns : List CampaignRows := []
  registry : Registry := {}
  busyElsewhere : List String := []
  alarms : List Alarm := []
  now : Time := 0

namespace CampaignStore

def surroundings (store : CampaignStore) : Surroundings := ⟨store.now, store.alarms⟩

def maxCampaignElements : Nat := 5000

def refuse (error : FrameworkError) (detail : String) : Except Raised α :=
  .error (.problem ⟨error, detail⟩)

def listed (refs : List String) : String := ", ".intercalate (refs.take 10)

def matchesSelector (selector : CampaignSelector) (row : ManagedEntity) : Bool :=
  selector.entityType.all (· = row.entityType) &&
    (selector.vendorName.isNone || selector.vendorName = row.vendorName) &&
    (selector.region.isNone || selector.region = row.region) &&
    (selector.tenant.isNone || selector.tenant = row.tenant)

def supportsSoftware (services : Option (List String)) : Bool :=
  services.all (·.contains "SWM")

def namedElements (store : CampaignStore) (scope : Option Scope) (refs : List String) :
    Except Raised (List String) := do
  let refs := refs.eraseDups
  let denied := deniedRefs store.registry scope refs
  if denied ≠ [] then
    let shown := listed denied
    refuse .scopeDenied s!"the caller's scope does not cover: {shown}"
  else
    let missing := refs.filter fun ref => (store.registry.get? ref).isNone
    if missing ≠ [] then
      let shown := listed missing
      refuse .schemaValidationFailed s!"not registered: {shown}"
    else
      let unsupported := refs.filter fun ref =>
        !supportsSoftware (store.registry.effectiveServices ref)
      if unsupported ≠ [] then
        let shown := listed unsupported
        refuse .o1ServiceNotSupported s!"no software management service: {shown}"
      else return refs

def selectedElements (store : CampaignStore) (scope : Option Scope) (selector : CampaignSelector) :
    Except Raised (List String) :=
  let rows := store.registry.rows.filter fun row =>
    elementPermitted store.registry scope row.managedElementRef && matchesSelector selector row
  let supported := rows.filter fun row => supportsSoftware row.services
  let elements := (supported.map (·.managedElementRef)).insertionSort (· ≤ ·)
  if elements = [] then
    refuse .schemaValidationFailed
      "the selector matches no element that has a software management service"
  else if elements.length > maxCampaignElements then
    refuse .schemaValidationFailed
      s!"the selector matches more than {maxCampaignElements} elements; narrow it"
  else .ok elements

def busyElements (store : CampaignStore) : List String :=
  store.campaigns.flatMap (fun s => (s.jobs.filter inFlight).map (·.managedElementRef)) ++
    store.busyElsewhere

def chosenElements (store : CampaignStore) (scope : Option Scope) :
    ElementChoice → Except Raised (List String)
  | .managedElementRefs refs => store.namedElements scope refs
  | .selector selector => store.selectedElements scope selector

def resolveElements (store : CampaignStore) (scope : Option Scope) (body : CampaignRequest) :
    Except Raised (List String) := do
  let elements ← store.chosenElements scope body.choice
  let busy := elements.filter fun ref => store.busyElements.contains ref
  if busy ≠ [] then
    let shown := listed (busy.insertionSort (· ≤ ·))
    refuse .serviceNameConflict s!"a software job is already running on: {shown}"
  else return elements

/-- `math.ceil(len(elements) / size)`. -/
def waveCountOf (elements : List String) (size : Nat) : Nat := (elements.length + size - 1) / size

def createRows (w : Surroundings) (body : CampaignRequest) (elements : List String) :
    Except Raised CampaignRows := do
  let size := (body.waveSize.map (·.val)).getD elements.length
  let waveCount := waveCountOf elements size
  let status ← fireCampaign .pending .start
  let s : CampaignRows := { c := {
    name := body.name
    requestedBy := body.requestedBy
    status
    softwareVersion := body.softwareVersion
    elements
    waveSize := body.waveSize
    waveCount
    wavePauseSeconds := body.wavePauseSeconds
    gateMaxNewAlarms := body.gateMaxNewAlarms
    onGateFailure := body.onGateFailure
    jobTimeoutSeconds := body.jobTimeoutSeconds
    rollbackOrder := body.rollbackOrder } }
  let count := elements.length
  let s := log w s .started (some s!"{count} element(s) in {waveCount} wave(s)") (some 0)
    (some body.requestedBy) none
  startWave w s 1

def createSoftwareCampaign (store : CampaignStore) (scope : Option Scope)
    (body : CampaignRequest) : Except Raised CampaignStore := do
  let elements ← store.resolveElements scope body
  if body.dryRun then return store
  else
    let s ← createRows store.surroundings body elements
    return { store with campaigns := store.campaigns ++ [s] }

/-- The campaign of an id; one with an element outside the caller's scope is not found. -/
def campaignOr404 (store : CampaignStore) (scope : Option Scope) (id : Nat) :
    Except Raised CampaignRows :=
  match store.campaigns[id]? with
  | none => refuse .softwareCampaignNotFound s!"no software campaign {id}"
  | some s =>
    if deniedRefs store.registry scope s.c.elements ≠ [] then
      refuse .softwareCampaignNotFound s!"no software campaign {id}"
    else .ok s

def put (store : CampaignStore) (id : Nat) (s : CampaignRows) : CampaignStore :=
  { store with campaigns := store.campaigns.set id s }

def onCampaign (store : CampaignStore) (scope : Option Scope) (id : Nat)
    (route : CampaignRows → Except Raised CampaignRows) : Except Raised CampaignStore := do
  let s ← store.campaignOr404 scope id
  let s ← route s
  return store.put id s

/-- A job's report, committed, and then what its campaign makes of it, in a
transaction of its own. -/
def advanceSoftwareJob (store : CampaignStore) (scope : Option Scope) (id job : Nat)
    (succeeded : Bool) : Except Raised CampaignStore := do
  match store.campaigns[id]? with
  | none => refuse .softwareJobNotFound s!"unknown jobId {job}"
  | some s =>
    let permitted := (s.jobs[job]?).all fun row =>
      elementPermitted store.registry scope row.managedElementRef
    if !permitted then refuse .softwareJobNotFound s!"unknown jobId {job}"
    else
      let s ← reportJob s job succeeded
      let store := store.put id s
      match progress store.surroundings s with
      | .ok s => return store.put id s
      | .error _ => return store

def due (now : Time) (s : CampaignRows) : Bool :=
  s.c.status = .halted && s.c.haltedReason = some .wavePause && s.c.nextWaveAt.any (· ≤ now)

/-- Resumes the campaigns of the list in turn, committing each; one that raises ends the
sweep (`false`). -/
def resumeAll : List Nat → CampaignStore → CampaignStore × Bool
  | [], store => (store, true)
  | id :: rest, store =>
    match store.campaigns[id]? with
    | none => resumeAll rest store
    | some s =>
      match resume store.surroundings s (some "sweep") with
      | .ok s => resumeAll rest (store.put id s)
      | .error _ => (store, false)

def expireAndProgress (w : Surroundings) (s : CampaignRows) : Except Raised CampaignRows := do
  let s ← expireJobs w s
  progress w s

def moved (before after : SoftwareCampaign) : Bool :=
  (after.status, after.currentWave, after.waveLog.length) ≠
    (before.status, before.currentWave, before.waveLog.length)

/-- Lets the campaigns of the list catch up in turn; only one that moved is committed. -/
def catchUpAll : List Nat → CampaignStore → CampaignStore
  | [], store => store
  | id :: rest, store =>
    match store.campaigns[id]? with
    | none => catchUpAll rest store
    | some s =>
      match expireAndProgress store.surroundings s with
      | .ok s' =>
        catchUpAll rest (if moved s.c s'.c then store.put id s' else store)
      | .error _ => store

def idsWhere (store : CampaignStore) (wanted : CampaignRows → Bool) : List Nat :=
  (store.campaigns.zipIdx.filter fun (s, _) => wanted s).map (·.2)

def dueIds (store : CampaignStore) : List Nat :=
  let rows := store.campaigns.zipIdx.filter fun (s, _) => due store.now s
  (rows.insertionSort fun a b => a.1.c.nextWaveAt.getD 0 ≤ b.1.c.nextWaveAt.getD 0).map (·.2)

/-- The sweep: campaigns whose pause has elapsed go on, and those that run or roll
back catch up. -/
def advanceDue (store : CampaignStore) : CampaignStore :=
  match resumeAll store.dueIds store with
  | (store, false) => store
  | (store, true) =>
    catchUpAll (store.idsWhere fun s => s.c.status = .running ∨ s.c.status = .rollingBack) store

end CampaignStore

inductive CampaignOp where
  | create (scope : Option Scope) (body : CampaignRequest)
  | advanceJob (scope : Option Scope) (campaign job : Nat) (succeeded : Bool)
  | advanceDue
  | continue_ (scope : Option Scope) (campaign : Nat) (body : CampaignAction)
  | halt (scope : Option Scope) (campaign : Nat) (body : CampaignAction)
  | abort (scope : Option Scope) (campaign : Nat) (body : CampaignAction)
  | rollback (scope : Option Scope) (campaign : Nat) (body : CampaignAction)
  | surroundings (registry : Registry) (busyElsewhere : List String) (alarms : List Alarm)
      (now : Time)

namespace CampaignStore

def perform (store : CampaignStore) : CampaignOp → Except Raised CampaignStore
  | .create scope body => store.createSoftwareCampaign scope body
  | .advanceJob scope campaign job succeeded =>
    store.advanceSoftwareJob scope campaign job succeeded
  | .advanceDue => .ok store.advanceDue
  | .continue_ scope campaign body =>
    store.onCampaign scope campaign fun s => continueCampaign store.surroundings s campaign body
  | .halt scope campaign body =>
    store.onCampaign scope campaign fun s => haltCampaign store.surroundings s campaign body
  | .abort scope campaign body =>
    store.onCampaign scope campaign fun s => abortCampaign store.surroundings s campaign body
  | .rollback scope campaign body =>
    store.onCampaign scope campaign fun s => rollbackCampaign store.surroundings s campaign body
  | .surroundings registry busyElsewhere alarms now =>
    .ok { store with registry, busyElsewhere, alarms, now }

/-- One operation after another; a request the model refuses never reaches the store,
and one that raises leaves it as it was. -/
inductive Step : CampaignStore → CampaignOp → CampaignStore → Prop
  | commits (valid : ∀ scope body, op = .create scope body → body.Valid)
      (done : store.perform op = .ok store') : Step store op store'
  | raises (raised : store.perform op = .error exc) : Step store op store

def next (store : CampaignStore) (op : CampaignOp) : CampaignStore :=
  (store.perform op).toOption.getD store

theorem step_next {store : CampaignStore} {op : CampaignOp}
    (valid : ∀ scope body, op = .create scope body → body.Valid) : Step store op (store.next op) := by
  cases done : store.perform op with
  | ok store' => simpa [next, done, Except.toOption] using Step.commits valid done
  | error exc => simpa [next, done, Except.toOption] using Step.raises done

end CampaignStore
end Smo.RanNfOam.Lifecycle
