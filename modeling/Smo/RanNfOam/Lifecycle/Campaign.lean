import Mathlib.Data.PNat.Defs
import Smo.RanNfOam.Models
import Smo.Shared.Errors

/-! The software campaign engine (`app/lifecycle.py`): waves of software jobs, the
health gate between them, halts and rollback. The functions work on the rows of one
campaign, a job's id being its place among the campaign's jobs. -/
namespace Smo.RanNfOam.Lifecycle

inductive HaltedReason where
  | gateFailed | wavePause | operatorHalt
  deriving DecidableEq, Repr

inductive OnGateFailure where
  | halt | rollback
  deriving DecidableEq, Repr

inductive RollbackOrder where
  | all | reverse
  deriving DecidableEq, Repr

inductive CampaignLog where
  | started | waveStarted | gateFailed | gatePassed | halted | completed | continued | aborted
  | jobTimedOut | rollbackStarted | rollbackWaveStarted | rollbackFailed | rollbackDone
  deriving DecidableEq, Repr

structure LogEntry where
  moment : Time
  event : CampaignLog
  wave : Nat
  detail : Option String
  requester : Option String
  job : Option Nat
  deriving DecidableEq, Repr

structure SoftwareManagementJob where
  managedElementRef : String
  phase : SwmPhase := .download
  status : SwmState := .pending
  campaignWave : Nat
  rollbackOf : Option Nat := none
  softwareVersion : Option String := none
  deriving DecidableEq, Repr

structure SoftwareCampaign where
  name : String
  requestedBy : String
  status : CampaignState := .pending
  softwareVersion : Option String := none
  elements : List String
  waveSize : Option PNat := none
  waveCount : Nat := 1
  currentWave : Nat := 0
  wavePauseSeconds : Nat := 0
  gateMaxNewAlarms : Nat := 0
  onGateFailure : OnGateFailure := .halt
  jobTimeoutSeconds : Option Nat := none
  rollbackOrder : RollbackOrder := .all
  waveStartedAt : Option Time := none
  nextWaveAt : Option Time := none
  haltedReason : Option HaltedReason := none
  haltedDetail : Option String := none
  waveLog : List LogEntry := []
  finishedAt : Option Time := none
  deriving DecidableEq, Repr

structure CampaignRows where
  c : SoftwareCampaign
  jobs : List SoftwareManagementJob := []
  deriving DecidableEq, Repr

structure Surroundings where
  now : Time
  alarms : List Alarm := []
  deriving DecidableEq, Repr

inductive Raised where
  | software (exc : IllegalTransition SwmState SwmEvent)
  | campaign (exc : IllegalTransition CampaignState CampaignEvent)
  | problem (problem : Problem)
  deriving DecidableEq, Repr

def fireSoftware (state : SwmState) (event : SwmEvent) : Except Raised SwmState :=
  (softwareManagementFsm.fire state event).mapError .software

def fireCampaign (state : CampaignState) (event : CampaignEvent) : Except Raised CampaignState :=
  (campaignFsm.fire state event).mapError .campaign

def HaltedReason.text : HaltedReason → String
  | gateFailed => "GATE_FAILED"
  | wavePause => "WAVE_PAUSE"
  | operatorHalt => "OPERATOR_HALT"

def phaseText : SwmPhase → String
  | .download => "DOWNLOAD"
  | .install => "INSTALL"
  | .activate => "ACTIVATE"

section Waves

variable (w : Surroundings)

def log (s : CampaignRows) (event : CampaignLog) (detail : Option String) (wave : Option Nat)
    (requester : Option String) (job : Option Nat) : CampaignRows :=
  let entry : LogEntry := ⟨w.now, event, wave.getD s.c.currentWave, detail, requester, job⟩
  { s with c := { s.c with waveLog := s.c.waveLog ++ [entry] } }

def orElse (a b : Nat) : Nat := if a ≠ 0 then a else b

/-- `c.wave_size or len(c.elements) or 1`. -/
def sizeOfWaves (c : SoftwareCampaign) : Nat :=
  match c.waveSize with
  | some size => size
  | none => orElse c.elements.length 1

/-- `c.elements[(wave - 1) * size : wave * size]`. -/
def waveElements (c : SoftwareCampaign) (wave : Nat) : List String :=
  let size := sizeOfWaves c
  (c.elements.drop ((wave - 1) * size)).take (wave * size - (wave - 1) * size)

def jobBefore (a b : SoftwareManagementJob × Nat) : Prop :=
  a.1.campaignWave < b.1.campaignWave ∨
    (a.1.campaignWave = b.1.campaignWave ∧ a.1.managedElementRef ≤ b.1.managedElementRef)

instance : DecidableRel jobBefore := fun _ _ => inferInstanceAs (Decidable (_ ∨ _))

/-- The campaign's own jobs, or its revert jobs, of one wave or of all, each with its id. -/
def jobsOf (s : CampaignRows) (wave : Option Nat) (reverts : Bool) :
    List (SoftwareManagementJob × Nat) :=
  (s.jobs.zipIdx.filter fun (job, _) =>
    job.rollbackOf.isSome = reverts && wave.all (· = job.campaignWave)).insertionSort jobBefore

def inFlight (job : SoftwareManagementJob) : Bool :=
  job.status = .pending || job.status = .inProgress

def startSoftwareJob (s : CampaignRows) (ref : String) (wave : Nat) (rollbackOf : Option Nat)
    (softwareVersion : Option String) : Except Raised CampaignRows := do
  let job : SoftwareManagementJob :=
    { managedElementRef := ref, campaignWave := wave, rollbackOf, softwareVersion }
  let status ← fireSoftware .pending .start
  return { s with jobs := s.jobs ++ [{ job with status }] }

def startWave (s : CampaignRows) (wave : Nat) : Except Raised CampaignRows := do
  let s := { s with
    c := { s.c with currentWave := wave, waveStartedAt := some w.now, nextWaveAt := none } }
  let s ← (waveElements s.c wave).foldlM (fun s ref =>
    startSoftwareJob s ref wave none s.c.softwareVersion) s
  let count := (waveElements s.c wave).length
  return log w s .waveStarted (some s!"{count} element(s)") none none none

def gateFailedJobs (s : CampaignRows) (jobs : List (SoftwareManagementJob × Nat)) (_started : Time) :
    Option String :=
  match jobs.filter fun (job, _) => job.status = .failed with
  | [] => none
  | (first, id) :: rest =>
    let failed := ((first, id) :: rest).length
    let wave := s.c.currentWave
    let ref := first.managedElementRef
    let phase := phaseText first.phase
    some s!"{failed} software job(s) of wave {wave} failed (first: {ref}, in phase {phase})"

/-- Health gate: more new critical or major alarms on the wave's elements than allowed. -/
def gateNewAlarms (s : CampaignRows) (jobs : List (SoftwareManagementJob × Nat)) (started : Time) :
    Option String :=
  let elements := jobs.map (·.1.managedElementRef)
  let raised := w.alarms.countP fun alarm =>
    elements.contains alarm.managedElementRef && started ≤ alarm.raisedAt &&
      (alarm.severity = .critical || alarm.severity = .major)
  let wave := s.c.currentWave
  let limit := s.c.gateMaxNewAlarms
  if raised > limit then
    some s!"{raised} new critical or major alarm(s) on the elements of wave {wave} (limit {limit})"
  else none

def healthGates : List (CampaignRows → List (SoftwareManagementJob × Nat) → Time → Option String) :=
  [gateFailedJobs, gateNewAlarms w]

def finish (s : CampaignRows) : Except Raised CampaignRows := do
  let status ← fireCampaign s.c.status .finish
  let s := { s with c := { s.c with
    status, finishedAt := some w.now, nextWaveAt := none, haltedReason := none
    haltedDetail := none } }
  return log w s .completed none none none none

def halt (s : CampaignRows) (reason : HaltedReason) (detail : Option String) (nextAt : Option Time)
    (requester : Option String) : Except Raised CampaignRows := do
  let status ← fireCampaign s.c.status .halt
  let s := { s with c := { s.c with
    status, haltedReason := some reason, haltedDetail := detail, nextWaveAt := nextAt } }
  let why := reason.text ++ (match detail with | none => "" | some text => ": " ++ text)
  return log w s .halted (some why) none requester none

end Waves

section Rollback

variable (w : Surroundings)

inductive RevertState where
  | completed | inProgress | failed
  deriving DecidableEq, Repr

def RevertState.rank : RevertState → Nat
  | completed => 2
  | inProgress => 1
  | failed => 0

def revertState (revert : SoftwareManagementJob) : RevertState :=
  if revert.status = .completed then .completed
  else if inFlight revert then .inProgress
  else .failed

def noteRevert (state : List (Nat × RevertState)) (revert : SoftwareManagementJob) :
    List (Nat × RevertState) :=
  match revert.rollbackOf with
  | none => state
  | some original =>
    let mine := revertState revert
    match state.lookup original with
    | none => state ++ [(original, mine)]
    | some best =>
      if mine.rank > best.rank then
        state.map fun (id, held) => if id = original then (id, mine) else (id, held)
      else state

def undone (reverts : List (SoftwareManagementJob × Nat)) : List (Nat × RevertState) :=
  reverts.foldl (fun state revert => noteRevert state revert.1) []

def revertTargets (s : CampaignRows) (reverts : List (SoftwareManagementJob × Nat)) :
    List (SoftwareManagementJob × Nat) :=
  let undone := undone reverts
  (jobsOf s none false).filter fun (job, id) =>
    job.status = .completed && undone.lookup id ≠ some .completed &&
      undone.lookup id ≠ some .inProgress

def stepTargets (order : RollbackOrder) (targets : List (SoftwareManagementJob × Nat)) :
    List (SoftwareManagementJob × Nat) :=
  match order with
  | .all => targets
  | .reverse =>
    let last := targets.foldl (fun last job => max last job.1.campaignWave) 0
    targets.filter fun job => job.1.campaignWave = last

def noteStep (s : CampaignRows) (targets : List (SoftwareManagementJob × Nat)) (count : Nat) :
    CampaignRows :=
  let last := targets.foldl (fun last job => max last job.1.campaignWave) 0
  let s := if s.c.rollbackOrder = .reverse ∧ targets ≠ [] then
      log w s .rollbackWaveStarted (some s!"{count} job(s)") (some last) none none
    else s
  if count ≠ 0 then { s with c := { s.c with waveStartedAt := some w.now } } else s

def startReverts (s : CampaignRows) (targets : List (SoftwareManagementJob × Nat)) :
    Except Raised (CampaignRows × Nat) := do
  let step := stepTargets s.c.rollbackOrder targets
  let s ← step.foldlM (fun s job =>
    startSoftwareJob s job.1.managedElementRef job.1.campaignWave (some job.2) none)
    (noteStep w s targets step.length)
  return (s, step.length)

def failRollback (s : CampaignRows) (failed : Nat) : Except Raised CampaignRows := do
  let status ← fireCampaign s.c.status .rollbackFailed
  let s := { s with c := { s.c with status } }
  return log w s .rollbackFailed (some s!"{failed} revert job(s) failed") none none none

def endRollback (s : CampaignRows) (jobs : Nat) : Except Raised CampaignRows := do
  let status ← fireCampaign s.c.status .rollbackDone
  let s := { s with c := { s.c with status, finishedAt := some w.now } }
  return log w s .rollbackDone (some s!"{jobs} job(s) undone") none none none

def revertsRunning (s : CampaignRows) : Bool :=
  (jobsOf s none true).any fun (job, _) => inFlight job

def failedReverts (s : CampaignRows) : List (Nat × RevertState) :=
  (undone (jobsOf s none true)).filter fun (_, state) => state = .failed

/-- When the reverts started so far have ended: failed, the next step of a reverse
rollback, or done. -/
def progressRollback (s : CampaignRows) : Except Raised CampaignRows :=
  let jobs := (undone (jobsOf s none true)).length
  if revertsRunning s then .ok s
  else if failedReverts s ≠ [] then failRollback w s (failedReverts s).length
  else if s.c.rollbackOrder = .reverse then do
    let (s, started) ← startReverts w s (revertTargets s (jobsOf s none true))
    if started ≠ 0 then return s else endRollback w s jobs
  else endRollback w s jobs

def startRollback (s : CampaignRows) (why : String) (requester : Option String) :
    Except Raised CampaignRows := do
  let targets := revertTargets s (jobsOf s none true)
  let status ← fireCampaign s.c.status .rollback
  let s := { s with c := { s.c with
    status, haltedReason := none, haltedDetail := none, nextWaveAt := none, finishedAt := none } }
  let count := targets.length
  let s := log w s .rollbackStarted (some s!"{why}; {count} job(s) to undo") none requester none
  let (s, started) ← startReverts w s targets
  if started = 0 then progressRollback w s else return s

end Rollback

section Progress

variable (w : Surroundings)

def nextWaveOrFinish (s : CampaignRows) : Except Raised CampaignRows :=
  if s.c.currentWave ≥ s.c.waveCount then finish w s else startWave w s (s.c.currentWave + 1)

def gateFailure (s : CampaignRows) (jobs : List (SoftwareManagementJob × Nat)) : Option String :=
  let started := s.c.waveStartedAt.getD w.now
  (healthGates w).findSome? fun gate => gate s jobs started

def failGate (s : CampaignRows) (failure : String) : Except Raised CampaignRows :=
  if s.c.onGateFailure = .rollback then startRollback w s failure none
  else halt w s .gateFailed (some failure) none none

/-- After a passed gate the campaign is finished (`inl`), pauses (`inl`) or has started its
next wave (`inr`). -/
def passGate (s : CampaignRows) : Except Raised (CampaignRows ⊕ CampaignRows) :=
  if s.c.currentWave ≥ s.c.waveCount then .inl <$> finish w s
  else if s.c.wavePauseSeconds > 0 then
    .inl <$> halt w s .wavePause none (some (w.now + seconds s.c.wavePauseSeconds)) none
  else .inr <$> startWave w s (s.c.currentWave + 1)

/-- What the wave in progress leads to: the rows with which the loop ends (`inl`),
or with which it goes round again (`inr`). -/
def waveStep (s : CampaignRows) : Except Raised (CampaignRows ⊕ CampaignRows) :=
  let jobs := jobsOf s (some s.c.currentWave) false
  if jobs.any fun (job, _) => inFlight job then .ok (.inl s)
  else
    match gateFailure w s jobs with
    | some failure =>
      .inl <$> failGate w (log w s .gateFailed (some failure) none none none) failure
    | none =>
      let count := jobs.length
      passGate w (log w s .gatePassed (some s!"{count} job(s) completed") none none none)

/-- The loop of `_progress_wave`, at most `fuel` times round. -/
def progressWaveLoop : Nat → CampaignRows → Except Raised CampaignRows
  | 0, s => .ok s
  | fuel + 1, s =>
    if s.c.status = .running then
      match waveStep w s with
      | .ok (.inl s) => .ok s
      | .ok (.inr s) => progressWaveLoop fuel s
      | .error exc => .error exc
    else .ok s

/-- The waves of a running campaign, from the one in progress. Each time round starts a
wave, so the loop goes round at most once a wave. -/
def progressWave (s : CampaignRows) : Except Raised CampaignRows :=
  progressWaveLoop w (s.c.waveCount + 1) s

def progress (s : CampaignRows) : Except Raised CampaignRows :=
  match s.c.status with
  | .running => progressWave w s
  | .rollingBack => progressRollback w s
  | _ => .ok s

end Progress

end Smo.RanNfOam.Lifecycle
