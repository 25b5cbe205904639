import Smo.RanNfOam.ConfigJobs.Dispatch

/-! Running the waves of a config job from the next one until it ends or halts: the
health gates after each wave but the last, the pause, and the end. The undo of a job whose
gate failed is the caller's. -/
namespace Smo.RanNfOam.ConfigJobs

def orRaise {σ α : Type} : Except (IllegalTransition JobState JobEvent) α → EStateM Raised σ α
  | .ok value => return value
  | .error exc => throw (.job exc)

def waveRows (rows : List WriteConfigSubChange) (wave : Nat) : List WriteConfigSubChange :=
  rows.filter (·.wave = wave)

def withWave (wave : Nat) : List WriteConfigSubChange → List WriteConfigSubChange →
    List WriteConfigSubChange
  | [], _ => []
  | row :: rows, [] => row :: rows
  | row :: rows, ran :: rest =>
    if row.wave = wave then ran :: withWave wave rows rest
    else row :: withWave wave rows (ran :: rest)

def gateRejections (wave : Nat) (rows : List WriteConfigSubChange) : Option String :=
  match rows.filter (·.status = .rejected) with
  | [] => none
  | first :: others =>
    let why := first.rejectionReason.getD "None"
    some s!"{others.length + 1} sub-change(s) of wave {wave} were rejected (first: {first.label}: {why})"

/-- A gate that fails when too many alarms were raised on the wave's elements since it
started. -/
def gateAlarms (limit wave : Nat) (rows : List WriteConfigSubChange) (alarms : List Alarm)
    (started : Time) : Option String :=
  let raised := alarms.countP fun alarm =>
    alarm.managedElementRef ∈ rows.map (·.managedElementRef) ∧ started ≤ alarm.raisedAt ∧
      (alarm.severity = .critical ∨ alarm.severity = .major)
  if raised > limit then
    some s!"{raised} new critical or major alarm(s) on the elements of wave {wave} (limit {limit})"
  else none

def healthGates (limit wave : Nat) (rows : List WriteConfigSubChange) (alarms : List Alarm)
    (started : Time) : Option String :=
  (gateRejections wave rows).or (gateAlarms limit wave rows alarms started)

/-- `_finish`. -/
def finish (jr : JobRows) : Except (IllegalTransition JobState JobEvent) JobRows := do
  let status ← writeConfigJobFsm.fire jr.job.status (aggregateEvent (jr.rows.map (·.status)))
  return { jr with job := { jr.job with status, nextWaveAt := none } }

/-- `_halt`. -/
def halt (jr : JobRows) (reason : HaltedReason) (detail : Option String)
    (nextAt : Option Time := none) : Except (IllegalTransition JobState JobEvent) JobRows := do
  let status ← writeConfigJobFsm.fire jr.job.status .halt
  return { jr with job := { jr.job with
    status, haltedReason := some reason, haltedDetail := detail, nextWaveAt := nextAt } }

/-- What the loop of `_advance` does after a wave. -/
inductive Turn where
  | goesOn
  | rests (jr : JobRows)
  | gateFailed (failure : String)
  deriving DecidableEq, Repr

def afterWave (now : Time) (jr : JobRows) (alarms : List Alarm) :
    Except (IllegalTransition JobState JobEvent) Turn :=
  if jr.job.currentWave ≥ jr.job.waveCount then .rests <$> finish jr
  else
    match healthGates jr.job.gateMaxNewAlarms jr.job.currentWave
        (waveRows jr.rows jr.job.currentWave) alarms now with
    | some failure =>
      if jr.job.onGateFailure = .revert then .ok (.gateFailed failure)
      else .rests <$> halt jr .gateFailed (some failure)
    | none =>
      if jr.job.wavePauseSeconds > 0 then
        .rests <$> halt jr .wavePause none (some (now + seconds jr.job.wavePauseSeconds))
      else .ok .goesOn

structure Advanced where
  jr : JobRows
  alarms : List Alarm
  undo : Option String := none
  deriving DecidableEq, Repr

section Running

variable {σ : Type} (o1 : O1Clients σ) (site : Site) (now : Time)

def runWave (jr : JobRows) (alarms : List Alarm) : Line σ (JobRows × List Alarm) := do
  let wave := jr.job.currentWave + 1
  let (rows, raised) ← dispatchWave o1 site now jr.job (waveRows jr.rows wave)
  return (⟨{ jr.job with currentWave := wave }, withWave wave jr.rows rows⟩, alarms ++ raised)

/-- One turn of the loop of `_advance`, and the turns after it. -/
def loopTurn (goOn : JobRows → List Alarm → Line σ Advanced) (jr : JobRows)
    (alarms : List Alarm) : Line σ Advanced := do
  let ran ← runWave o1 site now jr alarms
  let turn ← orRaise (afterWave now ran.1 ran.2)
  match turn with
  | .rests jr => return ⟨jr, ran.2, none⟩
  | .gateFailed failure => return ⟨ran.1, ran.2, some failure⟩
  | .goesOn => goOn ran.1 ran.2

def runWaves : (turns : Nat) → JobRows → List Alarm → Line σ Advanced
  | 0 => loopTurn o1 site now fun jr alarms => return ⟨jr, alarms, none⟩
  | turns + 1 => loopTurn o1 site now (runWaves turns)

def advanceWaves (jr : JobRows) (alarms : List Alarm) : Line σ Advanced :=
  runWaves o1 site now (jr.job.waveCount - (jr.job.currentWave + 1)) jr alarms

end Running

theorem afterWave_goesOn {now : Time} {jr : JobRows} {alarms : List Alarm}
    (h : afterWave now jr alarms = .ok .goesOn) : jr.job.currentWave < jr.job.waveCount := by
  by_contra last
  rw [afterWave, if_pos (by omega)] at h
  obtain ⟨_, _, different⟩ := map_ok h
  cases different

section Loop

variable {σ : Type} {o1 : O1Clients σ} {site : Site} {now : Time} {jr ran : JobRows}
  {alarms raised : List Alarm} {wire wire' : Wire σ}

theorem runWave_ok (h : runWave o1 site now jr alarms wire = .ok (ran, raised) wire') :
    ∃ rows more, dispatchWave o1 site now jr.job
        (waveRows jr.rows (jr.job.currentWave + 1)) wire = .ok (rows, more) wire' ∧
      ran = ⟨{ jr.job with currentWave := jr.job.currentWave + 1 },
        withWave (jr.job.currentWave + 1) jr.rows rows⟩ ∧ raised = alarms ++ more := by
  obtain ⟨⟨rows, more⟩, between, dispatched, rest⟩ := Transaction.bind_ok h
  cases rest
  exact ⟨rows, more, dispatched, rfl, rfl⟩

theorem advanceWaves_loop : advanceWaves o1 site now jr alarms wire =
    loopTurn o1 site now (advanceWaves o1 site now) jr alarms wire := by
  have same : ∀ goOn,
      (∀ ran raised wire', runWave o1 site now jr alarms wire = .ok (ran, raised) wire' →
        ran.job.currentWave < ran.job.waveCount →
        goOn ran raised wire' = advanceWaves o1 site now ran raised wire') →
      loopTurn o1 site now goOn jr alarms wire =
        loopTurn o1 site now (advanceWaves o1 site now) jr alarms wire := by
    intro goOn goesOn
    apply Transaction.bind_congr
    intro ran wire' waveRan
    cases turned : afterWave now ran.1 ran.2 with
    | error exc => rfl
    | ok turn =>
      cases turn with
      | rests jr => rfl
      | gateFailed failure => rfl
      | goesOn => exact goesOn ran.1 ran.2 wire' waveRan (afterWave_goesOn turned)
  cases turns : jr.job.waveCount - (jr.job.currentWave + 1) with
  | zero =>
    rw [advanceWaves, turns, runWaves]
    apply same
    intro ran raised wire' waveRan inside
    obtain ⟨rows, more, -, rfl, -⟩ := runWave_ok waveRan
    simp only at inside
    omega
  | succ turns' =>
    rw [advanceWaves, turns, runWaves]
    apply same
    intro ran raised wire' waveRan inside
    obtain ⟨rows, more, -, rfl, -⟩ := runWave_ok waveRan
    simp only [advanceWaves]
    congr 1
    omega

end Loop

end Smo.RanNfOam.ConfigJobs
