import Smo.Lib.Runs
import Smo.RanNfOam.StateMachine

/-! The KPI guards of configuration jobs (`ran-nf-oam/app/main.py`), with jobs that write for as long as
they run and any number of workers that check the ended ones. -/
namespace Smo.RanNfOam.KpiGuards

structure KpiGuard where
  baselineMinutes : Nat
  observationMinutes : Nat
  revert : Bool
  deriving DecidableEq

inductive Verdict
  | ok
  | insufficientData
  | regressed
  | error
  deriving DecidableEq

structure Result where
  verdict : Verdict
  reverted : Bool
  deriving DecidableEq

structure Write where
  element : String
  name : String
  value : String
  time : Nat
  deriving DecidableEq

/-- A job with its guard; `anchor` is `schema_validated_at`. `finals` counts the verdicts that were
final, `reverts` what the guard sent to undo the job. -/
structure Job where
  kpiGuard : Option KpiGuard
  anchor : Nat
  status : JobState
  applied : List Write := []
  rejected : Nat := 0
  result : Option Result := none
  checkedAt : Option Nat := none
  rowVersion : Nat := 1
  finals : Nat := 0
  reverts : Nat := 0
  deriving DecidableEq

namespace Job

variable (job : Job)

def aggregate : JobState :=
  if job.rejected = 0 then .completed else if job.applied = [] then .failed else .partialSuccess

def guarded : Bool :=
  job.kpiGuard.isSome && job.checkedAt.isNone &&
    (job.status = .completed || job.status = .partialSuccess)

def elements : List String := job.applied.map (·.element)

def left (element name : String) : Option String :=
  (job.applied.reverse.find? fun write => write.element = element ∧ write.name = name).map
    (·.value)

def windowEnds : Nat := job.anchor + (job.kpiGuard.map (·.observationMinutes)).getD 0

def touched (elements : List String) : List (String × String) :=
  (job.applied.filter (·.element ∈ elements)).map fun write => (write.element, write.name)

end Job

inductive Comparison
  | raised
  | insufficientData
  | ok
  | regressed (elements : List String)
  deriving DecidableEq

inductive Undo
  | completed
  | incomplete
  | raised
  deriving DecidableEq

/-- How far a worker is with the job in hand, and with which version it read the row. `ended` has the
jobs its run did not come to. -/
inductive Stage
  | looking
  | loaded (jobId rowVersion : Nat)
  | comparing (jobId rowVersion : Nat) (regressed : List String)
  | reverting (jobId : Nat) (regressed : List String)
  | recording (jobId rowVersion : Nat) (result : Result)
  | ended (dropped : List Nat)
  deriving DecidableEq

def Stage.job? : Stage → Option Nat
  | .loaded jobId _ | .comparing jobId _ _ | .reverting jobId _ | .recording jobId _ _ => some jobId
  | .looking | .ended _ => none

structure Worker where
  now : Nat
  selected : List Nat
  rest : List Nat
  stage : Stage
  deriving DecidableEq

/-- Jobs and workers are known by their places; `values` are the attributes on the elements. -/
structure State where
  clock : Nat := 0
  jobs : List Job := []
  workers : List Worker := []
  values : String → String → String := fun _ _ => ""
  grace : Nat := 60

inductive Act
  | tick (minutes : Nat)
  | ask (kpiGuard : Option KpiGuard) (held : Bool)
  | start (jobId : Nat)
  | apply (jobId : Nat) (element name value : String)
  | reject (jobId : Nat)
  | halt (jobId : Nat)
  | resume (jobId : Nat)
  | finish (jobId : Nat)
  | overwrite (element name value : String)
  | select
  | look (worker : Nat)
  | judge (worker : Nat) (comparison : Comparison)
  | compare (worker : Nat) (possible : Bool)
  | send (worker : Nat) (before : String → String → String) (undo : Undo)
  | record (worker : Nat)

namespace State

variable (s : State)

def withJob (jobId : Nat) (job : Job) : State := { s with jobs := s.jobs.set jobId job }

def withStage (w : Nat) (worker : Worker) (stage : Stage) : State :=
  { s with workers := s.workers.set w { worker with stage } }

def edit (jobId : Nat) (from_ : List JobState) (change : Job → Job) : Option State :=
  match s.jobs[jobId]? with
  | some job =>
    if job.status ∈ from_ then
      some (s.withJob jobId { change job with rowVersion := job.rowVersion + 1 })
    else none
  | none => none

def unchanged (job : Job) (elements : List String) : Bool :=
  (job.touched elements).all fun (element, name) =>
    job.left element name = some (s.values element name)

def isFinal (now : Nat) (job : Job) (result : Result) : Bool :=
  result.verdict = .ok || result.verdict = .regressed || job.windowEnds + s.grace ≤ now

def recorded (now : Nat) (job : Job) (result : Result) : Job :=
  let final := s.isFinal now job result
  { job with
    result := some result
    checkedAt := if final then some now else none
    rowVersion := job.rowVersion + 1
    finals := if final then job.finals + 1 else job.finals }

/-- The stage after the comparison of the windows; a job whose check raised is read again. -/
def judged (job : Job) (jobId rowVersion : Nat) : Comparison → Stage
  | .raised => .recording jobId job.rowVersion ⟨.error, false⟩
  | .insufficientData => .recording jobId rowVersion ⟨.insufficientData, false⟩
  | .ok => .recording jobId rowVersion ⟨.ok, false⟩
  | .regressed elements =>
    let regressed := job.elements.filter (· ∈ elements)
    if regressed = [] then .recording jobId rowVersion ⟨.ok, false⟩
    else if job.kpiGuard.any (·.revert) then .comparing jobId rowVersion regressed
    else .recording jobId rowVersion ⟨.regressed, false⟩

def work (w : Nat) (worker : Worker) : Act → Option State
  | .look _ =>
    match worker.stage, worker.rest with
    | .looking, [] => some (s.withStage w worker (.ended []))
    | .looking, jobId :: rest =>
      match s.jobs[jobId]? with
      | none => none
      | some job =>
        let worker := { worker with rest }
        if worker.now < job.windowEnds then some (s.withStage w worker .looking)
        else some (s.withStage w worker (.loaded jobId job.rowVersion))
    | _, _ => none
  | .judge _ comparison =>
    match worker.stage with
    | .loaded jobId rowVersion =>
      (s.jobs[jobId]?).map fun job => s.withStage w worker (judged job jobId rowVersion comparison)
    | _ => none
  | .compare _ possible =>
    match worker.stage with
    | .comparing jobId _ regressed =>
      (s.jobs[jobId]?).map fun job =>
        s.withStage w worker
          (if possible ∧ s.unchanged job regressed then .reverting jobId regressed
          else .recording jobId job.rowVersion ⟨.regressed, false⟩)
    | _ => none
  | .send _ before undo =>
    match worker.stage with
    | .reverting jobId regressed =>
      (s.jobs[jobId]?).map fun job =>
        { (s.withJob jobId { job with reverts := job.reverts + 1 }).withStage w worker
            (.recording jobId job.rowVersion
              ⟨if undo = .raised then .error else .regressed, undo = .completed⟩) with
          values := fun element name =>
            if (element, name) ∈ job.touched regressed then before element name
            else s.values element name }
    | _ => none
  | .record _ =>
    match worker.stage with
    | .recording jobId rowVersion result =>
      (s.jobs[jobId]?).map fun job =>
        if job.rowVersion = rowVersion then
          (s.withJob jobId (s.recorded worker.now job result)).withStage w worker .looking
        else s.withStage w worker (.ended (jobId :: worker.rest))
    | _ => none
  | _ => none

def act (a : Act) : Option State :=
  match a with
  | .tick minutes => some { s with clock := s.clock + minutes }
  | .ask kpiGuard held =>
    some { s with
      jobs := s.jobs ++ [⟨kpiGuard, s.clock, if held then .pendingApproval else .processing,
        [], 0, none, none, 1, 0, 0⟩] }
  | .start jobId => s.edit jobId [.pendingApproval, .scheduled] fun job =>
      { job with status := .processing, anchor := s.clock }
  | .apply jobId element name value =>
    (s.edit jobId [.processing] fun job =>
      { job with applied := job.applied ++ [⟨element, name, value, s.clock⟩] }).map fun s' =>
        { s' with
          values := fun element' name' =>
            if element' = element ∧ name' = name then value
            else s.values element' name' }
  | .reject jobId => s.edit jobId [.processing] fun job => { job with rejected := job.rejected + 1 }
  | .halt jobId => s.edit jobId [.processing] fun job => { job with status := .halted }
  | .resume jobId => s.edit jobId [.halted] fun job => { job with status := .processing }
  | .finish jobId =>
    s.edit jobId [.processing, .halted] fun job => { job with status := job.aggregate }
  | .overwrite element name value =>
    some { s with
      values := fun element' name' =>
        if element' = element ∧ name' = name then value
        else s.values element' name' }
  | .select =>
    let due := (List.range s.jobs.length).filter fun j => s.jobs[j]?.any (·.guarded)
    some { s with workers := s.workers ++ [⟨s.clock, due, due, .looking⟩] }
  | .look w | .judge w _ | .compare w _ | .send w _ _ | .record w =>
    match s.workers[w]? with
    | some worker => s.work w worker a
    | none => none

def Step (s : State) (a : Act) (s' : State) : Prop := s.act a = some s'

def inHand (jobId : Nat) : Bool := s.workers.any (·.stage.job? = some jobId)

/-- A guarded job writes after the moment its windows are measured from; a worker takes up a job that
has its verdict or that another has in hand; a revert raises once it is sent, or is sent over values
that have changed. -/
def lapses : Act → Bool
  | .apply jobId _ _ _ => s.jobs[jobId]?.any fun job => job.kpiGuard.isSome && s.clock ≠ job.anchor
  | .look w => s.workers[w]?.any fun worker =>
      worker.rest.head?.any fun jobId =>
        (s.jobs[jobId]?.any (·.checkedAt.isSome)) || s.inHand jobId
  | .send w _ undo => undo = .raised ||
      s.workers[w]?.any fun worker =>
        match worker.stage with
        | .reverting jobId regressed => s.jobs[jobId]?.any fun job => !s.unchanged job regressed
        | _ => false
  | _ => false

end State

end Smo.RanNfOam.KpiGuards
