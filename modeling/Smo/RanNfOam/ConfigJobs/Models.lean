import Mathlib.Data.PNat.Defs
import Smo.RanNfOam.Models
import Smo.RanNfOam.Msac
import Smo.Shared.Errors

/-! The rows and requests of the configuration jobs (`app/models.py`, `app/main.py`). A
job's sub-changes are kept with it in the order of their positions, and a sub-change's
snapshot with the sub-change. -/
namespace Smo.RanNfOam.ConfigJobs

/-- A JSON value; numbers and nested values by the text `str` makes of them. -/
inductive Value where
  | null
  | bool (value : Bool)
  | number (printed : String)
  | text (value : String)
  | nested (printed : String)
  deriving DecidableEq, Repr

/-- Python's `str`. -/
def Value.str : Value → String
  | null => "None"
  | bool true => "True"
  | bool false => "False"
  | number printed => printed
  | text value => value
  | nested printed => printed

/-- Python's `repr`, of a text without quotes. -/
def Value.repr : Value → String
  | text value => s!"'{value}'"
  | value => value.str

abbrev Attributes := List (String × Value)

/-- `attributes.get(name)`. -/
def valueOf (attributes : Attributes) (name : String) : Value :=
  (attributes.lookup name).getD .null

/-- `{**attributes, **more}`. -/
def merged (attributes more : Attributes) : Attributes :=
  attributes.map (fun (name, value) => (name, (more.lookup name).getD value)) ++
    more.filter fun (name, _) => (attributes.lookup name).isNone

/-- `repr` of an object. -/
def reprOf (attributes : Attributes) : String :=
  let shown := ", ".intercalate (attributes.map fun (name, value) => s!"'{name}': {value.repr}")
  s!"\x7b{shown}\x7d"

structure Change where
  managedElementRef : String
  managedFunctionRef : Option String := none
  attributeChanges : Attributes := []
  operation : String := "merge"
  deriving DecidableEq, Repr

inductive OnGateFailure where
  | halt | revert
  deriving DecidableEq, Repr

structure ChangeWindow where
  start : Option Time := none
  close : Option Time := none
  bounded : start.isSome ∨ close.isSome := by decide
  ordered : ∀ opens ∈ start, ∀ closes ∈ close, opens < closes := by decide
  deriving DecidableEq, Repr

structure WriteConfigRequest where
  requestedBy : String
  accessScope : String
  changes : List Change
  msacRole : Option String := none
  dryRun : Bool := false
  waveSize : Option PNat := none
  wavePauseSeconds : Nat := 0
  gateMaxNewAlarms : Nat := 0
  onGateFailure : OnGateFailure := .halt
  kpiGuard : Option String := none
  changeWindow : Option ChangeWindow := none
  requireApproval : Bool := false
  deriving DecidableEq, Repr

structure CMSnapshot where
  operation : String
  before : Option Attributes
  beforeError : Option String
  after : Option Attributes
  deriving DecidableEq, Repr

structure WriteConfigSubChange where
  managedElementRef : String
  managedFunctionRef : Option String
  attributeChanges : Attributes
  operation : String
  status : SubChangeStatus := .pending
  rejectionReason : Option String := none
  rejectionDetail : Option String := none
  attempts : Nat := 0
  position : Nat
  wave : Nat
  snapshot : Option CMSnapshot := none
  deriving DecidableEq, Repr

namespace WriteConfigSubChange

def change (row : WriteConfigSubChange) : Change :=
  ⟨row.managedElementRef, row.managedFunctionRef, row.attributeChanges, row.operation⟩

/-- `managed_function_ref or managed_element_ref`. -/
def label (row : WriteConfigSubChange) : String :=
  match row.managedFunctionRef with
  | none => row.managedElementRef
  | some function => if function = "" then row.managedElementRef else function

end WriteConfigSubChange

inductive HaltedReason where
  | gateFailed | operatorHalt | wavePause | revertRefused
  deriving DecidableEq, Repr

def HaltedReason.text : HaltedReason → String
  | gateFailed => "GATE_FAILED"
  | operatorHalt => "OPERATOR_HALT"
  | wavePause => "WAVE_PAUSE"
  | revertRefused => "REVERT_REFUSED"

structure WriteConfigJob where
  jobId : Nat
  requestedBy : String
  scope : String
  msacRole : Option String
  schemaValidatedAt : Option Time := none
  status : JobState := .pending
  rollbackOf : Option Nat
  rollbackForced : Bool
  waveSize : Option PNat
  wavePauseSeconds : Nat
  waveCount : Nat
  currentWave : Nat := 0
  gateMaxNewAlarms : Nat
  onGateFailure : OnGateFailure
  nextWaveAt : Option Time := none
  haltedReason : Option HaltedReason := none
  haltedDetail : Option String := none
  invokerId : Option String
  createdAt : Time
  kpiGuard : Option String
  scheduledAt : Option Time
  windowEnd : Option Time
  decidedBy : Option String := none
  decidedAt : Option Time := none
  decisionReason : Option String := none
  deriving DecidableEq, Repr

structure JobRows where
  job : WriteConfigJob
  rows : List WriteConfigSubChange
  deriving DecidableEq, Repr

structure RAppKill where
  invokerId : String
  killedBy : String
  reason : Option String
  killedAt : Time
  deriving DecidableEq, Repr

structure RAppLimit where
  invokerId : String
  maxConfigJobsPerHour : Option Nat
  maxElementsPerJob : Option Nat
  deriving DecidableEq, Repr

inductive OnTimeout where
  | expire | reject
  deriving DecidableEq, Repr

structure RAppApprovalPolicy where
  invokerId : String
  timeoutSeconds : Nat
  onTimeout : OnTimeout
  requiredApprovals : Nat := 1
  deriving DecidableEq, Repr

inductive ApprovalStatus where
  | pending | approved | rejected | expired | refused
  deriving DecidableEq, Repr

structure Vote where
  decidedBy : String
  moment : Time
  reason : Option String
  deriving DecidableEq, Repr

/-- An action of an rApp that waits for a human, with the request the job will be made
from; whoever sent that request asked for the action. -/
structure RAppActionApproval where
  approvalId : Nat
  invokerId : String
  requestedBy : String
  status : ApprovalStatus := .pending
  request : WriteConfigRequest
  expiresAt : Time
  onTimeout : OnTimeout
  decidedBy : Option String := none
  decidedAt : Option Time := none
  decisionReason : Option String := none
  jobId : Option Nat := none
  refusalCode : Option String := none
  requesterScope : Option Scope
  requiredApprovals : Nat
  approvals : List Vote := []
  asked : requestedBy = request.requestedBy := by rfl
  deriving DecidableEq, Repr

structure SafeguardRefusal where
  occurredAt : Time
  invokerId : String
  requestedBy : Option String
  code : String
  detail : String
  deriving DecidableEq, Repr

structure Store where
  jobs : List JobRows := []
  approvals : List RAppActionApproval := []
  kills : List RAppKill := []
  refusals : List SafeguardRefusal := []
  alarms : List Alarm := []
  deriving DecidableEq, Repr

def replaceJob (jobs : List JobRows) (jr : JobRows) : List JobRows :=
  jobs.map fun old => if old.job.jobId = jr.job.jobId then jr else old

namespace Store

def job? (store : Store) (jobId : Nat) : Option JobRows :=
  store.jobs.find? (·.job.jobId = jobId)

def put (store : Store) (jr : JobRows) : Store :=
  { store with jobs := replaceJob store.jobs jr }

def add (store : Store) (jr : JobRows) : Store := { store with jobs := store.jobs ++ [jr] }

def killOf (store : Store) (invokerId : String) : Option RAppKill :=
  store.kills.find? (·.invokerId = invokerId)

def approval? (store : Store) (approvalId : Nat) : Option RAppActionApproval :=
  store.approvals.find? (·.approvalId = approvalId)

def putApproval (store : Store) (row : RAppActionApproval) : Store :=
  { store with
    approvals := store.approvals.map fun old => if old.approvalId = row.approvalId then row else old }

end Store

theorem delays_ne_nil : [0, 5, 10, 20] ≠ ([] : List Nat) := by decide

/-- The settings, and the tables that the job routes only read. `str.casefold`, the schema
check, the magnitude limit and the comparison of a KPI are taken as they answer. -/
structure Site where
  registry : Registry := {}
  msac : Msac.Db := {}
  limits : List RAppLimit := []
  policies : List RAppApprovalPolicy := []
  kpis : List String := []
  managedObjects : List Str := []
  enforceMoTree : Bool := false
  cmSnapshots : Bool := true
  retryDelays : List Nat := [0, 5, 10, 20]
  tried : retryDelays ≠ [] := by first | exact delays_ne_nil | decide
  retryBudget : Nat := 35
  casefold : Str → Str := List.map Char.toLower
  schemaProblems : Change → List String := fun _ => []
  magnitudeExceeded : RAppLimit → List Change → Option String := fun _ _ => none
  regressed : WriteConfigJob → List String → List String := fun _ _ => []

/-- A sub-change sent to its network element: the job as it was then, the place of the
sub-change in it, and when. -/
structure Dispatch where
  job : WriteConfigJob
  position : Nat
  wave : Nat
  moment : Time
  deriving DecidableEq, Repr

end Smo.RanNfOam.ConfigJobs
