import Smo.Lib.Transaction
import Smo.Shared.StateMachine
import Smo.Sme.Invokers
import Mathlib.Logic.Function.Basic

/-! rApp Management: the instances and their version history (`rapp-mgmt/app/models.py`), the state
that the other modules hold for them, and how these answer the calls of one request. -/
namespace Smo.RappMgmt

open Json (Value)

abbrev InstanceId := Nat
abbrev VersionId := Nat
abbrev PackageId := Nat
/-- An invoker id at SME, which is an instance's `oauth_client_id`. -/
abbrev ClientId := Nat

inductive InstanceState
  | deploying
  | running
  | upgrading
  | undeployed
  | faulted
  deriving DecidableEq, Repr

def InstanceState.value : InstanceState → String
  | deploying => "DEPLOYING"
  | running => "RUNNING"
  | upgrading => "UPGRADING"
  | undeployed => "UNDEPLOYED"
  | faulted => "FAULTED"

inductive InstanceEvent
  | bootstrapOk
  | bootstrapFailed
  | startUpgrade
  | upgradeCommit
  | upgradeRollback
  | terminate
  | crash
  | recover
  deriving DecidableEq, Repr

def InstanceEvent.value : InstanceEvent → String
  | bootstrapOk => "BOOTSTRAP_OK"
  | bootstrapFailed => "BOOTSTRAP_FAILED"
  | startUpgrade => "START_UPGRADE"
  | upgradeCommit => "UPGRADE_COMMIT"
  | upgradeRollback => "UPGRADE_ROLLBACK"
  | terminate => "TERMINATE"
  | crash => "CRASH"
  | recover => "RECOVER"

inductive AutonomyMode
  | autonomous
  | assist
  | shadow
  deriving DecidableEq, Repr

inductive OnTimeout
  | expire
  | reject
  deriving DecidableEq, Repr

/-- A policy as it is stored: `requiredApprovals` is left out while it is 1. -/
structure ApprovalPolicy where
  timeoutSeconds : Nat := 3600
  onTimeout : OnTimeout := .expire
  requiredApprovals : Nat := 1
  deriving DecidableEq, Repr

structure RappLimits where
  maxConfigJobsPerHour : Option Nat := none
  maxElementsPerJob : Option Nat := none
  maxChangePercent : Option Nat := none
  deriving DecidableEq, Repr

def RappLimits.declared (limits : RappLimits) : Bool :=
  limits.maxConfigJobsPerHour.isSome || limits.maxElementsPerJob.isSome || limits.maxChangePercent.isSome

inductive StepOutcome
  | done
  | skipped
  | failed
  deriving DecidableEq, Repr

inductive Reason
  | terminate
  | upgradeCommit
  | upgradeRollback
  | upgradeTimeout
  deriving DecidableEq, Repr

structure Teardown where
  instanceId : InstanceId
  reason : Reason
  nfoTerminate : StepOutcome
  usageStop : StepOutcome
  deriving DecidableEq, Repr

structure RAppInstance where
  instanceId : InstanceId
  packageId : PackageId
  state : InstanceState := .deploying
  configuration : Option Value := none
  workloadRef : Option Nat := none
  oauthClientId : Option ClientId
  createdAt : Nat
  upgradeTimeoutSeconds : Nat := 300
  pendingUpgradeInstanceId : Option InstanceId := none
  packageUsageRegistrationId : Option Nat := none
  rappLimitsSet : Bool := false
  autonomyMode : AutonomyMode := .shadow
  regionScope : Option Value := none
  approvalPolicy : Option ApprovalPolicy := none
  authzScope : Option Sme.Claim := none
  lastTeardown : Option Teardown := none
  rollbackOfVersionId : Option VersionId := none

inductive Kind
  | upgrade
  | rollback
  deriving DecidableEq, Repr

structure RAppInstanceVersion where
  versionId : VersionId
  instanceId : InstanceId
  previousInstanceId : InstanceId
  packageId : PackageId
  previousPackageId : PackageId
  previousConfiguration : Option Value
  previousAutonomyMode : AutonomyMode
  previousRegionScope : Option Value
  previousApprovalPolicy : Option ApprovalPolicy
  previousAuthzScope : Option Sme.Claim
  kind : Kind
  rolledBackByVersionId : Option VersionId := none

structure Db where
  instances : List RAppInstance := []
  versions : List RAppInstanceVersion := []

namespace Db

/-- `db.get(RAppInstance, id)`. -/
def row (db : Db) (id : InstanceId) : Option RAppInstance :=
  Table.get (·.instanceId) db.instances id

def version (db : Db) (id : VersionId) : Option RAppInstanceVersion :=
  Table.get (·.versionId) db.versions id

def add (db : Db) (inst : RAppInstance) : Db := { db with instances := db.instances ++ [inst] }

def put (db : Db) (inst : RAppInstance) : Db :=
  { db with instances := Table.modify (·.instanceId) db.instances inst.instanceId fun _ => inst }

def remove (db : Db) (id : InstanceId) : Db :=
  { db with instances := db.instances.filter (·.instanceId ≠ id) }

/-- The foreign key on `pending_upgrade_instance_id`. -/
def references (db : Db) : Bool :=
  db.instances.all fun inst => inst.pendingUpgradeInstanceId.all fun id => (db.row id).isSome

end Db

/-- What the other modules hold: the invokers at SME, the limits, approval policies and stopped
invokers at RAN NF OAM, the deployments at NFO and the usage registrations at Onboarding. Limits and
policies are kept under the text of a client id, which may be that of no id. -/
structure Platform where
  invokers : List ClientId := []
  limits : Option ClientId → Option RappLimits := fun _ => none
  approvalPolicies : Option ClientId → Option ApprovalPolicy := fun _ => none
  killed : ClientId → Bool := fun _ => false
  deployments : List Nat := []
  usages : List Nat := []

inductive Call
  | registerInvoker (id : InstanceId)
  | deleteInvoker (client : ClientId)
  | putLimits (client : Option ClientId)
  | deleteLimits (client : ClientId)
  | putApprovalPolicy (client : Option ClientId)
  | deleteApprovalPolicy (client : ClientId)
  | putKill (client : ClientId)
  | deleteKill (client : ClientId)
  | listKills
  | instantiate (id : InstanceId)
  | terminateDeployment (ref : Nat)
  | startUsage (id : InstanceId)
  | stopUsage (ref : Nat)
  | deliver (id : InstanceId)
  deriving DecidableEq

/-- A call is answered, or takes effect with its answer lost, or is refused, or never arrives. -/
inductive Reply
  | done
  | lost
  | refused
  | unreachable
  deriving DecidableEq

def Reply.applied : Reply → Bool
  | .done | .lost => true
  | .refused | .unreachable => false

/-- What Onboarding answers about a package: a state from which an instance may be created, and
whether it names an NF deployment descriptor. -/
inductive PackageStatus
  | answered (deployable descriptor : Bool)
  | notFound
  | failed
  | unreachable
  deriving DecidableEq

structure Outside where
  status : PackageId → PackageStatus := fun _ => .answered true true
  reply : Call → Reply := fun _ => .done
  /-- SME records the scope claim of an invoker. -/
  recordsClaim : Bool := true
  /-- RAN NF OAM knows `requiredApprovals`. -/
  countsApprovals : Bool := true

inductive Failure
  | problem (problem : Problem)
  /-- A call that no handler covers did not arrive. -/
  | unreachable
  /-- The database refused a write. -/
  | integrity
  deriving DecidableEq

/-- The committed rows, the other modules, the clock in microseconds and the next id drawn. -/
structure World where
  db : Db := {}
  platform : Platform := {}
  now : Nat := 0
  drawn : Nat := 0

abbrev Request (α : Type) := EStateM Failure World α

def refuse {α : Type} (error : FrameworkError) (detail : String) : Request α :=
  throw (.problem ⟨error, detail⟩)

def draw : Request Nat := do
  let w ← get
  set { w with drawn := w.drawn + 1 }
  return w.drawn

def call (change : Platform → Platform) : Request Unit :=
  modify fun w => { w with platform := change w.platform }

def commit (db : Db) : Request Unit := do
  if db.references then modify fun w => { w with db } else throw .integrity

end Smo.RappMgmt
