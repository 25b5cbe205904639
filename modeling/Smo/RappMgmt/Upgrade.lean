import Smo.RappMgmt.Provisioning

/-! Upgrades and rollbacks of an instance, a choreography of two rows (`rapp-mgmt/app/upgrade.py`). -/
namespace Smo.RappMgmt

section Upgrade

variable (manifest : PackageId → RappLimits) (o : Outside)

def RAppInstance.settings (inst : RAppInstance) : Settings where
  configuration := inst.configuration
  autonomyMode := inst.autonomyMode
  regionScope := inst.regionScope
  approvalPolicy := inst.approvalPolicy
  authzScope := inst.authzScope

def RAppInstanceVersion.settings (version : RAppInstanceVersion) : Settings where
  configuration := version.previousConfiguration
  autonomyMode := version.previousAutonomyMode
  regionScope := version.previousRegionScope
  approvalPolicy := version.previousApprovalPolicy
  authzScope := version.previousAuthzScope

/-- `start_upgrade`: the rows of the session, and the replacement. -/
def startUpgrade (db : Db) (old : RAppInstance) (newPackageId : PackageId)
    (restore : Option RAppInstanceVersion) : Request (Db × RAppInstance) := do
  match rappInstanceFsm.fire old.state .startUpgrade with
  | .error _ => illegal old .startUpgrade
  | .ok _ =>
    let made ← provisionInstance o newPackageId (restore.elim old.settings (·.settings))
    let new := { made with
      upgradeTimeoutSeconds := old.upgradeTimeoutSeconds
      rollbackOfVersionId := restore.map (·.versionId) }
    let fired ← fire o old .startUpgrade
    let old := { fired with pendingUpgradeInstanceId := some new.instanceId }
    return ((db.put old).add new, new)

def upgradeDeadline (old new : RAppInstance) : Nat :=
  new.createdAt + old.upgradeTimeoutSeconds * 1000000

/-- `_roll_back`: the rows of the session. -/
def rollBack (db : Db) (old : RAppInstance) (new : Option RAppInstance) (reason : Reason) :
    Request Db := do
  let back ← fire o old .upgradeRollback
  match new with
  | none => return db.put { back with pendingUpgradeInstanceId := none }
  | some new =>
    call (terminateSideEffects o new)
    call (releaseInstanceResources o new)
    return (db.put { back with
      lastTeardown := some (released o new reason)
      pendingUpgradeInstanceId := none }).remove new.instanceId

def versionOf (versionId : VersionId) (old new : RAppInstance) : RAppInstanceVersion where
  versionId
  instanceId := new.instanceId
  previousInstanceId := old.instanceId
  packageId := new.packageId
  previousPackageId := old.packageId
  previousConfiguration := old.configuration
  previousAutonomyMode := old.autonomyMode
  previousRegionScope := old.regionScope
  previousApprovalPolicy := old.approvalPolicy
  previousAuthzScope := old.authzScope
  kind := if new.rollbackOfVersionId.isSome then .rollback else .upgrade

/-- `_record_version`. -/
def recordVersion (db : Db) (version : RAppInstanceVersion) (undone : Option VersionId) : Db :=
  let versions := db.versions ++ [version]
  match undone with
  | none => { db with versions }
  | some id => { db with versions := Table.modify (·.versionId) versions id fun undone =>
      { undone with rolledBackByVersionId := some version.versionId } }

def confirmed (new : RAppInstance) : Request RAppInstance :=
  if new.state = .deploying then do
    let new ← fire o new .bootstrapOk
    onBootstrap manifest o new
  else return new

/-- `resolve_upgrade`: the rows of the session. -/
def resolveUpgrade (db : Db) (old new : RAppInstance) (newBootstrapSucceeded : Bool) : Request Db :=
  if newBootstrapSucceeded then
    if new.state ≠ .deploying ∧ new.state ≠ .running then illegal new .bootstrapOk
    else if old.state ≠ .upgrading then illegal old .upgradeCommit
    else do
      let new ← confirmed manifest o new
      let _ ← fire o old .upgradeCommit
      let versionId ← draw
      call (releaseInstanceResources o old)
      let new := { new with lastTeardown := some (released o old .upgradeCommit) }
      let version := versionOf versionId old new
      return (recordVersion (db.put new) version new.rollbackOfVersionId).remove old.instanceId
  else rollBack o db old (some new) .upgradeRollback

def overdue (db : Db) (old : RAppInstance) (id : InstanceId) (now : Nat) : Bool :=
  (db.row id).all fun new => upgradeDeadline old new ≤ now

/-- `expire_overdue_upgrade`: the rows of the session, of an upgrade that was rolled back. -/
def expireOverdueUpgrade (db : Db) (old : RAppInstance) : Request (Option Db) := do
  match old.pendingUpgradeInstanceId with
  | none => return none
  | some id =>
    if old.state = .upgrading ∧ overdue db old id (← get).now then
      return some (← rollBack o db old (db.row id) .upgradeTimeout)
    else return none

end Upgrade

section History

/-- `_version_that_made`. -/
def versionThatMade (db : Db) (id : InstanceId) : Option RAppInstanceVersion :=
  Table.get (·.instanceId) db.versions id

def successor (db : Db) (id : InstanceId) : Option InstanceId :=
  (Table.get (·.previousInstanceId) db.versions id).map (·.instanceId)

/-- The loop of `current_instance_id`; each turn adds an instance that a version retired to the
instances seen. -/
def followed (db : Db) : Nat → List InstanceId → InstanceId → Option InstanceId
  | 0, _, _ => none
  | turns + 1, seen, id =>
    if (db.row id).isSome then some id
    else
      match successor db id with
      | none => none
      | some next => if next ∈ seen then none else followed db turns (id :: seen) next

def currentInstanceId (db : Db) (id : InstanceId) : Option InstanceId :=
  followed db (db.versions.length + 1) [] id

/-- The loop of `version_history`; each turn adds a version to the versions seen. -/
def walked (db : Db) : Nat → List VersionId → Option RAppInstanceVersion → List RAppInstanceVersion
  | 0, _, _ => []
  | _, _, none => []
  | turns + 1, seen, some version =>
    if version.versionId ∈ seen then []
    else version :: walked db turns (version.versionId :: seen)
      (versionThatMade db version.previousInstanceId)

def versionHistory (db : Db) (id : InstanceId) : List RAppInstanceVersion :=
  walked db (db.versions.length + 1) [] (versionThatMade db id)

def RAppInstanceVersion.open_ (version : RAppInstanceVersion) : Bool :=
  version.kind = .upgrade && version.rolledBackByVersionId.isNone

def rollbackTarget (db : Db) (id : InstanceId) : Option RAppInstanceVersion :=
  (versionHistory db id).find? (·.open_)

/-- `start_rollback`. -/
def startRollback (o : Outside) (db : Db) (current : RAppInstance) :
    Request (Option (Db × RAppInstance × RAppInstanceVersion)) := do
  match rollbackTarget db current.instanceId with
  | none => return none
  | some target =>
    let (db, new) ← startUpgrade o db current target.previousPackageId (some target)
    return some (db, new, target)

end History

end Smo.RappMgmt
