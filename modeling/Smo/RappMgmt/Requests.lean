import Smo.RappMgmt.Upgrade

/-! The routes of rApp Management (`rapp-mgmt/app/main.py`), one request at a time. -/
namespace Smo.RappMgmt

section Rows

variable (o : Outside)

def getOr404 (id : InstanceId) : Request RAppInstance := do
  match (← get).db.row id with
  | some inst => return inst
  | none => refuse .rappInstanceNotFound s!"no such RAppInstance {id}"

/-- `_upgrade_owner`. -/
def upgradeOwner (db : Db) (inst : RAppInstance) : Option RAppInstance :=
  if inst.pendingUpgradeInstanceId.isSome then some inst
  else db.instances.find? (·.pendingUpgradeInstanceId = some inst.instanceId)

/-- `_sweep_overdue_upgrade`: whether this request rolled the upgrade back. -/
def sweepOverdueUpgrade (old : RAppInstance) : Request Bool := do
  match ← expireOverdueUpgrade o (← get).db old with
  | none => return false
  | some db =>
    commit db
    return true

/-- `_load_instance`. -/
def loadInstance (id : InstanceId) : Request RAppInstance := do
  let inst ← getOr404 id
  match upgradeOwner (← get).db inst with
  | none => return inst
  | some owner =>
    let swept ← sweepOverdueUpgrade o owner
    if swept ∧ owner.instanceId ≠ id then
      refuse .rappInstanceNotFound s!"RAppInstance {id} was an upgrade replacement, rolled back"
    else getOr404 id

end Rows

abbrev Caller := Option ClientId

/-- `_own_instance_or_operator`. -/
def ownInstanceOrOperator (caller : Caller) (inst : RAppInstance) : Request Unit :=
  match caller with
  | none => return
  | some client =>
    if inst.oauthClientId = some client then return
    else refuse .notThisInstance "a rApp may register the operator API of its own instance only"

structure CreateInstanceRequest where
  packageId : PackageId
  config : Json.Value := .obj []
  autonomyMode : AutonomyMode := .shadow
  regionScope : Option Json.Value := none
  approvalPolicy : Option ApprovalPolicy := none
  authzScope : Json.Value := .null

section Routes

variable (manifest : PackageId → RappLimits) (o : Outside)

/-- `create_instance`. -/
def createInstance (body : CreateInstanceRequest) : Request Unit :=
  if body.approvalPolicy.isSome ∧ body.autonomyMode ≠ .assist then
    refuse .approvalPolicyNeedsAssist
      "approvalPolicy applies to an ASSIST instance: AUTONOMOUS asks no one and SHADOW writes nothing"
  else
    match Sme.checkedScope body.authzScope with
    | .error problem => throw (.problem problem)
    | .ok claim => do
      let inst ← provisionInstance o body.packageId
        { configuration := some body.config, autonomyMode := body.autonomyMode
          regionScope := body.regionScope, approvalPolicy := body.approvalPolicy, authzScope := claim }
      commit ((← get).db.add inst)

/-- `issue_instance_credentials`. -/
def issueInstanceCredentials (id : InstanceId) : Request Unit := do
  let inst ← loadInstance o id
  if inst.state ≠ .deploying then illegal inst .bootstrapOk
  else do
    let rotated ← registerInstanceInvoker o inst
    deliverCredentials o rotated
    commit ((← get).db.put rotated)
    call (revokeCredential o inst)

def setKilled (client : ClientId) (killed : Bool) (reply : Reply) (p : Platform) : Platform :=
  if reply.applied then { p with killed := Function.update p.killed client killed } else p

/-- `_kill_call`. -/
def killCall (inst : RAppInstance) : Request Unit :=
  match inst.oauthClientId with
  | none => refuse .rappInstanceNotFound s!"RAppInstance {inst.instanceId} has no credential (terminated)"
  | some client => do
    call (setKilled client true (o.reply (.putKill client)))
    if o.reply (.putKill client) = .done then return
    else
      refuse .endpointUnreachable
        "RAN NF OAM did not accept the kill switch change; nothing was changed"

/-- `_lift_kill_call`. -/
def liftKillCall (inst : RAppInstance) : Request Unit :=
  match inst.oauthClientId with
  | none => return
  | some client => do
    call (setKilled client false (o.reply (.deleteKill client)))
    if o.reply (.deleteKill client) = .done then return
    else refuse .endpointUnreachable "RAN NF OAM did not accept the change; nothing was changed"

/-- `kill_instance`. -/
def killInstance (id : InstanceId) : Request Unit := do
  let inst ← loadInstance o id
  killCall o inst

/-- `lift_instance_kill`. -/
def liftInstanceKill (id : InstanceId) : Request Unit := do
  let inst ← loadInstance o id
  liftKillCall o inst

/-- `_stopped_invoker_ids`, as the predicate of the ids read. -/
def stoppedInvokerIds : Request (ClientId → Bool) :=
  if o.reply .listKills = .done then do return (← get).platform.killed
  else refuse .endpointUnreachable "RAN NF OAM did not answer; the stopped rApps could not be read"

/-- `_live_instances`. -/
def liveInstances (db : Db) : List RAppInstance :=
  db.instances.filter fun inst => inst.state ≠ .undeployed && inst.oauthClientId.isSome

def forEach (calls : RAppInstance → Request Unit) : List RAppInstance → Request Unit
  | [] => return
  | inst :: rest => do
    tryCatch (calls inst) fun _ => return
    forEach calls rest

/-- `kill_all_instances`. -/
def killAllInstances : Request Unit := do
  let already ← stoppedInvokerIds o
  forEach (killCall o) ((liveInstances (← get).db).filter fun inst => !inst.oauthClientId.any already)

/-- `resume_all_instances`. -/
def resumeAllInstances : Request Unit := do
  let stopped ← stoppedInvokerIds o
  forEach (liftKillCall o) ((liveInstances (← get).db).filter fun inst => inst.oauthClientId.any stopped)

/-- `bootstrap_complete`. -/
def bootstrapComplete (caller : Caller) (id : InstanceId) : Request Unit := do
  let inst ← loadInstance o id
  ownInstanceOrOperator caller inst
  if inst.state ≠ .deploying then illegal inst .bootstrapOk
  else do
    let inst ← onBootstrap manifest o inst
    let inst ← fire o inst .bootstrapOk
    commit ((← get).db.put inst)

/-- `recover_instance`. -/
def recoverInstance (id : InstanceId) : Request Unit := do
  let inst ← loadInstance o id
  let inst ← fire o inst .recover
  commit ((← get).db.put inst)

/-- `upgrade_instance`. -/
def upgradeInstance (id : InstanceId) (newPackageId : PackageId) : Request Unit := do
  let old ← loadInstance o id
  let (db, _) ← startUpgrade o (← get).db old newPackageId none
  commit db

/-- `resolve_upgrade_outcome`. -/
def resolveUpgradeOutcome (id : InstanceId) (succeeded : Bool) : Request Unit := do
  let old ← getOr404 id
  match old.pendingUpgradeInstanceId with
  | none => refuse .rappInstanceNotFound s!"RAppInstance {id} has no pending upgrade"
  | some newId =>
    let swept ← sweepOverdueUpgrade o old
    if swept then
      if succeeded then refuse .rappUpgradeTimedOut s!"upgrade of RAppInstance {id} was rolled back"
      else return
    else do
      let new ← getOr404 newId
      let db ← resolveUpgrade manifest o (← get).db old new succeeded
      commit db

/-- `_resolve_current`. -/
def resolveCurrent (id : InstanceId) : Request RAppInstance := do
  match currentInstanceId (← get).db id with
  | none => refuse .rappInstanceNotFound s!"no such RAppInstance {id}"
  | some current => loadInstance o current

/-- `rollback_instance`. -/
def rollbackInstance (id : InstanceId) : Request Unit := do
  let current ← resolveCurrent o id
  match ← startRollback o (← get).db current with
  | none =>
    refuse .rollbackHistoryUnavailable s!"RAppInstance {current.instanceId} has no upgrade left to roll back"
  | some (db, _, _) => commit db

/-- `terminate_instance`. -/
def terminateInstance (id : InstanceId) : Request Unit := do
  let inst ← loadInstance o id
  match (upgradeOwner (← get).db inst).filter (·.instanceId ≠ inst.instanceId) with
  | some owner =>
    refuse .lifecycleIllegalTransition
      s!"RAppInstance {id} is the pending replacement of an upgrade of {owner.instanceId}; resolve that upgrade instead"
  | none =>
    let fired ← fire o inst .terminate
    call (releaseInstanceResources o fired)
    commit ((← get).db.put { fired with
      lastTeardown := some (released o fired .terminate)
      packageUsageRegistrationId := usageLeft o fired })

/-- `delete_instance`. -/
def deleteInstance (id : InstanceId) : Request Unit := do
  let inst ← loadInstance o id
  if inst.state ≠ .undeployed then
    refuse .rappInstanceNotUndeployed s!"instance {id} is not UNDEPLOYED (state={inst.state.value})"
  else commit ((← get).db.remove id)

/-- `set_config`. -/
def setConfig (caller : Caller) (id : InstanceId) (config : Json.Value) : Request Unit := do
  let inst ← getOr404 id
  ownInstanceOrOperator caller inst
  commit ((← get).db.put { inst with configuration := some config })

/-- `report_fault`. -/
def reportFault (caller : Caller) (id : InstanceId) (critical : Bool) : Request Unit := do
  let inst ← loadInstance o id
  ownInstanceOrOperator caller inst
  if critical then do
    let inst ← fire o inst .crash
    commit ((← get).db.put inst)
  else return

/-- `get_instance`, and the other reads of one instance. -/
def getInstance (id : InstanceId) : Request Unit := do
  let _ ← loadInstance o id

/-- The sweeps of `list_instances`, of the rows that it read. -/
def sweepEach : List RAppInstance → Request Unit
  | [] => return
  | old :: rest => do
    let _ ← sweepOverdueUpgrade o old
    sweepEach rest

/-- `list_instances`. -/
def listInstances : Request Unit := do
  sweepEach o ((← get).db.instances.filter (·.state = .upgrading))

end Routes

inductive Act
  | create (o : Outside) (body : CreateInstanceRequest)
  | credentials (o : Outside) (id : InstanceId)
  | kill (o : Outside) (id : InstanceId)
  | liftKill (o : Outside) (id : InstanceId)
  | killAll (o : Outside)
  | resumeAll (o : Outside)
  | bootstrapComplete (o : Outside) (caller : Caller) (id : InstanceId)
  | recover (o : Outside) (id : InstanceId)
  | upgrade (o : Outside) (id : InstanceId) (newPackageId : PackageId)
  | resolve (o : Outside) (id : InstanceId) (succeeded : Bool)
  | rollback (o : Outside) (id : InstanceId)
  | terminate (o : Outside) (id : InstanceId)
  | delete (o : Outside) (id : InstanceId)
  | setConfig (caller : Caller) (id : InstanceId) (config : Json.Value)
  | reportFault (o : Outside) (caller : Caller) (id : InstanceId) (critical : Bool)
  | read (o : Outside) (id : InstanceId)
  | list (o : Outside)
  | pass (time : Nat)

def request (manifest : PackageId → RappLimits) : Act → Request Unit
  | .create o body => createInstance o body
  | .credentials o id => issueInstanceCredentials o id
  | .kill o id => killInstance o id
  | .liftKill o id => liftInstanceKill o id
  | .killAll o => killAllInstances o
  | .resumeAll o => resumeAllInstances o
  | .bootstrapComplete o caller id => bootstrapComplete manifest o caller id
  | .recover o id => recoverInstance o id
  | .upgrade o id newPackageId => upgradeInstance o id newPackageId
  | .resolve o id succeeded => resolveUpgradeOutcome manifest o id succeeded
  | .rollback o id => rollbackInstance o id
  | .terminate o id => terminateInstance o id
  | .delete o id => deleteInstance o id
  | .setConfig caller id config => setConfig caller id config
  | .reportFault o caller id critical => reportFault o caller id critical
  | .read o id => getInstance o id
  | .list o => listInstances o
  | .pass time => modify fun w => { w with now := w.now + time }

def after (manifest : PackageId → RappLimits) (w : World) (act : Act) : World :=
  match request manifest act w with
  | .ok _ w' => w'
  | .error _ w' => w'

def Step (manifest : PackageId → RappLimits) (w : World) (act : Act) (w' : World) : Prop :=
  w' = after manifest w act

end Smo.RappMgmt
