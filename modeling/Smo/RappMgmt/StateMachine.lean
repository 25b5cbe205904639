import Smo.RappMgmt.Models

/-! The lifecycle of one instance row (`rapp-mgmt/app/statemachine.py`). -/
namespace Smo.RappMgmt

section Actions

variable (o : Outside)

def deleteInvoker (client : ClientId) (p : Platform) : Platform :=
  if (o.reply (.deleteInvoker client)).applied then
    { p with invokers := p.invokers.filter (· ≠ client) }
  else p

/-- `_reconsider_rapp_limits`. -/
def reconsiderRappLimits (inst : RAppInstance) (p : Platform) : Platform :=
  match inst.oauthClientId with
  | none => p
  | some client =>
    if inst.rappLimitsSet && (o.reply (.deleteLimits client)).applied then
      { p with limits := Function.update p.limits (some client) none }
    else p

/-- `_reconsider_approval_policy`. -/
def reconsiderApprovalPolicy (inst : RAppInstance) (p : Platform) : Platform :=
  match inst.oauthClientId with
  | none => p
  | some client =>
    if inst.approvalPolicy.isSome && (o.reply (.deleteApprovalPolicy client)).applied then
      { p with approvalPolicies := Function.update p.approvalPolicies (some client) none }
    else p

/-- `_reconsider_registrations`, as far as RAN NF OAM. -/
def reconsiderRegistrations (inst : RAppInstance) (p : Platform) : Platform :=
  reconsiderApprovalPolicy o inst (reconsiderRappLimits o inst p)

/-- `_revoke_credential`, at SME. -/
def revokeCredential (inst : RAppInstance) (p : Platform) : Platform :=
  match inst.oauthClientId with
  | none => p
  | some client => deleteInvoker o client p

def revoked (inst : RAppInstance) : RAppInstance := { inst with oauthClientId := none }

/-- `_terminate_side_effects`. -/
def terminateSideEffects (inst : RAppInstance) (p : Platform) : Platform :=
  revokeCredential o inst (reconsiderRegistrations o inst p)

end Actions

def rappInstanceFsm : StateMachine InstanceState InstanceEvent :=
  (({} : StateMachine InstanceState InstanceEvent)
    |>.add .deploying .bootstrapOk .running
    |>.add .deploying .bootstrapFailed .faulted
    |>.add .running .startUpgrade .upgrading
    |>.add .upgrading .upgradeCommit .undeployed
    |>.add .upgrading .upgradeRollback .running
    |>.add .running .terminate .undeployed
    |>.add .faulted .terminate .undeployed
    |>.add .deploying .terminate .undeployed
    |>.add .running .crash .faulted
    |>.add .faulted .recover .deploying)

def acted (event : InstanceEvent) (inst : RAppInstance) : RAppInstance :=
  match event with
  | .terminate | .upgradeCommit => revoked inst
  | _ => inst

def action (o : Outside) (event : InstanceEvent) (inst : RAppInstance) (p : Platform) : Platform :=
  match event with
  | .terminate | .upgradeCommit => terminateSideEffects o inst p
  | .crash => reconsiderRegistrations o inst p
  | _ => p

def illegal {α : Type} (inst : RAppInstance) (event : InstanceEvent) : Request α :=
  refuse .lifecycleIllegalTransition
    s!"RAppInstance {inst.instanceId}: event {event.value} is not allowed in state {inst.state.value}"

/-- `_fire`: the row in its next state, with the transition's action done. -/
def fire (o : Outside) (inst : RAppInstance) (event : InstanceEvent) : Request RAppInstance :=
  match rappInstanceFsm.fire inst.state event with
  | .error _ => illegal inst event
  | .ok next => do
    call (action o event inst)
    return { acted event inst with state := next }

end Smo.RappMgmt
