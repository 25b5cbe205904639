import Smo.RappMgmt.StateMachine

/-! What brings an instance's resources up and releases them (`rapp-mgmt/app/provisioning.py`). -/
namespace Smo.RappMgmt

section Provisioning

variable (manifest : PackageId → RappLimits) (o : Outside)

def addInvoker (inst : RAppInstance) (client : ClientId) (p : Platform) : Platform :=
  if (o.reply (.registerInvoker inst.instanceId)).applied then
    { p with invokers := p.invokers ++ [client] }
  else p

/-- `register_instance_invoker`: the row under its new invoker id. -/
def registerInstanceInvoker (inst : RAppInstance) : Request RAppInstance := do
  let client ← draw
  call (addInvoker o inst client)
  if o.reply (.registerInvoker inst.instanceId) ≠ .done then
    refuse .endpointUnreachable "SME did not register an invoker identity for the rApp instance"
  else if inst.authzScope.isSome ∧ o.recordsClaim = false then do
    call (deleteInvoker o client)
    refuse .endpointUnreachable
      "SME did not record the scope claim of the rApp instance; no identity was kept"
  else return { inst with oauthClientId := some client }

/-- `deliver_credentials`. -/
def deliverCredentials (inst : RAppInstance) : Request Unit :=
  if o.reply (.deliver inst.instanceId) = .done then return
  else do
    call (revokeCredential o inst)
    refuse .endpointUnreachable "the instance's credentials could not be delivered to its workload"

def checkPackage (packageId : PackageId) : Request Unit :=
  match o.status packageId with
  | .unreachable => throw .unreachable
  | .notFound => refuse .packageNotFound s!"no such package {packageId}"
  | .failed | .answered false _ => refuse .modelNotCertified "package is not AVAILABLE or PRIMED"
  | .answered true false => refuse .modelNotCertified "package has no nfDeploymentDescriptorId"
  | .answered true true => return

/-- What a post makes at another module: the reference of what was made, none when it is refused. -/
def made (reply : Reply) (make : Nat → Platform → Platform) : Request (Option Nat) :=
  match reply with
  | .refused => return none
  | .unreachable => throw .unreachable
  | .lost => do
    let ref ← draw
    call (make ref)
    throw .unreachable
  | .done => do
    let ref ← draw
    call (make ref)
    return some ref

def instantiate (inst : RAppInstance) : Request (Option Nat) :=
  made (o.reply (.instantiate inst.instanceId)) fun ref p =>
    { p with deployments := p.deployments ++ [ref] }

def startUsage (inst : RAppInstance) : Request (Option Nat) :=
  made (o.reply (.startUsage inst.instanceId)) fun ref p => { p with usages := p.usages ++ [ref] }

structure Settings where
  configuration : Option Json.Value
  autonomyMode : AutonomyMode
  regionScope : Option Json.Value
  approvalPolicy : Option ApprovalPolicy
  authzScope : Option Sme.Claim

/-- `provision_instance`. The row is not committed. -/
def provisionInstance (packageId : PackageId) (settings : Settings) : Request RAppInstance := do
  checkPackage o packageId
  let instanceId ← draw
  let inst ← registerInstanceInvoker o
    { instanceId, packageId, oauthClientId := none, createdAt := (← get).now
      configuration := settings.configuration, autonomyMode := settings.autonomyMode
      regionScope := settings.regionScope, approvalPolicy := settings.approvalPolicy
      authzScope := settings.authzScope }
  deliverCredentials o inst
  let workloadRef ← instantiate o inst
  let packageUsageRegistrationId ← startUsage o inst
  return { inst with workloadRef, packageUsageRegistrationId }

/-- `_step`. -/
def stepOutcome : Reply → StepOutcome
  | .done => .done
  | _ => .failed

/-- `release_instance_resources`, at NFO and Onboarding. -/
def releaseInstanceResources (inst : RAppInstance) (p : Platform) : Platform :=
  let p := match inst.workloadRef with
    | some ref =>
      if (o.reply (.terminateDeployment ref)).applied then
        { p with deployments := p.deployments.filter (· ≠ ref) }
      else p
    | none => p
  match inst.packageUsageRegistrationId with
  | some ref =>
    if (o.reply (.stopUsage ref)).applied then { p with usages := p.usages.filter (· ≠ ref) } else p
  | none => p

/-- What `release_instance_resources` answers. -/
def released (inst : RAppInstance) (reason : Reason) : Teardown where
  instanceId := inst.instanceId
  reason
  nfoTerminate := inst.workloadRef.elim .skipped fun ref => stepOutcome (o.reply (.terminateDeployment ref))
  usageStop := inst.packageUsageRegistrationId.elim .skipped fun ref => stepOutcome (o.reply (.stopUsage ref))

def usageLeft (inst : RAppInstance) : Option Nat :=
  inst.packageUsageRegistrationId.filter fun ref => o.reply (.stopUsage ref) ≠ .done

/-- `onboarding_status`, as far as the limits that the manifest declares. -/
def onboardingStatus (inst : RAppInstance) : Request RappLimits :=
  match o.status inst.packageId with
  | .unreachable => throw .unreachable
  | .notFound | .failed => return {}
  | .answered _ _ => return manifest inst.packageId

def setLimits (inst : RAppInstance) (limits : RappLimits) (p : Platform) : Platform :=
  if (o.reply (.putLimits inst.oauthClientId)).applied then
    { p with limits := Function.update p.limits inst.oauthClientId (some limits) }
  else p

/-- `apply_rapp_limits`. -/
def applyRappLimits (inst : RAppInstance) (limits : RappLimits) : Request RAppInstance :=
  if limits.declared = false then return inst
  else do
    call (setLimits o inst limits)
    if o.reply (.putLimits inst.oauthClientId) = .done then return { inst with rappLimitsSet := true }
    else
      refuse .endpointUnreachable
        "the package declares limits but RAN NF OAM did not accept them; the instance stays DEPLOYING"

def kept (policy : ApprovalPolicy) : ApprovalPolicy :=
  if o.countsApprovals then policy else { policy with requiredApprovals := 1 }

def setPolicy (inst : RAppInstance) (policy : ApprovalPolicy) (p : Platform) : Platform :=
  if (o.reply (.putApprovalPolicy inst.oauthClientId)).applied then
    { p with
      approvalPolicies := Function.update p.approvalPolicies inst.oauthClientId (some (kept o policy)) }
  else p

/-- `apply_approval_policy`. -/
def applyApprovalPolicy (inst : RAppInstance) : Request Unit :=
  match inst.approvalPolicy with
  | none => return
  | some policy => do
    call (setPolicy o inst policy)
    if o.reply (.putApprovalPolicy inst.oauthClientId) = .done ∧
        (1 < policy.requiredApprovals → (kept o policy).requiredApprovals = policy.requiredApprovals) then
      return
    else
      refuse .endpointUnreachable
        "RAN NF OAM did not accept the approval policy of the instance; it stays DEPLOYING"

/-- `_on_bootstrap`. -/
def onBootstrap (inst : RAppInstance) : Request RAppInstance := do
  let limits ← onboardingStatus manifest o inst
  let inst ← applyRappLimits o inst limits
  applyApprovalPolicy o inst
  return inst

end Provisioning

end Smo.RappMgmt
