import Smo.RappMgmt.Requests

/-! What a create, an upgrade or a rollback makes at the other modules before its commit, and what of it
it asks to be removed again when it fails. -/
namespace Smo.RappMgmt.Orphans

open Transaction

inductive Resource
  | invoker (client : ClientId)
  | secret (id : InstanceId)
  | deployment (ref : Nat)
  | usage (ref : Nat)
  deriving DecidableEq

structure Ledger where
  made : List Resource := []
  asked : List Resource := []

/-- How the other modules answer the calls of one request, whether its commit goes through (it does
not where another request changed the old row), and the ids that are drawn. -/
structure Answers where
  status : PackageStatus := .answered true true
  registered : Reply := .done
  recordsClaim : Bool := true
  /-- The credential delivery, where it is on. -/
  delivered : Option Reply := none
  instantiated : Reply := .done
  usageStarted : Reply := .done
  commits : Bool := true
  now : Nat := 0
  instanceId : InstanceId := 0
  client : ClientId := 0
  deployment : Nat := 0
  usage : Nat := 0

abbrev Saga (α : Type) := EStateM Failure Ledger α

section Code

variable (a : Answers)

def refuse {α : Type} (error : FrameworkError) (detail : String) : Saga α :=
  throw (.problem ⟨error, detail⟩)

def make (resource : Resource) : Saga Unit :=
  modify fun l => { l with made := l.made ++ [resource] }

def askRemoval (resource : Resource) : Saga Unit :=
  modify fun l => { l with asked := l.asked ++ [resource] }

def makes (reply : Reply) (resource : Resource) : Saga Unit :=
  if reply.applied then make resource else return

/-- `register_instance_invoker`. -/
def registerInstanceInvoker (inst : RAppInstance) : Saga RAppInstance := do
  makes a.registered (.invoker a.client)
  if a.registered ≠ .done then
    refuse .endpointUnreachable "SME did not register an invoker identity for the rApp instance"
  else if inst.authzScope.isSome ∧ a.recordsClaim = false then do
    askRemoval (.invoker a.client)
    refuse .endpointUnreachable
      "SME did not record the scope claim of the rApp instance; no identity was kept"
  else return { inst with oauthClientId := some a.client }

/-- `deliver_credentials`. -/
def deliverCredentials (inst : RAppInstance) : Saga Unit :=
  match a.delivered with
  | none => return
  | some reply => do
    makes reply (.secret inst.instanceId)
    if reply = .done then return
    else do
      askRemoval (.invoker a.client)
      refuse .endpointUnreachable "the instance's credentials could not be delivered to its workload"

def checkPackage (packageId : PackageId) : Saga Unit :=
  match a.status with
  | .unreachable => throw .unreachable
  | .notFound => refuse .packageNotFound s!"no such package {packageId}"
  | .failed | .answered false _ => refuse .modelNotCertified "package is not AVAILABLE or PRIMED"
  | .answered true false => refuse .modelNotCertified "package has no nfDeploymentDescriptorId"
  | .answered true true => return

def posted (reply : Reply) (resource : Nat → Resource) (ref : Nat) : Saga (Option Nat) := do
  makes reply (resource ref)
  match reply with
  | .done => return some ref
  | .refused => return none
  | .lost | .unreachable => throw .unreachable

/-- `provision_instance`. -/
def provisionInstance (packageId : PackageId) (settings : Settings) : Saga RAppInstance := do
  checkPackage a packageId
  let inst ← registerInstanceInvoker a
    { instanceId := a.instanceId, packageId, oauthClientId := none, createdAt := a.now
      configuration := settings.configuration, autonomyMode := settings.autonomyMode
      regionScope := settings.regionScope, approvalPolicy := settings.approvalPolicy
      authzScope := settings.authzScope }
  deliverCredentials a inst
  let workloadRef ← posted a.instantiated .deployment a.deployment
  let packageUsageRegistrationId ← posted a.usageStarted .usage a.usage
  return { inst with workloadRef, packageUsageRegistrationId }

def commit : Saga Unit := if a.commits then return else throw .integrity

/-- `create_instance`, after the check of its `operatorApiBase`. -/
def createInstance (base : Except Failure Unit) (body : CreateInstanceRequest) : Saga RAppInstance :=
  match base with
  | .error failure => throw failure
  | .ok () =>
  if body.approvalPolicy.isSome ∧ body.autonomyMode ≠ .assist then
    refuse .approvalPolicyNeedsAssist
      "approvalPolicy applies to an ASSIST instance: AUTONOMOUS asks no one and SHADOW writes nothing"
  else
    match Sme.checkedScope body.authzScope with
    | .error problem => throw (.problem problem)
    | .ok claim => do
      let inst ← provisionInstance a body.packageId
        { configuration := some body.config, autonomyMode := body.autonomyMode
          regionScope := body.regionScope, approvalPolicy := body.approvalPolicy, authzScope := claim }
      commit a
      return inst

/-- `start_upgrade`: the replacement. -/
def startUpgrade (old : RAppInstance) (newPackageId : PackageId)
    (restore : Option RAppInstanceVersion) : Saga RAppInstance :=
  match rappInstanceFsm.fire old.state .startUpgrade with
  | .error _ => refuse .lifecycleIllegalTransition s!"RAppInstance {old.instanceId}: START_UPGRADE"
  | .ok _ => do
    let new ← provisionInstance a newPackageId (restore.elim old.settings (·.settings))
    return { new with
      upgradeTimeoutSeconds := old.upgradeTimeoutSeconds
      rollbackOfVersionId := restore.map (·.versionId) }

/-- `upgrade_instance`, of the row that `_load_instance` answers. -/
def upgradeInstance (loaded : Except Failure RAppInstance) (newPackageId : PackageId) :
    Saga RAppInstance :=
  match loaded with
  | .error failure => throw failure
  | .ok old => do
    let new ← startUpgrade a old newPackageId none
    commit a
    return new

/-- `rollback_instance`, of the row that `_resolve_current` answers. -/
def rollbackInstance (db : Db) (loaded : Except Failure RAppInstance) : Saga RAppInstance :=
  match loaded with
  | .error failure => throw failure
  | .ok current =>
    match rollbackTarget db current.instanceId with
    | none => refuse .rollbackHistoryUnavailable
        s!"RAppInstance {current.instanceId} has no upgrade left to roll back"
    | some target => do
      let new ← startUpgrade a current target.previousPackageId (some target)
      commit a
      return new

inductive Order
  | create (base : Except Failure Unit) (body : CreateInstanceRequest)
  | upgrade (loaded : Except Failure RAppInstance) (newPackageId : PackageId)
  | rollback (db : Db) (loaded : Except Failure RAppInstance)

def perform : Order → Saga RAppInstance
  | .create base body => createInstance a base body
  | .upgrade loaded newPackageId => upgradeInstance a loaded newPackageId
  | .rollback db loaded => rollbackInstance a db loaded

end Code

section Orphans

def Names (inst : RAppInstance) : Resource → Prop
  | .invoker client => inst.oauthClientId = some client
  | .secret id => inst.instanceId = id
  | .deployment ref => inst.workloadRef = some ref
  | .usage ref => inst.packageUsageRegistrationId = some ref

def Undone (l : Ledger) : Prop := ∀ resource ∈ l.made, resource ∈ l.asked

/-- What was made is named by the row that was committed, or has been asked to be removed. -/
def NoOrphan : EStateM.Result Failure Ledger RAppInstance → Prop
  | .ok inst l => ∀ resource ∈ l.made, Names inst resource
  | .error _ l => Undone l

/-- The package and the settings an instance is provisioned with, when the request gets so far. -/
def Order.provisions : Order → Option (PackageId × Settings)
  | .create (.error _) _ | .upgrade (.error _) _ | .rollback _ (.error _) => none
  | .create (.ok ()) body =>
    if body.approvalPolicy.isSome ∧ body.autonomyMode ≠ .assist then none
    else (Sme.checkedScope body.authzScope).toOption.map fun claim =>
      (body.packageId, {
        configuration := some body.config, autonomyMode := body.autonomyMode
        regionScope := body.regionScope, approvalPolicy := body.approvalPolicy, authzScope := claim })
  | .upgrade (.ok old) newPackageId =>
    (rappInstanceFsm.fire old.state .startUpgrade).toOption.map fun _ => (newPackageId, old.settings)
  | .rollback db (.ok current) =>
    (rollbackTarget db current.instanceId).bind fun target =>
      (rappInstanceFsm.fire current.state .startUpgrade).toOption.map fun _ =>
        (target.previousPackageId, target.settings)

def answered (reply : Reply) : Prop := reply = .done ∨ reply = .refused

def Answers.Registers (a : Answers) (settings : Settings) : Prop :=
  a.registered = .done ∧ (settings.authzScope.isSome → a.recordsClaim = true)

def Answers.Delivers (a : Answers) : Prop := ∀ reply ∈ a.delivered, reply = .done

/-- SME and the delivery of credentials do nothing of which the answer is lost, and once the
credentials are delivered NFO and Onboarding answer and the commit goes through. -/
structure Answers.Settles (a : Answers) (settings : Settings) : Prop where
  registered : a.registered ≠ .lost
  delivered : a.Registers settings → a.delivered ≠ some .lost
  rest : a.Registers settings → a.Delivers →
    answered a.instantiated ∧ answered a.usageStarted ∧ a.commits = true

variable {a : Answers} {settings : Settings} {inst : RAppInstance}

theorem checkPackage_deployable (packageId : PackageId) :
    Ensures (· = {}) (checkPackage a packageId) (fun _ l => a.status = .answered true true ∧ l = {})
      (fun l => a.status ≠ .answered true true ∧ l = {}) := by
  unfold checkPackage
  cases a.status with
  | unreachable | notFound | failed => exact fun _ same => ⟨by simp, same⟩
  | answered deployable descriptor =>
    cases deployable with
    | false => exact fun _ same => ⟨by simp, same⟩
    | true =>
      cases descriptor with
      | false => exact fun _ same => ⟨by simp, same⟩
      | true => exact fun _ same => ⟨rfl, same⟩

theorem settles_of_not_registers (kept : a.registered ≠ .lost) (fails : ¬a.Registers settings) :
    a.Settles settings :=
  ⟨kept, fun registers => absurd registers fails, fun registers => absurd registers fails⟩

def after (reply : Reply) (resource : Resource) (l : Ledger) : Ledger :=
  if reply.applied then { l with made := l.made ++ [resource] } else l

variable {l : Ledger} {raises : Ledger → Prop} {α : Type} {resource : Resource}
  {packageId : PackageId} {old : RAppInstance} {restore : Option RAppInstanceVersion}

theorem makes_at (reply : Reply) (resource : Resource) :
    Ensures (· = l) (makes reply resource) (fun _ l' => l' = after reply resource l) raises := by
  rintro _ rfl
  cases reply <;> rfl

theorem refuse_undone {post : α → Ledger → Prop} (error : FrameworkError) (detail : String)
    (resource : Resource) (ends : raises { l with asked := l.asked ++ [resource] }) :
    Ensures (· = l) (do askRemoval resource; refuse error detail) post raises := by
  rintro _ rfl
  exact ends

theorem not_undone (made : resource ∈ l.made) (kept : resource ∉ l.asked) :
    ¬Undone l := fun undone => kept (undone resource made)

theorem register_settles (claim : inst.authzScope = settings.authzScope) :
    Ensures (· = {}) (registerInstanceInvoker a inst)
      (fun made l => (a.Registers settings ∧ made = { inst with oauthClientId := some a.client }) ∧
        l = ⟨[.invoker a.client], []⟩)
      (fun l => Undone l ↔ a.Settles settings) := by
  unfold registerInstanceInvoker
  apply (makes_at _ _).bind
  intro _
  apply Ensures.ite
  · rintro fails _ rfl
    have unregistered : ¬a.Registers settings := fun registers => fails registers.1
    by_cases lost : a.registered = .lost
    · rw [lost]
      exact iff_of_false (not_undone (List.mem_singleton.mpr rfl) nofun)
        fun settles => settles.registered lost
    · have nothing : after a.registered (.invoker a.client) {} = {} := by
        cases replied : a.registered with
        | done => exact absurd replied fails
        | lost => exact absurd replied lost
        | refused | unreachable => rfl
      change Undone (after a.registered (.invoker a.client) {}) ↔ _
      rw [nothing]
      exact iff_of_true nofun (settles_of_not_registers lost unregistered)
  intro done
  have done : a.registered = .done := not_not.mp done
  rw [done]
  apply Ensures.ite
  · rintro ⟨claimed, unrecorded⟩
    refine refuse_undone _ _ _ (iff_of_true (fun _ mem => mem) (settles_of_not_registers ?_ ?_))
    · rw [done]
      exact nofun
    · rintro ⟨-, records⟩
      rw [records (claim ▸ claimed)] at unrecorded
      cases unrecorded
  · rintro records _ rfl
    refine ⟨⟨⟨done, fun claimed => ?_⟩, rfl⟩, rfl⟩
    rw [← claim] at claimed
    simpa [claimed] using records

def delivered (a : Answers) (inst : RAppInstance) : Ledger :=
  ⟨.invoker a.client :: a.delivered.toList.map fun _ => .secret inst.instanceId, []⟩

theorem deliver_settles (registers : a.Registers settings) :
    Ensures (· = ⟨[.invoker a.client], []⟩) (deliverCredentials a inst)
      (fun _ l => a.Delivers ∧ l = delivered a inst) (fun l => Undone l ↔ a.Settles settings) := by
  have kept : a.registered ≠ .lost := by
    rw [registers.1]
    exact nofun
  unfold deliverCredentials delivered Answers.Delivers
  cases sent : a.delivered with
  | none => exact fun _ same => ⟨nofun, same⟩
  | some reply =>
    apply (makes_at _ _).bind
    intro _
    apply Ensures.ite
    · rintro rfl _ rfl
      exact ⟨fun _ is => (Option.some.inj is).symm, rfl⟩
    · intro fails
      have undelivered : ¬a.Delivers := fun delivers => fails (delivers reply sent)
      refine refuse_undone _ _ _ ?_
      cases reply with
      | done => exact absurd rfl fails
      | lost =>
        refine iff_of_false (fun undone => ?_) fun settles => settles.delivered registers sent
        have asked := undone (.secret inst.instanceId) (by simp [after, Reply.applied])
        simp [after, Reply.applied] at asked
      | refused | unreachable =>
        refine iff_of_true (fun _ mem => mem) ⟨kept, fun _ lost => ?_, fun _ delivers =>
          absurd delivers undelivered⟩
        rw [sent] at lost
        cases lost

theorem posted_at (reply : Reply) (resource : Nat → Resource) (ref : Nat) :
    Ensures (· = l) (posted reply resource ref)
      (fun found l' => (answered reply ∧ (reply.applied = true → found = some ref)) ∧
        l' = after reply (resource ref) l)
      (fun l' => ¬answered reply ∧ (∀ made ∈ l.made, made ∈ l'.made) ∧ l'.asked = l.asked) := by
  unfold posted
  apply (makes_at _ _).bind
  intro _
  cases reply with
  | done => exact fun _ same => ⟨⟨.inl rfl, fun _ => rfl⟩, same⟩
  | refused => exact fun _ same => ⟨⟨.inr rfl, nofun⟩, same⟩
  | lost =>
    rintro _ rfl
    exact ⟨nofun, fun _ mem => List.mem_append_left _ mem, rfl⟩
  | unreachable =>
    rintro _ rfl
    exact ⟨nofun, fun _ mem => mem, rfl⟩

theorem mem_after {reply : Reply} {made : Resource} (mem : made ∈ (after reply resource l).made) :
    made ∈ l.made ∨ (reply.applied = true ∧ made = resource) := by
  unfold after at mem
  split at mem
  next applied =>
    rcases List.mem_append.mp mem with old | new
    · exact .inl old
    · exact .inr ⟨applied, List.mem_singleton.mp new⟩
  next => exact .inl mem

def Stands (a : Answers) (inst : RAppInstance) (l : Ledger) : Prop :=
  (∀ resource ∈ l.made, Names inst resource) ∧ l.asked = [] ∧ .invoker a.client ∈ l.made

theorem Stands.not_undone {l' : Ledger} (stands : Stands a inst l)
    (made : ∀ resource ∈ l.made, resource ∈ l'.made) (asked : l'.asked = l.asked) : ¬Undone l' := by
  intro undone
  have mem := undone _ (made _ stands.2.2)
  rw [asked, stands.2.1] at mem
  cases mem

theorem unsettled_of (registers : a.Registers settings) (delivers : a.Delivers)
    (fails : ¬(answered a.instantiated ∧ answered a.usageStarted ∧ a.commits = true)) :
    ¬a.Settles settings := fun settles => fails (settles.rest registers delivers)

theorem settled_of (registers : a.Registers settings) (delivers : a.Delivers)
    (instantiated : answered a.instantiated) (started : answered a.usageStarted)
    (commits : a.commits = true) : a.Settles settings := by
  refine ⟨?_, fun _ lost => ?_, fun _ _ => ⟨instantiated, started, commits⟩⟩
  · rw [registers.1]
    exact nofun
  · cases delivers _ lost

theorem rest_settles (identified : inst.oauthClientId = some a.client)
    (registers : a.Registers settings) (delivers : a.Delivers) :
    Ensures (· = delivered a inst)
      (do
        let workloadRef ← posted a.instantiated .deployment a.deployment
        let packageUsageRegistrationId ← posted a.usageStarted .usage a.usage
        return { inst with workloadRef, packageUsageRegistrationId })
      (fun made l => (answered a.instantiated ∧ answered a.usageStarted) ∧ Stands a made l)
      (fun l => Undone l ↔ a.Settles settings) := by
  have begins : Stands a inst (delivered a inst) := by
    refine ⟨fun resource mem => ?_, rfl, List.mem_cons_self⟩
    rcases List.mem_cons.mp mem with rfl | secret
    · exact identified
    · obtain ⟨_, -, rfl⟩ := List.mem_map.mp secret
      rfl
  apply ((posted_at _ _ _).weaken (fun _ same => same) (fun _ _ found => found) ?_).bind
  · intro workloadRef
    apply Ensures.of_fact
    rintro ⟨instantiated, deployment⟩
    have kept (reply : Reply) (resource : Resource) (l : Ledger) :
        ∀ made ∈ l.made, made ∈ (after reply resource l).made := by
      intro made mem
      unfold after
      split
      next => exact List.mem_append_left _ mem
      next => exact mem
    have asked (reply : Reply) (resource : Resource) (l : Ledger) :
        (after reply resource l).asked = l.asked := by
      unfold after
      split <;> rfl
    apply ((posted_at _ _ _).weaken (fun _ same => same) (fun _ _ found => found) ?_).bind
    · intro packageUsageRegistrationId
      apply Ensures.of_fact
      rintro ⟨started, usage⟩
      rintro _ rfl
      refine ⟨⟨instantiated, started⟩, fun resource mem => ?_, ?_, ?_⟩
      · rcases mem_after mem with earlier | ⟨applied, rfl⟩
        · rcases mem_after earlier with first | ⟨applied, rfl⟩
          · rcases List.mem_cons.mp first with rfl | secret
            · exact identified
            · obtain ⟨_, -, rfl⟩ := List.mem_map.mp secret
              rfl
          · exact deployment applied
        · exact usage applied
      · rw [asked, asked]
        rfl
      · exact kept _ _ _ _ (kept _ _ _ _ List.mem_cons_self)
    · rintro l ⟨unanswered, made, same⟩
      refine iff_of_false (begins.not_undone (fun resource mem => made _ (kept _ _ _ _ mem)) ?_)
        (unsettled_of registers delivers fun all => unanswered all.2.1)
      rw [same, asked]
  · rintro l ⟨unanswered, made, same⟩
    exact iff_of_false (begins.not_undone made same)
      (unsettled_of registers delivers fun all => unanswered all.1)

theorem provision_settles (packageId : PackageId) :
    Ensures (· = {}) (provisionInstance a packageId settings)
      (fun made l => (a.status = .answered true true ∧ a.Registers settings ∧ a.Delivers ∧
        answered a.instantiated ∧ answered a.usageStarted) ∧ Stands a made l)
      (fun l => Undone l ↔ (a.status = .answered true true → a.Settles settings)) := by
  have settled {l : Ledger} (deployable : a.status = .answered true true)
      (settles : Undone l ↔ a.Settles settings) :
      Undone l ↔ (a.status = .answered true true → a.Settles settings) := by
    rw [settles]
    exact ⟨fun settles _ => settles, fun settles => settles deployable⟩
  unfold provisionInstance
  apply ((checkPackage_deployable packageId).weaken (fun _ same => same) (fun _ _ checked => checked)
    ?_).bind
  · intro _
    apply Ensures.of_fact
    intro deployable
    apply ((register_settles rfl).weaken (fun _ same => same) (fun _ _ made => made)
      fun _ => settled deployable).bind
    intro inst
    apply Ensures.of_fact
    rintro ⟨registers, rfl⟩
    apply ((deliver_settles registers).weaken (fun _ same => same) (fun _ _ made => made)
      fun _ => settled deployable).bind
    intro _
    apply Ensures.of_fact
    intro delivers
    exact (rest_settles rfl registers delivers).weaken (fun _ same => same)
      (fun _ _ made => ⟨⟨deployable, registers, delivers, made.1⟩, made.2⟩)
      fun _ => settled deployable
  · rintro l ⟨undeployable, rfl⟩
    exact iff_of_true nofun fun deployable => absurd deployable undeployable

/-- When the request provisions an instance of a package it may, the answers settle. -/
def Settled (a : Answers) (order : Order) : Prop :=
  ∀ packageId settings, order.provisions = some (packageId, settings) →
    a.status = .answered true true → a.Settles settings

variable {order : Order}

theorem nothing_settled (nothing : order.provisions = none) : Undone {} ↔ Settled a order := by
  refine iff_of_true nofun fun packageId settings provisions => ?_
  rw [nothing] at provisions
  cases provisions

theorem refused_settled {post : α → Ledger → Prop} (nothing : order.provisions = none)
    (failure : Failure) :
    Ensures (· = {}) (throw failure : Saga α) post (fun l => Undone l ↔ Settled a order) := by
  rintro _ rfl
  exact nothing_settled nothing

theorem settled_iff (provisions : order.provisions = some (packageId, settings)) :
    Settled a order ↔ (a.status = .answered true true → a.Settles settings) := by
  constructor
  · exact fun settled => settled packageId settings provisions
  · intro settles packageId' settings' provisions'
    rw [provisions, Option.some.injEq, Prod.mk.injEq] at provisions'
    obtain ⟨rfl, rfl⟩ := provisions'
    exact settles

theorem commit_settles (provisions : order.provisions = some (packageId, settings))
    (done : a.status = .answered true true ∧ a.Registers settings ∧ a.Delivers ∧
      answered a.instantiated ∧ answered a.usageStarted) :
    Ensures (Stands a inst) (do commit a; return inst)
      (fun made l => Settled a order ∧ ∀ resource ∈ l.made, Names made resource)
      (fun l => Undone l ↔ Settled a order) := by
  obtain ⟨deployable, registers, delivers, instantiated, started⟩ := done
  unfold commit
  cases commits : a.commits with
  | true =>
    intro l stands
    refine ⟨(settled_iff provisions).mpr fun _ => ?_, stands.1⟩
    exact settled_of registers delivers instantiated started commits
  | false =>
    intro l stands
    rw [settled_iff provisions]
    refine iff_of_false (stands.not_undone (fun _ mem => mem) rfl) fun settles => ?_
    refine unsettled_of registers delivers (fun all => ?_) (settles deployable)
    rw [commits] at all
    cases all.2.2

theorem startUpgrade_settles {next : InstanceState}
    (legal : rappInstanceFsm.fire old.state .startUpgrade = .ok next)
    (provisions : order.provisions = some (packageId, restore.elim old.settings (·.settings))) :
    Ensures (· = {}) (do
        let new ← startUpgrade a old packageId restore
        commit a
        return new)
      (fun made l => Settled a order ∧ ∀ resource ∈ l.made, Names made resource)
      (fun l => Undone l ↔ Settled a order) := by
  have started : Ensures (· = {}) (startUpgrade a old packageId restore)
      (fun new l => (a.status = .answered true true ∧
        a.Registers (restore.elim old.settings (·.settings)) ∧ a.Delivers ∧
        answered a.instantiated ∧ answered a.usageStarted) ∧ Stands a new l)
      (fun l => Undone l ↔ Settled a order) := by
    unfold startUpgrade
    rw [legal]
    apply ((provision_settles packageId).weaken (fun _ same => same) (fun _ _ made => made)
      fun _ settles => settles.trans (settled_iff provisions).symm).bind
    intro new l made
    refine ⟨made.1, fun resource mem => ?_, made.2.2⟩
    have names := made.2.1 resource mem
    cases resource <;> exact names
  apply started.bind
  intro new
  apply Ensures.of_fact
  exact fun done => commit_settles provisions done

theorem startUpgrade_illegal {exc : IllegalTransition InstanceState InstanceEvent}
    (illegal : rappInstanceFsm.fire old.state .startUpgrade = .error exc)
    (nothing : order.provisions = none) : Ensures (· = {}) (do
        let new ← startUpgrade a old packageId restore
        commit a
        return new)
      (fun made l => Settled a order ∧ ∀ resource ∈ l.made, Names made resource)
      (fun l => Undone l ↔ Settled a order) := by
  unfold startUpgrade
  rw [illegal]
  rintro _ rfl
  exact nothing_settled nothing

theorem perform_settles (order : Order) :
    Ensures (· = {}) (perform a order)
      (fun made l => Settled a order ∧ ∀ resource ∈ l.made, Names made resource)
      (fun l => Undone l ↔ Settled a order) := by
  cases order with
  | create base body =>
    cases base with
    | error failure => exact refused_settled rfl failure
    | ok =>
      change Ensures _ (createInstance a (.ok ()) body) _ _
      unfold createInstance
      apply Ensures.ite
      · intro refused
        exact refused_settled (by rw [Order.provisions, if_pos refused]) _
      intro accepted
      cases checked : Sme.checkedScope body.authzScope with
      | error problem =>
        refine refused_settled ?_ _
        rw [Order.provisions, if_neg accepted, checked]
        rfl
      | ok claim =>
        have provisions : (Order.create (.ok ()) body).provisions = some (body.packageId, {
            configuration := some body.config, autonomyMode := body.autonomyMode
            regionScope := body.regionScope, approvalPolicy := body.approvalPolicy
            authzScope := claim }) := by
          rw [Order.provisions, if_neg accepted, checked]
          rfl
        apply ((provision_settles body.packageId).weaken (fun _ same => same) (fun _ _ made => made)
          fun _ settles => settles.trans (settled_iff provisions).symm).bind
        intro inst
        apply Ensures.of_fact
        exact fun done => commit_settles provisions done
  | upgrade loaded newPackageId =>
    cases loaded with
    | error failure => exact refused_settled rfl failure
    | ok old =>
      cases legal : rappInstanceFsm.fire old.state .startUpgrade with
      | error exc =>
        refine startUpgrade_illegal legal ?_
        rw [Order.provisions, legal]
        rfl
      | ok next =>
        refine startUpgrade_settles legal ?_
        rw [Order.provisions, legal]
        rfl
  | rollback db loaded =>
    cases loaded with
    | error failure => exact refused_settled rfl failure
    | ok current =>
      change Ensures _ (rollbackInstance a db (.ok current)) _ _
      unfold rollbackInstance
      cases target : rollbackTarget db current.instanceId with
      | none =>
        simp only [target]
        refine refused_settled ?_ _
        rw [Order.provisions, target]
        rfl
      | some version =>
        simp only [target]
        cases legal : rappInstanceFsm.fire current.state .startUpgrade with
        | error exc =>
          refine startUpgrade_illegal legal ?_
          rw [Order.provisions, target, Option.bind_some, legal]
          rfl
        | ok next =>
          refine startUpgrade_settles legal ?_
          rw [Order.provisions, target, Option.bind_some, legal]
          rfl

/-- A request leaves no orphan exactly when the answers settle it, if it provisions an instance. -/
theorem no_orphan_iff (a : Answers) (order : Order) :
    NoOrphan (perform a order {}) ↔ Settled a order := by
  have settles := perform_settles (a := a) order {} rfl
  cases ended : perform a order {} with
  | ok inst l =>
    rw [ended] at settles
    exact iff_of_true settles.2 settles.1
  | error failure l =>
    rw [ended] at settles
    exact settles

/-- NFO does not come back, and the invoker that was made is not taken back. -/
theorem invoker_orphaned : ∃ a order, ¬NoOrphan (perform a order {}) := by
  refine ⟨{ instantiated := .unreachable }, .create (.ok ()) { packageId := 1 }, fun clean => ?_⟩
  cases clean (.invoker 0) List.mem_cons_self

end Orphans

end Smo.RappMgmt.Orphans
