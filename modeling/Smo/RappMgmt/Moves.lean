import Smo.RappMgmt.Requests
import Mathlib.Logic.Relation

/-! What a request of rApp Management can do, one committed change at a time. -/
namespace Smo.RappMgmt

section Rows

namespace Db

variable {db : Db} {inst other : RAppInstance} {id : InstanceId}

theorem row_id (row : db.row id = some inst) : inst.instanceId = id := Table.key_of_get row

theorem row_of_mem (distinct : (db.instances.map (·.instanceId)).Nodup) (mem : inst ∈ db.instances) :
    db.row inst.instanceId = some inst := Table.get_of_mem distinct mem

theorem row_put (inst : RAppInstance) : (db.put inst).row id =
    if inst.instanceId = id then (db.row id).map fun _ => inst else db.row id := Table.get_put inst

theorem row_put_self (row : db.row inst.instanceId = some other) :
    (db.put inst).row inst.instanceId = some inst := by
  rw [row_put, if_pos rfl, row]
  rfl

theorem row_add (absent : db.row inst.instanceId = none) :
    (db.add inst).row id = if inst.instanceId = id then some inst else db.row id :=
  Table.get_snoc absent

theorem row_remove (gone : InstanceId) :
    (db.remove gone).row id = if id = gone then none else db.row id := by
  refine (Table.get_filter_key (· ≠ gone)).trans ?_
  by_cases same : id = gone
  · simp [same]
  · simp only [same, ne_eq, not_false_eq_true, decide_true, if_true, if_false]
    rfl

theorem put_add (apart : inst.instanceId ≠ other.instanceId) :
    (db.add other).put inst = (db.put inst).add other := by
  simp [put, add, Table.modify, apart.symm]

theorem row_recordVersion (version : RAppInstanceVersion) (undone : Option VersionId) :
    (recordVersion db version undone).row id = db.row id := by
  cases undone <;> rfl

theorem references_iff (distinct : (db.instances.map (·.instanceId)).Nodup) :
    db.references = true ↔ ∀ id inst next, db.row id = some inst →
      inst.pendingUpgradeInstanceId = some next → (db.row next).isSome := by
  simp only [references, List.all_eq_true, Option.all_eq_true]
  constructor
  · intro all id inst next row pending
    exact all inst (Table.mem_of_get row) next pending
  · intro all inst mem next pending
    exact all _ inst next (row_of_mem distinct mem) pending

end Db

end Rows

/-- What holds of the rows in every state: ids are not used twice, and a pending replacement
is there and has one owner. -/
structure Wf (w : World) : Prop where
  distinct : (w.db.instances.map (·.instanceId)).Nodup
  ids : ∀ id inst, w.db.row id = some inst → id < w.drawn
  clients : ∀ id inst c, w.db.row id = some inst → inst.oauthClientId = some c → c < w.drawn
  clientsOnce : ∀ id inst id' inst' c, w.db.row id = some inst → w.db.row id' = some inst' →
    inst.oauthClientId = some c → inst'.oauthClientId = some c → id = id'
  pendingThere : ∀ id inst next, w.db.row id = some inst →
    inst.pendingUpgradeInstanceId = some next → (w.db.row next).isSome
  owners : ∀ id inst id' inst' next, w.db.row id = some inst → w.db.row id' = some inst' →
    inst.pendingUpgradeInstanceId = some next → inst'.pendingUpgradeInstanceId = some next → id = id'
  apart : ∀ id inst, w.db.row id = some inst → inst.pendingUpgradeInstanceId ≠ some id
  upgrading : ∀ id inst, w.db.row id = some inst →
    (inst.state = .upgrading ↔ inst.pendingUpgradeInstanceId.isSome)

structure Fits (w : World) (inst : RAppInstance) : Prop where
  there : (w.db.row inst.instanceId).isSome
  client : ∀ c, inst.oauthClientId = some c → c < w.drawn ∧
    ∀ id other, w.db.row id = some other → other.oauthClientId = some c → id = inst.instanceId
  pending : ∀ next, inst.pendingUpgradeInstanceId = some next → (w.db.row next).isSome ∧
    ∀ id other, w.db.row id = some other → other.pendingUpgradeInstanceId = some next →
      id = inst.instanceId
  apart : inst.pendingUpgradeInstanceId ≠ some inst.instanceId
  upgrading : inst.state = .upgrading ↔ inst.pendingUpgradeInstanceId.isSome

structure Fresh (w : World) (inst : RAppInstance) : Prop where
  absent : w.db.row inst.instanceId = none
  drawn : inst.instanceId < w.drawn
  client : ∀ c, inst.oauthClientId = some c → c < w.drawn ∧
    ∀ id other, w.db.row id = some other → other.oauthClientId ≠ some c
  deploying : inst.state = .deploying
  alone : inst.pendingUpgradeInstanceId = none

section Wf

variable {w : World} {inst : RAppInstance}

theorem Wf.references (wf : Wf w) : w.db.references = true :=
  (Db.references_iff wf.distinct).mpr wf.pendingThere

theorem distinct_put (distinct : (w.db.instances.map (·.instanceId)).Nodup) :
    ((w.db.put inst).instances.map (·.instanceId)).Nodup := by
  rw [Db.put, Table.keys_put]
  exact distinct

theorem row_put_cases {id : InstanceId} {found : RAppInstance}
    (row : (w.db.put inst).row id = some found) :
    id = inst.instanceId ∧ found = inst ∨ id ≠ inst.instanceId ∧ w.db.row id = some found := by
  rw [Db.row_put] at row
  split_ifs at row with same
  · obtain ⟨_, -, rfl⟩ := Option.map_eq_some_iff.mp row
    exact .inl ⟨same.symm, rfl⟩
  · exact .inr ⟨Ne.symm same, row⟩

theorem isSome_put {id : InstanceId} : ((w.db.put inst).row id).isSome = (w.db.row id).isSome := by
  rw [Db.row_put]
  split_ifs <;> simp

theorem Wf.put (wf : Wf w) (fits : Fits w inst) : Wf { w with db := w.db.put inst } where
  distinct := distinct_put wf.distinct
  ids id found row := by
    rcases row_put_cases row with ⟨rfl, rfl⟩ | ⟨-, before⟩
    · obtain ⟨other, there⟩ := Option.isSome_iff_exists.mp fits.there
      exact wf.ids _ _ there
    · exact wf.ids _ _ before
  clients id found c row client := by
    rcases row_put_cases row with ⟨rfl, rfl⟩ | ⟨-, before⟩
    · exact (fits.client c client).1
    · exact wf.clients _ _ _ before client
  clientsOnce id found id' found' c row row' client client' := by
    rcases row_put_cases row with ⟨rfl, rfl⟩ | ⟨apart, before⟩ <;>
      rcases row_put_cases row' with ⟨rfl, rfl⟩ | ⟨apart', before'⟩
    · rfl
    · exact ((fits.client c client).2 _ _ before' client').symm
    · exact (fits.client c client').2 _ _ before client
    · exact wf.clientsOnce _ _ _ _ c before before' client client'
  pendingThere id found next row pending := by
    refine isSome_put.trans ?_
    rcases row_put_cases row with ⟨rfl, rfl⟩ | ⟨-, before⟩
    · exact (fits.pending next pending).1
    · exact wf.pendingThere _ _ _ before pending
  owners id found id' found' next row row' pending pending' := by
    rcases row_put_cases row with ⟨rfl, rfl⟩ | ⟨apart, before⟩ <;>
      rcases row_put_cases row' with ⟨rfl, rfl⟩ | ⟨apart', before'⟩
    · rfl
    · exact ((fits.pending next pending).2 _ _ before' pending').symm
    · exact (fits.pending next pending').2 _ _ before pending
    · exact wf.owners _ _ _ _ next before before' pending pending'
  apart id found row := by
    rcases row_put_cases row with ⟨rfl, rfl⟩ | ⟨-, before⟩
    · exact fits.apart
    · exact wf.apart _ _ before
  upgrading id found row := by
    rcases row_put_cases row with ⟨rfl, rfl⟩ | ⟨-, before⟩
    · exact fits.upgrading
    · exact wf.upgrading _ _ before

theorem row_add_cases (fresh : Fresh w inst) {id : InstanceId} {found : RAppInstance}
    (row : (w.db.add inst).row id = some found) :
    id = inst.instanceId ∧ found = inst ∨ id ≠ inst.instanceId ∧ w.db.row id = some found := by
  rw [Db.row_add fresh.absent] at row
  split_ifs at row with same
  · exact .inl ⟨same.symm, (Option.some.inj row).symm⟩
  · exact .inr ⟨Ne.symm same, row⟩

theorem Wf.add (wf : Wf w) (fresh : Fresh w inst) : Wf { w with db := w.db.add inst } where
  distinct := Table.nodup_snoc wf.distinct fresh.absent
  ids id found row := by
    rcases row_add_cases fresh row with ⟨rfl, rfl⟩ | ⟨-, before⟩
    · exact fresh.drawn
    · exact wf.ids _ _ before
  clients id found c row client := by
    rcases row_add_cases fresh row with ⟨rfl, rfl⟩ | ⟨-, before⟩
    · exact (fresh.client c client).1
    · exact wf.clients _ _ _ before client
  clientsOnce id found id' found' c row row' client client' := by
    rcases row_add_cases fresh row with ⟨rfl, rfl⟩ | ⟨apart, before⟩ <;>
      rcases row_add_cases fresh row' with ⟨rfl, rfl⟩ | ⟨apart', before'⟩
    · rfl
    · exact absurd client' ((fresh.client c client).2 _ _ before')
    · exact absurd client ((fresh.client c client').2 _ _ before)
    · exact wf.clientsOnce _ _ _ _ c before before' client client'
  pendingThere id found next row pending := by
    show ((w.db.add inst).row next).isSome = true
    rw [Db.row_add fresh.absent]
    split_ifs
    · rfl
    · rcases row_add_cases fresh row with ⟨rfl, rfl⟩ | ⟨-, before⟩
      · rw [fresh.alone] at pending
        cases pending
      · exact wf.pendingThere _ _ _ before pending
  owners id found id' found' next row row' pending pending' := by
    rcases row_add_cases fresh row with ⟨rfl, rfl⟩ | ⟨apart, before⟩ <;>
      rcases row_add_cases fresh row' with ⟨rfl, rfl⟩ | ⟨apart', before'⟩
    · rfl
    · rw [fresh.alone] at pending
      cases pending
    · rw [fresh.alone] at pending'
      cases pending'
    · exact wf.owners _ _ _ _ next before before' pending pending'
  apart id found row := by
    rcases row_add_cases fresh row with ⟨rfl, rfl⟩ | ⟨-, before⟩
    · simp [fresh.alone]
    · exact wf.apart _ _ before
  upgrading id found row := by
    rcases row_add_cases fresh row with ⟨rfl, rfl⟩ | ⟨-, before⟩
    · simp [fresh.deploying, fresh.alone]
    · exact wf.upgrading _ _ before

theorem row_remove_some {gone id : InstanceId} {found : RAppInstance}
    (row : (w.db.remove gone).row id = some found) : id ≠ gone ∧ w.db.row id = some found := by
  rw [Db.row_remove] at row
  split_ifs at row with same
  exact ⟨same, row⟩

theorem Wf.remove (wf : Wf w) {gone : InstanceId}
    (unnamed : ∀ id other, id ≠ gone → w.db.row id = some other →
      other.pendingUpgradeInstanceId ≠ some gone) : Wf { w with db := w.db.remove gone } where
  distinct := (List.filter_sublist.map _).nodup wf.distinct
  ids id found row := wf.ids _ _ (row_remove_some row).2
  clients id found c row := wf.clients _ _ _ (row_remove_some row).2
  clientsOnce id found id' found' c row row' :=
    wf.clientsOnce _ _ _ _ c (row_remove_some row).2 (row_remove_some row').2
  pendingThere id found next row pending := by
    obtain ⟨apart, before⟩ := row_remove_some row
    show ((w.db.remove gone).row next).isSome = true
    rw [Db.row_remove, if_neg]
    · exact wf.pendingThere _ _ _ before pending
    · rintro rfl
      exact unnamed _ _ apart before pending
  owners id found id' found' next row row' :=
    wf.owners _ _ _ _ next (row_remove_some row).2 (row_remove_some row').2
  apart id found row := wf.apart _ _ (row_remove_some row).2
  upgrading id found row := wf.upgrading _ _ (row_remove_some row).2

end Wf

/-- Calls of a request that commits nothing: they make or remove invokers that no row has yet, and
set limits and policies of instances that are not running. -/
structure Calls (w w' : World) : Prop where
  db : w'.db = w.db
  now : w'.now = w.now
  drawn : w.drawn ≤ w'.drawn
  invokers : ∀ c < w.drawn, c ∈ w'.platform.invokers → c ∈ w.platform.invokers
  limits : ∀ c, (∀ id inst, w.db.row id = some inst → inst.oauthClientId = some c →
    inst.state ≠ .deploying) → w'.platform.limits (some c) = w.platform.limits (some c)
  policies : ∀ c, (∀ id inst, w.db.row id = some inst → inst.oauthClientId = some c →
    inst.state ≠ .deploying) →
      w'.platform.approvalPolicies (some c) = w.platform.approvalPolicies (some c)
  killed : w'.platform.killed = w.platform.killed

structure Safe (manifest : PackageId → RappLimits) (p : Platform) (inst : RAppInstance) : Prop where
  limits : (manifest inst.packageId).declared = true →
    p.limits inst.oauthClientId = some (manifest inst.packageId)
  policy : ∀ policy, inst.approvalPolicy = some policy →
    ∃ held, p.approvalPolicies inst.oauthClientId = some held ∧
      held.timeoutSeconds = policy.timeoutSeconds ∧ held.onTimeout = policy.onTimeout ∧
      policy.requiredApprovals ≤ held.requiredApprovals

def Outside.tells (o : Outside) (inst : RAppInstance) : Bool :=
  match o.status inst.packageId with
  | .answered _ _ => true
  | _ => false

def backAgain (o : Outside) (old : RAppInstance) (new : Option RAppInstance) (reason : Reason) :
    RAppInstance :=
  match new with
  | none => { old with state := .running, pendingUpgradeInstanceId := none }
  | some new => { old with
      state := .running
      lastTeardown := some (released o new reason)
      pendingUpgradeInstanceId := none }

def rolled (o : Outside) (w : World) (old new : RAppInstance) (reason : Reason) : World :=
  { w with
    db := (w.db.put (backAgain o old (some new) reason)).remove new.instanceId
    platform := releaseInstanceResources o new (terminateSideEffects o new w.platform) }

def replaced (o : Outside) (w : World) (old new : RAppInstance) : World :=
  let new := { new with lastTeardown := some (released o old .upgradeCommit) }
  { w with
    db := (recordVersion (w.db.put new) (versionOf w.drawn old new) new.rollbackOfVersionId).remove
      old.instanceId
    platform := releaseInstanceResources o old (terminateSideEffects o old w.platform)
    drawn := w.drawn + 1 }

/-- The replacement that `made` gives for an upgrade of an instance, or for a rollback. -/
structure Replaces (old : RAppInstance) (restore : Option RAppInstanceVersion) (new : RAppInstance) :
    Prop where
  settings : new.settings = restore.elim old.settings (·.settings)
  restores : new.rollbackOfVersionId = restore.map (·.versionId)

def Issues (o : Outside) (inst : RAppInstance) : Prop :=
  o.reply (.registerInvoker inst.instanceId) = .done ∧
    ¬(inst.authzScope.isSome ∧ o.recordsClaim = false) ∧ o.reply (.deliver inst.instanceId) = .done

def Provisions (o : Outside) (w : World) (packageId : PackageId) (settings : Settings) : Prop :=
  ∃ inst s, provisionInstance o packageId settings w = .ok inst s

/-- The success of a pending upgrade is reported in time, and its replacement is confirmed. -/
structure Takes (manifest : PackageId → RappLimits) (o : Outside) (w : World)
    (old new : RAppInstance) : Prop where
  row : w.db.row old.instanceId = some old
  pending : old.pendingUpgradeInstanceId = some new.instanceId
  newRow : w.db.row new.instanceId = some new
  took : ∃ left s, confirmed manifest o new w = .ok left s
  inTime : overdue w.db old new.instanceId w.now = false

/-- The row that `_load_instance` gives, if it gives one. -/
def loads (o : Outside) (w : World) (id : InstanceId) : Option RAppInstance :=
  match w.db.row id with
  | none => none
  | some inst =>
    match upgradeOwner w.db inst with
    | none => some inst
    | some owner =>
      match owner.pendingUpgradeInstanceId with
      | none => some inst
      | some next =>
        if owner.state = .upgrading ∧ overdue w.db owner next w.now then
          if owner.instanceId = id then some (backAgain o inst (w.db.row next) .upgradeTimeout)
          else none
        else some inst

section Moves

variable (manifest : PackageId → RappLimits)

inductive Move (begun : World) (act : Act) : World → World → Prop
  | calls {w w' : World} (calls : Calls w w') : Move begun act w w'
  | passed {w : World} (time : Nat) (is : act = .pass time) :
      Move begun act w { w with now := w.now + time }
  | created {w : World} (inst : RAppInstance) (fresh : Fresh w inst)
      (unused : begun.drawn ≤ inst.instanceId) (plain : inst.rollbackOfVersionId = none) :
      Move begun act w { w with db := w.db.add inst }
  | rotated {w : World} {o : Outside} {inst : RAppInstance} {client : ClientId}
      (is : act = .credentials o inst.instanceId) (row : w.db.row inst.instanceId = some inst)
      (loaded : loads o begun inst.instanceId = some inst) (issued : Issues o inst)
      (deploying : inst.state = .deploying) (drawn : client < w.drawn)
      (fresh : ∀ id other, w.db.row id = some other → other.oauthClientId ≠ some client) :
      Move begun act w { w with db := w.db.put { inst with oauthClientId := some client } }
  | bootstrapped {w : World} {o : Outside} {caller : Caller} {inst : RAppInstance} {limits : Bool}
      (is : act = .bootstrapComplete o caller inst.instanceId)
      (row : w.db.row inst.instanceId = some inst) (deploying : inst.state = .deploying)
      (loaded : loads o begun inst.instanceId = some inst)
      (took : ∃ left s, onBootstrap manifest o inst begun = .ok left s)
      (safe : ((manifest inst.packageId).declared = true → o.tells inst = true) →
        Safe manifest w.platform inst) :
      Move begun act w
        { w with db := w.db.put { inst with state := .running, rappLimitsSet := limits } }
  | recovered {w : World} {o : Outside} {inst : RAppInstance}
      (is : act = .recover o inst.instanceId) (row : w.db.row inst.instanceId = some inst)
      (faulted : inst.state = .faulted) :
      Move begun act w { w with db := w.db.put { inst with state := .deploying } }
  | crashed {w : World} {o : Outside} {caller : Caller} {inst : RAppInstance}
      (is : act = .reportFault o caller inst.instanceId true)
      (row : w.db.row inst.instanceId = some inst) (running : inst.state = .running)
      (own : ∀ client, caller = some client → inst.oauthClientId = some client)
      (loaded : loads o begun inst.instanceId = some inst) :
      Move begun act w { w with
        db := w.db.put { inst with state := .faulted }
        platform := reconsiderRegistrations o inst w.platform }
  | started {w : World} {o : Outside} {old new : RAppInstance} {restore : Option RAppInstanceVersion}
      (is : (∃ package, act = .upgrade o old.instanceId package ∧ new.packageId = package ∧
          restore = none) ∨
        ∃ id version, act = .rollback o id ∧ restore = some version ∧
          rollbackTarget w.db old.instanceId = some version ∧ new.packageId = version.previousPackageId)
      (row : w.db.row old.instanceId = some old) (running : old.state = .running)
      (loaded : loads o begun old.instanceId = some old)
      (named : ∀ id other, w.db.row id = some other →
        other.pendingUpgradeInstanceId = some old.instanceId → begun.db.row id = some other)
      (fresh : Fresh w new) (unused : begun.drawn ≤ new.instanceId)
      (replaces : Replaces old restore new)
      (made : Provisions o begun new.packageId (restore.elim old.settings (·.settings)) ∨
        ∃ inst, begun.db.row old.instanceId = some inst ∧
          inst.pendingUpgradeInstanceId.isSome = true) :
      Move begun act w { w with db := (w.db.put { old with
        state := .upgrading
        pendingUpgradeInstanceId := some new.instanceId }).add new }
  | rolledBack {w : World} {o : Outside} {old new : RAppInstance} {reason : Reason}
      (row : w.db.row old.instanceId = some old)
      (pending : old.pendingUpgradeInstanceId = some new.instanceId)
      (newRow : w.db.row new.instanceId = some new) : Move begun act w (rolled o w old new reason)
  | abandoned {w : World} {o : Outside} {old new : RAppInstance} {reason : Reason}
      (begunRow : begun.db.row old.instanceId = some old)
      (owner : ∃ id other, begun.db.row id = some other ∧
        other.pendingUpgradeInstanceId = some old.instanceId)
      (gone : w.db.row old.instanceId = none)
      (pending : old.pendingUpgradeInstanceId = some new.instanceId)
      (newRow : w.db.row new.instanceId = some new)
      (unnamed : ∀ id other, w.db.row id = some other →
        other.pendingUpgradeInstanceId ≠ some new.instanceId) :
      Move begun act w (rolled o w old new reason)
  | committed {w : World} {o : Outside} {old found new : RAppInstance}
      (is : act = .resolve o old.instanceId true) (row : w.db.row old.instanceId = some old)
      (pending : old.pendingUpgradeInstanceId = some found.instanceId)
      (newRow : w.db.row found.instanceId = some found)
      (ran : found.state = .running ∧ new = found ∨
        found.state = .deploying ∧ ∃ set, new = { found with state := .running, rappLimitsSet := set } ∧
          (((manifest found.packageId).declared = true → o.tells found = true) →
            Safe manifest w.platform found))
      (takes : Takes manifest o begun old found) (same : begun.db = w.db)
      (unnamed : ∀ id other, w.db.row id = some other →
        other.pendingUpgradeInstanceId ≠ some old.instanceId) :
      Move begun act w (replaced o w old new)
  | terminated {w : World} {o : Outside} {inst left : RAppInstance}
      (row : w.db.row inst.instanceId = some inst) (legal : inst.state ≠ .upgrading)
      (unowned : ∀ id other, w.db.row id = some other →
        other.pendingUpgradeInstanceId ≠ some inst.instanceId)
      (same : left.instanceId = inst.instanceId) (undeployed : left.state = .undeployed)
      (revoked : left.oauthClientId = none)
      (alone : left.pendingUpgradeInstanceId = inst.pendingUpgradeInstanceId)
      (is : act = .terminate o inst.instanceId)
      (plain : ∃ teardown usage, left = { inst with
        state := .undeployed, oauthClientId := none, lastTeardown := teardown
        packageUsageRegistrationId := usage }) :
      Move begun act w { w with
        db := w.db.put left
        platform := releaseInstanceResources o inst (terminateSideEffects o inst w.platform) }
  | deleted {w : World} {o : Outside} {inst : RAppInstance}
      (is : act = .delete o inst.instanceId) (row : w.db.row inst.instanceId = some inst)
      (undeployed : inst.state = .undeployed)
      (unnamed : ∀ id other, w.db.row id = some other →
        other.pendingUpgradeInstanceId ≠ some inst.instanceId) :
      Move begun act w { w with db := w.db.remove inst.instanceId }
  | configured {w : World} {caller : Caller} {inst : RAppInstance} {config : Json.Value}
      (is : act = .setConfig caller inst.instanceId config)
      (row : w.db.row inst.instanceId = some inst) :
      Move begun act w { w with db := w.db.put { inst with configuration := some config } }
  | stopped {w : World} {inst : RAppInstance} {client : ClientId}
      (row : w.db.row inst.instanceId = some inst) (id : inst.oauthClientId = some client) :
      Move begun act w { w with platform :=
        { w.platform with killed := Function.update w.platform.killed client true } }
  | lifted {w : World} {o : Outside} {inst : RAppInstance} {client : ClientId}
      (is : act = .liftKill o inst.instanceId ∧ loads o begun inst.instanceId = some inst ∨
        act = .resumeAll o ∧ o.reply .listKills = .done ∧ inst ∈ liveInstances begun.db ∧
          inst.oauthClientId.any begun.platform.killed = true)
      (row : w.db.row inst.instanceId = some inst) (id : inst.oauthClientId = some client)
      (applied : (o.reply (.deleteKill client)).applied = true) :
      Move begun act w { w with platform :=
        { w.platform with killed := Function.update w.platform.killed client false } }
  | refused {w : World} {o : Outside} {old new other : RAppInstance} {platform : Platform}
      {drawn : Nat} (is : act = .resolve o old.instanceId true) (same : begun.db = w.db)
      (takes : Takes manifest o begun old new)
      (row : w.db.row other.instanceId = some other)
      (names : other.pendingUpgradeInstanceId = some old.instanceId)
      (killed : platform.killed = w.platform.killed) (more : w.drawn ≤ drawn) :
      Move begun act w { w with platform, drawn }

end Moves

section Kept

variable {w w' : World} {inst left old new : RAppInstance}

theorem Wf.of_instances (wf : Wf w) (same : w'.db.instances = w.db.instances)
    (more : w.drawn ≤ w'.drawn) : Wf w' := by
  have rows : ∀ id, w'.db.row id = w.db.row id := fun id => by rw [Db.row, Db.row, same]
  refine ⟨same ▸ wf.distinct, ?_, ?_, ?_, ?_, ?_, ?_, ?_⟩ <;> simp only [rows]
  · exact fun id inst row => (wf.ids id inst row).trans_le more
  · exact fun id inst c row client => (wf.clients id inst c row client).trans_le more
  · exact wf.clientsOnce
  · exact wf.pendingThere
  · exact wf.owners
  · exact wf.apart
  · exact wf.upgrading

theorem Calls.wf (calls : Calls w w') (wf : Wf w) : Wf w' :=
  wf.of_instances (congrArg Db.instances calls.db) calls.drawn

theorem Wf.fits (wf : Wf w) (row : w.db.row inst.instanceId = some inst)
    (same : left.instanceId = inst.instanceId)
    (client : ∀ c, left.oauthClientId = some c → inst.oauthClientId = some c)
    (pending : ∀ next, left.pendingUpgradeInstanceId = some next →
      inst.pendingUpgradeInstanceId = some next)
    (upgrading : left.state = .upgrading ↔ left.pendingUpgradeInstanceId.isSome) : Fits w left where
  there := by
    rw [same, row]
    rfl
  client c is := by
    rw [same]
    exact ⟨wf.clients _ _ c row (client c is),
      fun id other there its => wf.clientsOnce _ _ _ _ c there row its (client c is)⟩
  pending next is := by
    rw [same]
    exact ⟨wf.pendingThere _ _ next row (pending next is),
      fun id other there its => wf.owners _ _ _ _ next there row its (pending next is)⟩
  apart is := by
    rw [same] at is
    exact wf.apart _ _ row (pending _ is)
  upgrading := upgrading

theorem Wf.alone (wf : Wf w) (row : w.db.row inst.instanceId = some inst)
    (state : inst.state ≠ .upgrading) : inst.pendingUpgradeInstanceId = none := by
  rw [← Option.not_isSome_iff_eq_none, ← wf.upgrading _ _ row]
  exact state

theorem Wf.moved (wf : Wf w) (row : w.db.row inst.instanceId = some inst)
    (state : inst.state ≠ .upgrading) (same : left.instanceId = inst.instanceId)
    (client : ∀ c, left.oauthClientId = some c → inst.oauthClientId = some c)
    (alone : left.pendingUpgradeInstanceId = inst.pendingUpgradeInstanceId)
    (next : left.state ≠ .upgrading) : Wf { w with db := w.db.put left } := by
  refine wf.put (wf.fits row same client (fun next is => alone ▸ is) ?_)
  rw [alone, wf.alone row state]
  simp [next]

theorem Wf.started (wf : Wf w) (row : w.db.row old.instanceId = some old) (fresh : Fresh w new) :
    Wf { w with db := (w.db.put { old with
      state := .upgrading
      pendingUpgradeInstanceId := some new.instanceId }).add new } := by
  have apart : old.instanceId ≠ new.instanceId := by
    intro same
    rw [same, fresh.absent] at row
    cases row
  have added : (w.db.add new).row old.instanceId = some old := by
    rw [Db.row_add fresh.absent, if_neg apart.symm]
    exact row
  have swap := @Db.put_add w.db
    { old with state := .upgrading, pendingUpgradeInstanceId := some new.instanceId } new apart
  rw [← swap]
  have more := wf.add fresh
  refine more.put ⟨?_, ?_, ?_, fun same => apart (Option.some.inj same).symm, by simp⟩
  · show ((w.db.add new).row old.instanceId).isSome = true
    rw [added]
    rfl
  · intro c client
    exact ⟨more.clients _ _ c added client,
      fun id other there its => more.clientsOnce _ _ _ _ c there added its client⟩
  · intro next is
    obtain rfl := Option.some.inj is
    refine ⟨?_, fun id other there its => ?_⟩
    · show ((w.db.add new).row new.instanceId).isSome = true
      rw [Db.row_add fresh.absent, if_pos rfl]
      rfl
    · rcases row_add_cases fresh there with ⟨rfl, rfl⟩ | ⟨-, before⟩
      · rw [fresh.alone] at its
        cases its
      · have there := wf.pendingThere _ _ _ before its
        rw [fresh.absent] at there
        cases there

theorem Wf.rolled (wf : Wf w) {o : Outside} {reason : Reason}
    (row : w.db.row old.instanceId = some old)
    (pending : old.pendingUpgradeInstanceId = some new.instanceId) : Wf (rolled o w old new reason) := by
  have back : Wf { w with db := w.db.put (backAgain o old (some new) reason) } :=
    wf.put (wf.fits row rfl (fun c client => client) nofun (by simp [backAgain]))
  refine (back.remove fun id other _ there names => ?_).of_instances rfl (Nat.le_refl _)
  rcases row_put_cases there with ⟨rfl, rfl⟩ | ⟨apart, before⟩
  · cases names
  · exact apart (wf.owners _ _ _ _ _ before row names pending)

theorem row_put_gone {id : InstanceId} (gone : w.db.row inst.instanceId = none) :
    (w.db.put inst).row id = w.db.row id := by
  rw [Db.row_put]
  split_ifs with same
  · rw [← same, gone]
    rfl
  · rfl

theorem Wf.abandoned (wf : Wf w) {o : Outside} {reason : Reason}
    (gone : w.db.row old.instanceId = none)
    (unnamed : ∀ id other, w.db.row id = some other →
      other.pendingUpgradeInstanceId ≠ some new.instanceId) : Wf (RappMgmt.rolled o w old new reason) := by
  have same : ∀ id, (w.db.put (backAgain o old (some new) reason)).row id = w.db.row id :=
    fun id => row_put_gone gone
  have put : Wf { w with db := w.db.put (backAgain o old (some new) reason) } := by
    refine ⟨distinct_put wf.distinct, ?_, ?_, ?_, ?_, ?_, ?_, ?_⟩ <;> simp only [same]
    · exact wf.ids
    · exact wf.clients
    · exact wf.clientsOnce
    · exact wf.pendingThere
    · exact wf.owners
    · exact wf.apart
    · exact wf.upgrading
  refine (put.remove fun id other _ there => ?_).of_instances rfl (Nat.le_refl _)
  exact unnamed id other ((same id).symm.trans there)

theorem Wf.replaced (wf : Wf w) {o : Outside} (row : w.db.row new.instanceId = some inst)
    (client : new.oauthClientId = inst.oauthClientId) (state : new.state = .running)
    (alone : new.pendingUpgradeInstanceId = none)
    (unnamed : ∀ id other, w.db.row id = some other →
      other.pendingUpgradeInstanceId ≠ some old.instanceId) : Wf (replaced o w old new) := by
  have is : inst.instanceId = new.instanceId := Db.row_id row
  have put : Wf { w with
      db := (w.db.put { new with lastTeardown := some (released o old .upgradeCommit) }) } := by
    refine wf.put (wf.fits (is.symm ▸ row) is.symm (fun c its => client ▸ its) ?_ ?_)
    · intro next its
      rw [show new.pendingUpgradeInstanceId = none from alone] at its
      cases its
    · simp [state, alone]
  have removed := @Wf.remove _ put old.instanceId fun id other _ there names => by
    rcases row_put_cases there with ⟨rfl, rfl⟩ | ⟨-, before⟩
    · cases alone.symm.trans names
    · exact unnamed _ _ before names
  refine removed.of_instances ?_ (Nat.le_succ _)
  simp only [RappMgmt.replaced, Db.remove, recordVersion]
  split <;> rfl

theorem Move.wf {manifest : PackageId → RappLimits} {begun : World} {act : Act}
    (move : Move manifest begun act w w') (wf : Wf w) : Wf w' := by
  cases move with
  | calls calls => exact calls.wf wf
  | passed time is => exact wf.of_instances rfl (Nat.le_refl _)
  | created inst fresh unused plain => exact wf.add fresh
  | rotated is row loaded issued deploying drawn fresh =>
    have alone := wf.alone row (by simp [deploying])
    refine wf.put ⟨by simp [row], fun c client => ?_, fun next its => ?_, by simp [alone],
      by simp [deploying, alone]⟩
    · obtain rfl := Option.some.inj client
      exact ⟨drawn, fun id other there its => absurd its (fresh id other there)⟩
    · cases alone.symm.trans its
  | bootstrapped is row deploying loaded took safe =>
    exact wf.moved row (by simp [deploying]) rfl (fun _ its => its) rfl (by simp)
  | recovered is row faulted =>
    exact wf.moved row (by simp [faulted]) rfl (fun _ its => its) rfl (by simp)
  | @crashed o caller inst is row running own loaded =>
    have moved : Wf { w with db := w.db.put { inst with state := .faulted } } :=
      wf.moved row (by simp [running]) rfl (fun _ its => its) rfl (by simp)
    exact moved.of_instances rfl (Nat.le_refl _)
  | started is row running loaded named fresh unused replaces made => exact wf.started row fresh
  | rolledBack row pending newRow => exact wf.rolled row pending
  | abandoned begunRow owner gone pending newRow unnamed => exact wf.abandoned gone unnamed
  | @committed o old found new is row pending newRow ran takes same unnamed =>
    have alone : found.pendingUpgradeInstanceId = none :=
      wf.alone newRow (by rcases ran with ⟨state, -⟩ | ⟨state, -⟩ <;> simp [state])
    rcases ran with ⟨running, rfl⟩ | ⟨deploying, set, rfl, -⟩
    · exact wf.replaced newRow rfl running alone unnamed
    · exact wf.replaced newRow rfl rfl alone unnamed
  | terminated row legal unowned same undeployed revoked alone is plain =>
    refine (wf.moved row legal same (fun c its => ?_) alone (by simp [undeployed])).of_instances
      rfl (Nat.le_refl _)
    rw [revoked] at its
    cases its
  | deleted is row undeployed unnamed => exact wf.remove fun id other _ there => unnamed id other there
  | configured is row =>
    have same := wf.upgrading _ _ row
    exact wf.put (wf.fits row rfl (fun _ its => its) (fun _ its => its) same)
  | stopped row id => exact wf.of_instances rfl (Nat.le_refl _)
  | lifted is row id applied => exact wf.of_instances rfl (Nat.le_refl _)
  | refused is same takes row names killed more => exact wf.of_instances rfl more

end Kept

end Smo.RappMgmt
