import Smo.RappMgmt.Stops

/-! The approval policy and the limits that RAN NF OAM holds for an instance, over runs. A crash
removes them and leaves the credential, and a bootstrap while Onboarding does not tell about the
package does not set the limits. -/
namespace Smo.RappMgmt

open Runs

section Safeguards

variable (manifest : PackageId → RappLimits)

def Safeguarded (inst : RAppInstance) : Prop :=
  inst.approvalPolicy.isSome = true ∨ (manifest inst.packageId).declared = true

/-- A request does not crash a safeguarded instance, gives an instance of a package that declares
limits its bootstrap only while Onboarding tells about the package, and commits no upgrade of an
instance that is itself a pending replacement. -/
def Forces (w : World) : Act → Prop
  | .reportFault o caller id true => ∀ inst, loads o w id = some inst → inst.state = .running →
      (∀ client, caller = some client → inst.oauthClientId = some client) →
        ¬Safeguarded manifest inst
  | .bootstrapComplete o _ id => ∀ inst, loads o w id = some inst → inst.state = .deploying →
      (∃ left s, onBootstrap manifest o inst w = .ok left s) →
        (manifest inst.packageId).declared = true → o.tells inst = true
  | .resolve o id true => ∀ old new, Takes manifest o w old new → old.instanceId = id →
      ¬Named w id ∧ (new.state = .deploying → (manifest new.packageId).declared = true →
        o.tells new = true)
  | _ => True

def HasRun (trace : List (Runs.Step World Act)) (w : World) (id : InstanceId) : Prop :=
  ∃ s, (s = w ∨ ∃ t ∈ trace, t.before = s) ∧ ∃ inst, s.db.row id = some inst ∧ inst.state = .running

/-- RAN NF OAM holds the safeguards of every instance that has been RUNNING and whose invoker is
registered. -/
def InForce (trace : List (Runs.Step World Act)) (w : World) : Prop :=
  ∀ id inst client, HasRun trace w id → w.db.row id = some inst →
    inst.oauthClientId = some client → client ∈ w.platform.invokers → Safe manifest w.platform inst

structure Guarded (w : World) : Prop where
  wf : Wf w
  safe : ∀ id inst client, w.db.row id = some inst → inst.oauthClientId = some client →
    Safeguarded manifest inst → inst.state ≠ .deploying → Safe manifest w.platform inst
  well : ∀ id inst, w.db.row id = some inst → Safeguarded manifest inst → inst.state ≠ .faulted

end Safeguards

section Platforms

variable {manifest : PackageId → RappLimits} {o : Outside} {inst left : RAppInstance}
  {p p' p'' : Platform} {client : ClientId}

/-- What RAN NF OAM holds under other invoker ids than an instance's is left alone. -/
structure Spares (inst : RAppInstance) (p p' : Platform) : Prop where
  limits : ∀ client, inst.oauthClientId ≠ some client →
    p'.limits (some client) = p.limits (some client)
  policies : ∀ client, inst.oauthClientId ≠ some client →
    p'.approvalPolicies (some client) = p.approvalPolicies (some client)

theorem Spares.trans (first : Spares inst p p') (later : Spares inst p' p'') : Spares inst p p'' where
  limits client apart := (later.limits client apart).trans (first.limits client apart)
  policies client apart := (later.policies client apart).trans (first.policies client apart)

theorem reconsiderRappLimits_spares : Spares inst p (reconsiderRappLimits o inst p) := by
  constructor <;> intro client apart <;> simp only [reconsiderRappLimits]
  · split
    · rfl
    · next holds =>
      rw [holds] at apart
      split_ifs
      · exact Function.update_of_ne (Ne.symm apart) _ _
      · rfl
  · split
    · rfl
    · split_ifs <;> rfl

theorem reconsiderApprovalPolicy_spares : Spares inst p (reconsiderApprovalPolicy o inst p) := by
  constructor <;> intro client apart <;> simp only [reconsiderApprovalPolicy]
  · split
    · rfl
    · split_ifs <;> rfl
  · split
    · rfl
    · next holds =>
      rw [holds] at apart
      split_ifs
      · exact Function.update_of_ne (Ne.symm apart) _ _
      · rfl

theorem reconsiderRegistrations_spares : Spares inst p (reconsiderRegistrations o inst p) :=
  reconsiderRappLimits_spares.trans reconsiderApprovalPolicy_spares

theorem teardown_spares :
    Spares inst p (releaseInstanceResources o inst (terminateSideEffects o inst p)) := by
  obtain ⟨-, limits, policies, -⟩ :=
    releaseInstanceResources_apart o inst (terminateSideEffects o inst p)
  have revoked : ∀ p, Spares inst p (revokeCredential o inst p) := by
    intro p
    simp only [revokeCredential, deleteInvoker]
    split
    · exact ⟨fun _ _ => rfl, fun _ _ => rfl⟩
    · split_ifs <;> exact ⟨fun _ _ => rfl, fun _ _ => rfl⟩
  have torn := (@reconsiderRegistrations_spares o inst p).trans (revoked _)
  exact ⟨fun client apart => limits ▸ torn.limits client apart,
    fun client apart => policies ▸ torn.policies client apart⟩

theorem Safe.same (safe : Safe manifest p inst) (client : left.oauthClientId = inst.oauthClientId)
    (package : left.packageId = inst.packageId) (policy : left.approvalPolicy = inst.approvalPolicy)
    (limits : p'.limits inst.oauthClientId = p.limits inst.oauthClientId)
    (policies : p'.approvalPolicies inst.oauthClientId = p.approvalPolicies inst.oauthClientId) :
    Safe manifest p' left where
  limits declared := by
    rw [client, limits, package]
    exact safe.limits (package ▸ declared)
  policy wanted is := by
    rw [client, policies]
    exact safe.policy wanted (policy ▸ is)

theorem Safe.spared (safe : Safe manifest p left) (spares : Spares inst p p')
    (holds : left.oauthClientId = some client) (apart : inst.oauthClientId ≠ some client) :
    Safe manifest p' left :=
  safe.same rfl rfl rfl (holds ▸ spares.limits client apart) (holds ▸ spares.policies client apart)

end Platforms

section Moves

variable {manifest : PackageId → RappLimits} {begun s s' : World} {act : Act}
  {inst found before : RAppInstance} {id : InstanceId}

structure AsBefore (s s' : World) (before found : RAppInstance) : Prop where
  client : found.oauthClientId = before.oauthClientId
  package : found.packageId = before.packageId
  policy : found.approvalPolicy = before.approvalPolicy
  deploying : before.state = .deploying → found.state = .deploying
  faulted : found.state = .faulted → before.state = .faulted
  held : ∀ client, found.oauthClientId = some client → found.state ≠ .deploying →
    s'.platform.limits (some client) = s.platform.limits (some client) ∧
      s'.platform.approvalPolicies (some client) = s.platform.approvalPolicies (some client)

theorem AsBefore.of_same (limits : s'.platform.limits = s.platform.limits)
    (policies : s'.platform.approvalPolicies = s.platform.approvalPolicies)
    (client : found.oauthClientId = before.oauthClientId)
    (package : found.packageId = before.packageId)
    (policy : found.approvalPolicy = before.approvalPolicy)
    (deploying : before.state = .deploying → found.state = .deploying)
    (faulted : found.state = .faulted → before.state = .faulted) : AsBefore s s' before found :=
  ⟨client, package, policy, deploying, faulted, fun _ _ _ => ⟨by rw [limits], by rw [policies]⟩⟩

theorem AsBefore.spared (wf : Wf s) {torn : RAppInstance}
    (tornRow : s.db.row torn.instanceId = some torn) (row : s.db.row id = some before)
    (apart : id ≠ torn.instanceId) (spares : Spares torn s.platform s'.platform)
    (client : found.oauthClientId = before.oauthClientId)
    (package : found.packageId = before.packageId)
    (policy : found.approvalPolicy = before.approvalPolicy)
    (deploying : before.state = .deploying → found.state = .deploying)
    (faulted : found.state = .faulted → before.state = .faulted) :
    AsBefore s s' before found := by
  refine ⟨client, package, policy, deploying, faulted, fun c holds _ => ?_⟩
  have other : torn.oauthClientId ≠ some c := fun its =>
    apart (wf.clientsOnce _ _ _ _ c row tornRow (client ▸ holds) its)
  exact ⟨spares.limits c other, spares.policies c other⟩

theorem Guarded.of_rows (guarded : Guarded manifest s) (wf : Wf s')
    (rows : ∀ id found, s'.db.row id = some found →
      (∃ before, s.db.row id = some before ∧ AsBefore s s' before found) ∨
        found.state = .deploying ∨ found.oauthClientId = none ∧ found.state ≠ .faulted ∨
        ¬Safeguarded manifest found ∨ found.state = .running ∧ Safe manifest s'.platform found) :
    Guarded manifest s' where
  wf := wf
  safe id found client row holds guards state := by
    rcases rows id found row with ⟨before, was, same⟩ | deploying | ⟨none, -⟩ | not | ⟨-, safe⟩
    · have held := same.held client holds state
      have wasHeld := same.client ▸ holds
      have guards : Safeguarded manifest before := by
        rwa [Safeguarded, ← same.policy, ← same.package]
      refine (guarded.safe id before client was wasHeld guards fun is => state (same.deploying is)).same
        same.client same.package same.policy ?_ ?_
      · rw [wasHeld]
        exact held.1
      · rw [wasHeld]
        exact held.2
    · exact absurd deploying state
    · cases none.symm.trans holds
    · exact absurd guards not
    · exact safe
  well id found row guards faulted := by
    rcases rows id found row with ⟨before, was, same⟩ | deploying | ⟨-, well⟩ | not | ⟨running, -⟩
    · refine guarded.well id before was ?_ (same.faulted faulted)
      rwa [Safeguarded, ← same.policy, ← same.package]
    · cases deploying.symm.trans faulted
    · exact well faulted
    · exact not guards
    · cases running.symm.trans faulted

theorem Guarded.committed {o : Outside} {old new found : RAppInstance} (guarded : Guarded manifest s)
    (wf : Wf (replaced o s old new)) (forces : Forces manifest begun act)
    (is : act = .resolve o old.instanceId true) (row : s.db.row old.instanceId = some old)
    (newRow : s.db.row found.instanceId = some found) (takes : Takes manifest o begun old found)
    (ran : found.state = .running ∧ new = found ∨ found.state = .deploying ∧
      ∃ set, new = { found with state := .running, rappLimitsSet := set } ∧
        (((manifest found.packageId).declared = true → o.tells found = true) →
          Safe manifest s.platform found)) : Guarded manifest (replaced o s old new) := by
  subst is
  refine guarded.of_rows wf fun id kept there => ?_
  obtain ⟨apart, ⟨rfl, rfl⟩ | ⟨-, before⟩⟩ := replaced_row there
  · rcases ran with ⟨running, rfl⟩ | ⟨deploying, set, rfl, safe⟩
    · exact .inl ⟨new, newRow, .spared guarded.wf row newRow apart teardown_spares rfl rfl rfl
        (fun is => is) fun is => is⟩
    · rcases Option.eq_none_or_eq_some found.oauthClientId with holds | ⟨client, holds⟩
      · exact .inr (.inr (.inl ⟨holds, by simp⟩))
      · have safe := safe ((forces old found takes rfl).2 deploying)
        have other : old.oauthClientId ≠ some client := fun its =>
          apart (guarded.wf.clientsOnce _ _ _ _ client newRow row holds its)
        have spared := safe.spared (@teardown_spares o old s.platform) holds other
        exact .inr (.inr (.inr (.inr ⟨rfl, spared.same rfl rfl rfl rfl rfl⟩)))
  · exact .inl ⟨kept, before, .spared guarded.wf row before apart teardown_spares rfl rfl rfl
      (fun is => is) fun is => is⟩

theorem Guarded.move (guarded : Guarded manifest s) (forces : Forces manifest begun act)
    (move : Move manifest begun act s s') : Guarded manifest s' := by
  have wf := move.wf guarded.wf
  have stays : s'.platform.limits = s.platform.limits →
      s'.platform.approvalPolicies = s.platform.approvalPolicies → ∀ {id found},
      s.db.row id = some found → ∃ before, s.db.row id = some before ∧ AsBefore s s' before found :=
    fun limits policies _ found row => ⟨found, row, .of_same limits policies rfl rfl rfl
      (fun is => is) fun is => is⟩
  cases move with
  | calls calls =>
    refine guarded.of_rows wf fun id found row => ?_
    rw [calls.db] at row
    refine .inl ⟨found, row, rfl, rfl, rfl, fun is => is, fun is => is, fun client holds state => ?_⟩
    have others : ∀ id inst, s.db.row id = some inst → inst.oauthClientId = some client →
        inst.state ≠ .deploying := by
      intro id' inst row' its
      obtain rfl := guarded.wf.clientsOnce _ _ _ _ client row row' holds its
      obtain rfl := Option.some.inj (row.symm.trans row')
      exact state
    exact ⟨calls.limits client others, calls.policies client others⟩
  | passed | stopped | lifted =>
    exact guarded.of_rows wf fun id found row => .inl (stays rfl rfl row)
  | created inst fresh unused plain =>
    refine guarded.of_rows wf fun id found row => ?_
    rcases row_add_cases fresh row with ⟨rfl, rfl⟩ | ⟨-, before⟩
    · exact .inr (.inl fresh.deploying)
    · exact .inl (stays rfl rfl before)
  | rotated is there loaded issued deploying drawn fresh =>
    refine guarded.of_rows wf fun id found row => ?_
    rcases row_put_cases row with ⟨rfl, rfl⟩ | ⟨-, before⟩
    · exact .inr (.inl deploying)
    · exact .inl (stays rfl rfl before)
  | bootstrapped is there deploying loaded took safe =>
    subst is
    refine guarded.of_rows wf fun id found row => ?_
    rcases row_put_cases row with ⟨rfl, rfl⟩ | ⟨-, before⟩
    · have safe := safe (forces _ loaded deploying took)
      exact .inr (.inr (.inr (.inr ⟨rfl, safe.same rfl rfl rfl rfl rfl⟩)))
    · exact .inl (stays rfl rfl before)
  | recovered is there faulted =>
    refine guarded.of_rows wf fun id found row => ?_
    rcases row_put_cases row with ⟨rfl, rfl⟩ | ⟨-, before⟩
    · exact .inr (.inl rfl)
    · exact .inl (stays rfl rfl before)
  | @crashed o caller inst is there running own loaded =>
    subst is
    refine guarded.of_rows wf fun id found row => ?_
    rcases row_put_cases row with ⟨rfl, rfl⟩ | ⟨apart, before⟩
    · exact .inr (.inr (.inr (.inl (forces inst loaded running own))))
    · exact .inl ⟨found, before, .spared guarded.wf there before apart
        reconsiderRegistrations_spares rfl rfl rfl (fun is => is) fun is => is⟩
  | @started o old new restore is there running loaded named fresh unused replaces made =>
    refine guarded.of_rows wf fun id found row => ?_
    rcases started_row fresh row with ⟨rfl, rfl⟩ | ⟨rfl, rfl⟩ | ⟨-, before⟩
    · exact .inr (.inl fresh.deploying)
    · exact .inl ⟨old, there, .of_same rfl rfl rfl rfl rfl (by simp [running]) nofun⟩
    · exact .inl (stays rfl rfl before)
  | @rolledBack o old new reason there pending newRow =>
    have upgrading := (guarded.wf.upgrading _ _ there).mpr (by simp [pending])
    refine guarded.of_rows wf fun id found row => ?_
    obtain ⟨apart, ⟨rfl, rfl⟩ | ⟨-, before⟩⟩ := rolled_row row
    · exact .inl ⟨old, there, .spared guarded.wf newRow there apart teardown_spares rfl rfl rfl
        (by simp [upgrading]) nofun⟩
    · exact .inl ⟨found, before, .spared guarded.wf newRow before apart teardown_spares rfl rfl rfl
        (fun is => is) fun is => is⟩
  | abandoned begunRow owner gone pending newRow unnamed =>
    refine guarded.of_rows wf fun id found row => ?_
    obtain ⟨apart, before⟩ := abandoned_row gone row
    exact .inl ⟨found, before, .spared guarded.wf newRow before apart teardown_spares rfl rfl rfl
      (fun is => is) fun is => is⟩
  | committed is there pending newRow ran takes same unnamed =>
    exact guarded.committed wf forces is there newRow takes ran
  | @terminated o inst left there legal unowned same undeployed revoked alone is plain =>
    refine guarded.of_rows wf fun id found row => ?_
    rcases row_put_cases row with ⟨rfl, rfl⟩ | ⟨apart, before⟩
    · exact .inr (.inr (.inl ⟨revoked, by simp [undeployed]⟩))
    · exact .inl ⟨found, before, .spared guarded.wf there before (same ▸ apart) teardown_spares rfl
        rfl rfl (fun is => is) fun is => is⟩
  | deleted is there undeployed unnamed =>
    exact guarded.of_rows wf fun id found row => .inl (stays rfl rfl (row_remove_some row).2)
  | configured is there =>
    refine guarded.of_rows wf fun id found row => ?_
    rcases row_put_cases row with ⟨rfl, rfl⟩ | ⟨-, before⟩
    · exact .inl ⟨_, there, .of_same rfl rfl rfl rfl rfl (fun is => is) fun is => is⟩
    · exact .inl (stays rfl rfl before)
  | refused is same takes row names killed more =>
    subst is
    exact absurd ⟨_, _, same ▸ row, names⟩ (forces _ _ takes rfl).1

theorem Move.deploying (move : Move manifest begun act s s') (guarded : Guarded manifest s)
    (row : s'.db.row id = some found) (is : found.state = .deploying)
    (guards : Safeguarded manifest found) : begun.drawn ≤ id ∨
      ∃ before, s.db.row id = some before ∧ before.state = .deploying ∧
        Safeguarded manifest before := by
  cases move with
  | calls calls => exact .inr ⟨found, calls.db ▸ row, is, guards⟩
  | passed | stopped | lifted | refused => exact .inr ⟨found, row, is, guards⟩
  | created inst fresh unused plain =>
    rcases row_add_cases fresh row with ⟨rfl, rfl⟩ | ⟨-, before⟩
    · exact .inl unused
    · exact .inr ⟨found, before, is, guards⟩
  | rotated is' there loaded issued deploying drawn fresh =>
    rcases row_put_cases row with ⟨rfl, rfl⟩ | ⟨-, before⟩
    · exact .inr ⟨_, there, deploying, guards⟩
    · exact .inr ⟨found, before, is, guards⟩
  | recovered is' there faulted =>
    rcases row_put_cases row with ⟨rfl, rfl⟩ | ⟨-, before⟩
    · exact absurd faulted (guarded.well _ _ there guards)
    · exact .inr ⟨found, before, is, guards⟩
  | configured is' there =>
    rcases row_put_cases row with ⟨rfl, rfl⟩ | ⟨-, before⟩
    · exact .inr ⟨_, there, is, guards⟩
    · exact .inr ⟨found, before, is, guards⟩
  | bootstrapped | crashed =>
    rcases row_put_cases row with ⟨rfl, rfl⟩ | ⟨-, before⟩
    · cases is
    · exact .inr ⟨found, before, is, guards⟩
  | terminated there legal unowned same undeployed revoked alone is' plain =>
    rcases row_put_cases row with ⟨rfl, rfl⟩ | ⟨-, before⟩
    · cases undeployed.symm.trans is
    · exact .inr ⟨found, before, is, guards⟩
  | started _ there running loaded named fresh unused replaces made =>
    rcases started_row fresh row with ⟨rfl, rfl⟩ | ⟨rfl, rfl⟩ | ⟨-, before⟩
    · exact .inl unused
    · cases is
    · exact .inr ⟨found, before, is, guards⟩
  | rolledBack there pending newRow =>
    obtain ⟨-, ⟨rfl, rfl⟩ | ⟨-, before⟩⟩ := rolled_row row
    · cases is
    · exact .inr ⟨found, before, is, guards⟩
  | abandoned begunRow owner gone pending newRow unnamed =>
    exact .inr ⟨found, (abandoned_row gone row).2, is, guards⟩
  | committed is' there pending newRow ran takes same unnamed =>
    obtain ⟨-, ⟨rfl, rfl⟩ | ⟨-, before⟩⟩ := replaced_row row
    · rcases ran with ⟨running, rfl⟩ | ⟨-, set, rfl, -⟩
      · cases running.symm.trans is
      · cases is
    · exact .inr ⟨found, before, is, guards⟩
  | deleted is' there undeployed unnamed =>
    exact .inr ⟨found, (row_remove_some row).2, is, guards⟩

theorem Guarded.path (guarded : Guarded manifest begun) (forces : Forces manifest begun act)
    (path : Path manifest begun act begun s) : Guarded manifest s ∧
      ∀ id found, s.db.row id = some found → found.state = .deploying →
        Safeguarded manifest found → begun.drawn ≤ id ∨
          ∃ before, begun.db.row id = some before ∧ before.state = .deploying ∧
            Safeguarded manifest before := by
  induction path with
  | refl => exact ⟨guarded, fun _ found row is guards => .inr ⟨found, row, is, guards⟩⟩
  | tail _ move ih =>
    obtain ⟨earlier, deploying⟩ := ih
    refine ⟨earlier.move forces move, fun id found row is guards => ?_⟩
    rcases move.deploying earlier row is guards with late | ⟨before, was, wasIs, wasGuards⟩
    · exact .inl late
    · exact deploying id before was wasIs wasGuards

end Moves

section Runs

variable {manifest : PackageId → RappLimits} {start w w' : World} {act : Act}

structure Ran (manifest : PackageId → RappLimits) (trace : List (Runs.Step World Act)) (w : World) :
    Prop where
  guarded : Guarded manifest w
  early : ∀ id, HasRun trace w id → id < w.drawn
  settled : ∀ id inst, HasRun trace w id → w.db.row id = some inst → Safeguarded manifest inst →
    inst.state ≠ .deploying

theorem hasRun_snoc {trace : List (Runs.Step World Act)} {id : InstanceId}
    (ran : HasRun (trace ++ [⟨w, act, w'⟩]) w' id) :
    HasRun trace w id ∨ ∃ inst, w'.db.row id = some inst ∧ inst.state = .running := by
  obtain ⟨s, rfl | ⟨t, mem, rfl⟩, running⟩ := ran
  · exact .inr running
  · rcases List.mem_append.mp mem with earlier | last
    · exact .inl ⟨_, .inr ⟨t, earlier, rfl⟩, running⟩
    · obtain rfl := List.mem_singleton.mp last
      exact .inl ⟨w, .inl rfl, running⟩

theorem Ran.step {trace : List (Runs.Step World Act)} (ran : Ran manifest trace w)
    (forces : Forces manifest w act) (step : Step manifest w act w') :
    Ran manifest (trace ++ [⟨w, act, w'⟩]) w' := by
  subst step
  have path := @after_path manifest w ran.guarded.wf act
  obtain ⟨guarded, deploying⟩ := ran.guarded.path forces path
  refine ⟨guarded, fun id has => ?_, fun id inst has row guards is => ?_⟩
  · rcases hasRun_snoc has with before | ⟨inst, row, -⟩
    · exact (ran.early id before).trans_le path.drawn
    · exact guarded.wf.ids _ _ row
  · rcases hasRun_snoc has with before | ⟨inst', row', running⟩
    · rcases deploying id inst row is guards with late | ⟨was, wasRow, wasIs, wasGuards⟩
      · exact absurd (ran.early id before) (Nat.not_lt.mpr late)
      · exact ran.settled id was before wasRow wasGuards wasIs
    · obtain rfl := Option.some.inj (row.symm.trans row')
      cases running.symm.trans is

theorem Ran.inForce {trace : List (Runs.Step World Act)} (ran : Ran manifest trace w) :
    InForce manifest trace w := by
  intro id inst client has row holds _
  by_cases guards : Safeguarded manifest inst
  · exact ran.guarded.safe id inst client row holds guards (ran.settled id inst has row guards)
  · simp only [Safeguarded, not_or, Bool.not_eq_true, Option.isSome_eq_false_iff,
      Option.isNone_iff_eq_none] at guards
    refine ⟨fun declared => ?_, fun policy is => ?_⟩
    · simp [guards.2] at declared
    · cases guards.1.symm.trans is

/-- In every run in which no safeguarded instance is crashed, no instance of a package that declares
limits bootstraps while Onboarding does not tell about the package, and no upgrade of a pending
replacement is committed: RAN NF OAM holds the approval policy and the limits of every instance that
has been RUNNING and whose invoker is registered, under its invoker id. -/
theorem safeguards_in_force {trace : List (Runs.Step World Act)} (empty : start.db = {})
    (run : Run (Step manifest) start trace w)
    (forces : ∀ t ∈ trace, Forces manifest t.before t.label) : InForce manifest trace w := by
  have none : ∀ id, start.db.row id = Option.none := fun id => by rw [empty]; rfl
  have init : Ran manifest [] start := by
    have unrun : ∀ id, ¬HasRun [] start id := by
      rintro id ⟨s, rfl | ⟨t, mem, -⟩, inst, row, -⟩
      · cases (none id).symm.trans row
      · cases mem
    refine ⟨⟨(Paired.empty empty).wf, fun id inst client row => ?_, fun id inst row => ?_⟩,
      fun id has => absurd has (unrun id), fun id inst has => absurd has (unrun id)⟩
    · cases (none id).symm.trans row
    · cases (none id).symm.trans row
  refine (run.invariant_of_guarded_history (Ran manifest) (fun _ w act => Forces manifest w act) init
    (fun _ _ _ _ ran forces step => ran.step forces step) ?_).inForce
  rintro earlier t later rfl
  exact forces t (by simp)

end Runs

section Example

def assisted : CreateInstanceRequest where
  packageId := 1
  autonomyMode := .assist
  approvalPolicy := some { requiredApprovals := 2 }

def limited : PackageId → RappLimits := fun packageId =>
  if packageId = 2 then { maxConfigJobsPerHour := some 10 } else {}

def faulty : List Act :=
  [.create calm assisted, .bootstrapComplete calm (some 1) 0, .reportFault calm (some 1) 0 true]

def assistedUpgrade : List Act :=
  [.create calm assisted, .bootstrapComplete calm (some 1) 0, .upgrade calm 0 2,
    .resolve calm 0 true]

/-- After the fault the invoker is registered and its approval policy is gone. -/
theorem faulty_unguarded : ¬ ∀ (start w : World) (trace : List (Runs.Step World Act)),
    start.db = {} → Run (Step limited) start trace w → InForce limited trace w := by
  intro holds
  have run := @run_follow _ _ (Step limited) (after limited) {} faulty fun _ _ _ => rfl
  have ran : HasRun (stepsOf (after limited) {} faulty) (faulty.foldl (after limited) {}) 0 :=
    ⟨_, .inr ⟨_, List.mem_of_getLast? (by rfl), rfl⟩, _, rfl, rfl⟩
  have safe := holds {} _ _ rfl run 0 _ 1 ran rfl rfl (by decide)
  obtain ⟨held, is, -⟩ := safe.policy _ rfl
  cases is

theorem assistedUpgrade_inForce : InForce limited (stepsOf (after limited) {} assistedUpgrade)
    (assistedUpgrade.foldl (after limited) {}) := by
  refine safeguards_in_force rfl (run_follow fun _ _ _ => rfl) fun t mem => ?_
  simp only [assistedUpgrade, stepsOf, List.mem_cons, List.not_mem_nil, or_false] at mem
  rcases mem with rfl | rfl | rfl | rfl
  · trivial
  · exact fun inst _ _ _ _ => rfl
  · trivial
  · exact fun old new _ _ => ⟨not_named rfl, fun _ _ => rfl⟩

end Example

end Smo.RappMgmt
