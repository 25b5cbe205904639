import Smo.RappMgmt.Moves

/-! The requests of rApp Management are moves, whatever the other modules answer and wherever a
request fails. -/
namespace Smo.RappMgmt

open Transaction

/-- From `w` a request answers with `post`, or fails with `raises`; the database refuses one of its
writes only when `stuck`. -/
def Leads {α : Type} (stuck : Prop) (w : World) (x : Request α) (post : α → World → Prop)
    (raises : World → Prop) : Prop :=
  Answers (· = w) x post fun failure s => raises s ∧ (failure = .integrity → stuck)

section Rules

variable {α β : Type} {w : World} {x y : Request α} {f : α → Request β} {post : α → World → Prop}
  {raises raises' : World → Prop} {stuck : Prop}

theorem Leads.weaken {post' : α → World → Prop} (h : Leads stuck w x post raises)
    (weaker : ∀ value s, post value s → post' value s) (raised : ∀ s, raises s → raises' s) :
    Leads stuck w x post' raises' :=
  Answers.weaken h (fun _ same => same) weaker fun _ s holds => ⟨raised s holds.1, holds.2⟩

theorem Leads.because {why : Prop} (h : Leads why w x post raises) (so : why → stuck) :
    Leads stuck w x post raises :=
  Answers.weaken h (fun _ same => same) (fun _ _ holds => holds)
    fun _ _ holds => ⟨holds.1, fun integrity => so (holds.2 integrity)⟩

theorem Leads.sure (h : Leads False w x post raises) : Leads stuck w x post raises :=
  Answers.weaken h (fun _ same => same) (fun _ _ holds => holds)
    fun _ _ holds => ⟨holds.1, fun integrity => (holds.2 integrity).elim⟩

theorem Leads.exactly (h : Leads stuck w x post raises) :
    Leads stuck w x (fun value s => post value s ∧ x w = .ok value s) raises := by
  rintro w rfl
  have ended := h w rfl
  cases is : x w with
  | ok value s =>
    rw [is] at ended
    exact ⟨ended, rfl⟩
  | error failure s =>
    rw [is] at ended
    exact ended

theorem Leads.ite {p : Prop} [Decidable p] (yes : p → Leads stuck w x post raises)
    (no : ¬p → Leads stuck w y post raises) : Leads stuck w (if p then x else y) post raises := by
  split
  next holds => exact yes holds
  next fails => exact no fails

theorem follow {mid : α → World → Prop} {post : β → World → Prop}
    (first : Leads stuck w x mid raises)
    (rest : ∀ value s, mid value s → Leads stuck s (f value) post raises) :
    Leads stuck w (x >>= f) post raises :=
  Answers.bind first fun value s holds => rest value s holds s rfl

theorem reads {f : World → Request β} {post : β → World → Prop}
    (rest : Leads stuck w (f w) post raises) : Leads stuck w (get >>= f) post raises := by
  rintro _ rfl
  exact rest _ rfl

theorem returns (value : α) (holds : post value w) :
    Leads stuck w (pure value : Request α) post raises := by
  rintro _ rfl
  exact holds

theorem refuses {error : FrameworkError} {detail : String} (holds : raises w) :
    Leads stuck w (refuse error detail : Request α) post raises := by
  rintro _ rfl
  exact ⟨holds, nofun⟩

theorem throws (failure : Failure) (apart : failure ≠ .integrity) (holds : raises w) :
    Leads stuck w (throw failure : Request α) post raises := by
  rintro _ rfl
  exact ⟨holds, fun integrity => absurd integrity apart⟩

theorem illegal_refused {inst : RAppInstance} {event : InstanceEvent} (holds : raises w) :
    Leads stuck w (illegal inst event : Request α) post raises := refuses holds

theorem called (change : Platform → Platform) : Leads stuck w (call change)
    (fun _ s => s = { w with platform := change w.platform }) raises := by
  rintro _ rfl
  rfl

theorem drew : Leads stuck w draw
    (fun id s => id = w.drawn ∧ s = { w with drawn := w.drawn + 1 }) raises := by
  rintro _ rfl
  exact ⟨rfl, rfl⟩

theorem committed {db : Db} (intact : db.references = true) :
    Leads stuck w (commit db) (fun _ s => s = { w with db }) raises := by
  rintro _ rfl
  simp only [commit, intact, if_true]
  rfl

theorem commits {db : Db} : Leads (db.references = false) w (commit db)
    (fun _ s => s = { w with db } ∧ db.references = true)
    (fun s => s = w ∧ db.references = false) := by
  rintro _ rfl
  simp only [commit]
  cases intact : db.references with
  | true => exact ⟨rfl, rfl⟩
  | false => exact ⟨⟨rfl, rfl⟩, fun _ => rfl⟩

theorem raised (h : Leads False w x post raises) (weaker : ∀ s, raises s → raises' s) :
    Leads stuck w x post raises' := h.sure.weaken (fun _ _ holds => holds) weaker

end Rules

section Calls

variable {w w' w'' : World} {o : Outside} {inst : RAppInstance}

theorem Calls.refl (w : World) : Calls w w :=
  ⟨rfl, rfl, Nat.le_refl _, fun _ _ mem => mem, fun _ _ => rfl, fun _ _ => rfl, rfl⟩

theorem Calls.trans (first : Calls w w') (later : Calls w' w'') : Calls w w'' where
  db := later.db.trans first.db
  now := later.now.trans first.now
  drawn := first.drawn.trans later.drawn
  invokers c old mem := first.invokers c old (later.invokers c (old.trans_le first.drawn) mem)
  limits c apart := (later.limits c (by rw [first.db]; exact apart)).trans (first.limits c apart)
  policies c apart := (later.policies c (by rw [first.db]; exact apart)).trans (first.policies c apart)
  killed := later.killed.trans first.killed

theorem deleteInvoker_calls (client : ClientId) (p : Platform) :
    (∀ c ∈ (deleteInvoker o client p).invokers, c ∈ p.invokers) ∧
      (deleteInvoker o client p).limits = p.limits ∧
      (deleteInvoker o client p).approvalPolicies = p.approvalPolicies ∧
      (deleteInvoker o client p).killed = p.killed := by
  simp only [deleteInvoker]
  split
  · exact ⟨fun c mem => (List.mem_filter.mp mem).1, rfl, rfl, rfl⟩
  · exact ⟨fun c mem => mem, rfl, rfl, rfl⟩

theorem Calls.deleteInvoker (client : ClientId) :
    Calls w { w with platform := RappMgmt.deleteInvoker o client w.platform } := by
  obtain ⟨invokers, limits, policies, killed⟩ := @deleteInvoker_calls o client w.platform
  exact ⟨rfl, rfl, Nat.le_refl _, fun c _ mem => invokers c mem, fun c _ => by rw [limits],
    fun c _ => by rw [policies], killed⟩

theorem Calls.revokeCredential (inst : RAppInstance) :
    Calls w { w with platform := RappMgmt.revokeCredential o inst w.platform } := by
  simp only [RappMgmt.revokeCredential]
  split
  · exact .refl w
  · exact .deleteInvoker _

theorem draws_calls : Calls w { w with drawn := w.drawn + 1 } :=
  ⟨rfl, rfl, Nat.le_succ _, fun _ _ mem => mem, fun _ _ => rfl, fun _ _ => rfl, rfl⟩

theorem addInvoker_calls : Calls w { w with
    drawn := w.drawn + 1, platform := addInvoker o inst w.drawn w.platform } := by
  refine ⟨rfl, rfl, Nat.le_succ _, fun c old mem => ?_, fun c _ => ?_, fun c _ => ?_, ?_⟩ <;>
    simp only [addInvoker] at *
  · split at mem
    · rcases List.mem_append.mp mem with before | new
      · exact before
      · exact absurd (List.mem_singleton.mp new) (Nat.ne_of_lt old)
    · exact mem
  · split <;> rfl
  · split <;> rfl
  · split <;> rfl

theorem registerInstanceInvoker_calls : Leads False w (registerInstanceInvoker o inst)
    (fun left s => Calls w s ∧ s.drawn = w.drawn + 1 ∧
      left = { inst with oauthClientId := some w.drawn } ∧
      o.reply (.registerInvoker inst.instanceId) = .done ∧
      ¬(inst.authzScope.isSome ∧ o.recordsClaim = false)) (Calls w) := by
  refine follow drew ?_
  rintro _ _ ⟨rfl, rfl⟩
  refine follow (called _) ?_
  rintro _ _ rfl
  refine Leads.ite (fun _ => refuses addInvoker_calls) fun done => ?_
  refine Leads.ite (fun _ => ?_) fun recorded =>
    returns _ ⟨addInvoker_calls, rfl, rfl, not_not.mp done, recorded⟩
  refine follow (called _) ?_
  rintro _ _ rfl
  exact refuses (addInvoker_calls.trans (.deleteInvoker _))

theorem deliverCredentials_calls : Leads False w (deliverCredentials o inst)
    (fun _ s => s = w ∧ o.reply (.deliver inst.instanceId) = .done) (Calls w) := by
  refine Leads.ite (fun done => returns _ ⟨rfl, done⟩) fun _ => ?_
  refine follow (called _) ?_
  rintro _ _ rfl
  exact refuses (.revokeCredential _)

theorem made_calls {reply : Reply} {make : Nat → Platform → Platform}
    (apart : ∀ ref p, (make ref p).invokers = p.invokers ∧ (make ref p).limits = p.limits ∧
      (make ref p).approvalPolicies = p.approvalPolicies ∧ (make ref p).killed = p.killed) :
    Leads False w (made reply make) (fun _ s => Calls w s) (Calls w) := by
  have make_calls : Calls w
      { w with drawn := w.drawn + 1, platform := make w.drawn w.platform } := by
    obtain ⟨invokers, limits, policies, killed⟩ := apart w.drawn w.platform
    exact ⟨rfl, rfl, Nat.le_succ _, fun c _ mem => invokers ▸ mem, fun c _ => by rw [limits],
      fun c _ => by rw [policies], killed⟩
  cases reply with
  | refused => exact returns _ (.refl w)
  | unreachable => exact throws _ nofun (.refl w)
  | lost | done =>
    refine follow drew ?_
    rintro _ _ ⟨rfl, rfl⟩
    refine follow (called _) ?_
    rintro _ _ rfl
    first | exact throws _ nofun make_calls | exact returns _ make_calls

variable {packageId : PackageId} {settings : Settings}

theorem checkPackage_calls : Leads False w (checkPackage o packageId)
    (fun _ s => s = w) (Calls w) := by
  simp only [checkPackage]
  split
  · exact throws _ nofun (.refl w)
  · exact refuses (.refl w)
  · exact refuses (.refl w)
  · exact refuses (.refl w)
  · exact refuses (.refl w)
  · exact returns _ rfl

/-- A row as `provision_instance` makes it. -/
structure Provisioned (w s : World) (packageId : PackageId) (settings : Settings)
    (inst : RAppInstance) : Prop where
  calls : Calls w s
  id : w.drawn ≤ inst.instanceId ∧ inst.instanceId < s.drawn
  client : ∃ c, inst.oauthClientId = some c ∧ w.drawn ≤ c ∧ c < s.drawn
  packageId : inst.packageId = packageId
  settings : inst.settings = settings
  deploying : inst.state = .deploying
  alone : inst.pendingUpgradeInstanceId = none
  plain : inst.rollbackOfVersionId = none

theorem provisionInstance_calls : Leads False w (provisionInstance o packageId settings)
      (fun inst s => Provisioned w s packageId settings inst) (Calls w) := by
  refine follow checkPackage_calls ?_
  rintro _ _ rfl
  refine follow drew ?_
  rintro _ _ ⟨rfl, rfl⟩
  refine reads ?_
  refine follow (raised registerInstanceInvoker_calls fun _ calls => draws_calls.trans calls) ?_
  rintro _ s ⟨registered, drawn, rfl, -⟩
  have first := draws_calls.trans registered
  refine follow (raised deliverCredentials_calls fun _ calls => first.trans calls) ?_
  rintro _ _ ⟨rfl, -⟩
  refine follow (raised (made_calls fun _ _ => ⟨rfl, rfl, rfl, rfl⟩)
    fun _ calls => first.trans calls) ?_
  intro workloadRef s' instantiated
  refine follow (raised (made_calls fun _ _ => ⟨rfl, rfl, rfl, rfl⟩)
    fun _ calls => (first.trans instantiated).trans calls) ?_
  intro usage s'' used
  refine returns _ ⟨(first.trans instantiated).trans used, ⟨Nat.le_refl _, ?_⟩,
    ⟨_, rfl, Nat.le_succ _, ?_⟩, rfl, rfl, rfl, rfl, rfl⟩
  · exact Nat.lt_of_lt_of_le (Nat.lt_succ_self _) (registered.drawn.trans (instantiated.drawn.trans used.drawn))
  · have more := instantiated.drawn.trans used.drawn
    rw [drawn] at more
    exact Nat.lt_of_succ_le more

theorem Provisioned.fresh {s : World} (wf : Wf w) (made : Provisioned w s packageId settings inst) :
    Fresh s inst where
  absent := by
    rw [made.calls.db, ← Option.not_isSome_iff_eq_none]
    intro there
    obtain ⟨other, row⟩ := Option.isSome_iff_exists.mp there
    exact absurd (wf.ids _ _ row) (Nat.not_lt.mpr made.id.1)
  drawn := made.id.2
  client c is := by
    obtain ⟨client, its, new, drawn⟩ := made.client
    obtain rfl := Option.some.inj (its.symm.trans is)
    refine ⟨drawn, fun id other row same => ?_⟩
    rw [made.calls.db] at row
    exact absurd (wf.clients _ _ _ row same) (Nat.not_lt.mpr new)
  deploying := made.deploying
  alone := made.alone

end Calls

section Bootstrap

variable {manifest : PackageId → RappLimits} {w : World} {o : Outside} {inst : RAppInstance}

def Deploys (w : World) (inst : RAppInstance) : Prop :=
  ∃ id row, w.db.row id = some row ∧ row.state = .deploying ∧ row.oauthClientId = inst.oauthClientId

theorem Deploys.apart (deploys : Deploys w inst) {c : ClientId}
    (others : ∀ id other, w.db.row id = some other → other.oauthClientId = some c →
      other.state ≠ .deploying) : some c ≠ inst.oauthClientId := by
  obtain ⟨id, row, there, state, client⟩ := deploys
  intro same
  exact others id row there (client.trans same.symm) state

theorem setLimits_calls (deploys : Deploys w inst) (limits : RappLimits) :
    Calls w { w with platform := setLimits o inst limits w.platform } := by
  refine ⟨rfl, rfl, Nat.le_refl _, fun c _ mem => ?_, fun c others => ?_, fun c _ => ?_, ?_⟩ <;>
    simp only [setLimits] at *
  · split at mem <;> exact mem
  · split
    · exact Function.update_of_ne (deploys.apart others) _ _
    · rfl
  · split <;> rfl
  · split <;> rfl

theorem setPolicy_calls (deploys : Deploys w inst) (policy : ApprovalPolicy) :
    Calls w { w with platform := setPolicy o inst policy w.platform } := by
  refine ⟨rfl, rfl, Nat.le_refl _, fun c _ mem => ?_, fun c _ => ?_, fun c others => ?_, ?_⟩ <;>
    simp only [setPolicy] at *
  · split at mem <;> exact mem
  · split <;> rfl
  · split
    · exact Function.update_of_ne (deploys.apart others) _ _
    · rfl
  · split <;> rfl

theorem onboardingStatus_calls : Leads False w (onboardingStatus manifest o inst)
    (fun limits s => s = w ∧ (o.tells inst = true → limits = manifest inst.packageId)) (Calls w) := by
  simp only [onboardingStatus, Outside.tells]
  split
  · exact throws _ nofun (.refl w)
  · next is => exact returns _ ⟨rfl, by simp [is]⟩
  · next is => exact returns _ ⟨rfl, by simp [is]⟩
  · exact returns _ ⟨rfl, fun _ => rfl⟩

theorem applyRappLimits_calls (deploys : Deploys w inst) (limits : RappLimits) :
    Leads False w (applyRappLimits o inst limits)
      (fun left s => Calls w s ∧ (∃ set, left = { inst with rappLimitsSet := set }) ∧
        (limits.declared = true → s.platform.limits inst.oauthClientId = some limits)) (Calls w) := by
  refine Leads.ite (fun none => ?_) fun _ => ?_
  · exact returns _ ⟨.refl w, ⟨_, rfl⟩, fun some => by simp [none] at some⟩
  · refine follow (called _) ?_
    rintro _ _ rfl
    have calls := @setLimits_calls w o inst deploys limits
    refine Leads.ite (fun done => returns _ ⟨calls, ⟨true, rfl⟩, fun _ => ?_⟩) fun _ => refuses calls
    simp [setLimits, done, Reply.applied]

theorem kept_enough {policy : ApprovalPolicy} (counted : 1 < policy.requiredApprovals →
    (kept o policy).requiredApprovals = policy.requiredApprovals) :
    (kept o policy).timeoutSeconds = policy.timeoutSeconds ∧
      (kept o policy).onTimeout = policy.onTimeout ∧
      policy.requiredApprovals ≤ (kept o policy).requiredApprovals := by
  simp only [kept] at *
  split
  · exact ⟨rfl, rfl, Nat.le_refl _⟩
  · next not =>
    refine ⟨rfl, rfl, ?_⟩
    by_contra more
    simp_all

theorem applyApprovalPolicy_calls (deploys : Deploys w inst) :
    Leads False w (applyApprovalPolicy o inst)
      (fun _ s => Calls w s ∧ s.platform.limits = w.platform.limits ∧
        ∀ policy, inst.approvalPolicy = some policy →
          ∃ held, s.platform.approvalPolicies inst.oauthClientId = some held ∧
            held.timeoutSeconds = policy.timeoutSeconds ∧ held.onTimeout = policy.onTimeout ∧
            policy.requiredApprovals ≤ held.requiredApprovals) (Calls w) := by
  simp only [applyApprovalPolicy]
  cases inst.approvalPolicy with
  | none => exact returns _ ⟨.refl w, rfl, nofun⟩
  | some policy =>
    refine follow (called _) ?_
    rintro _ _ rfl
    have calls := @setPolicy_calls w o inst deploys policy
    refine Leads.ite (fun done => returns _ ⟨calls, ?_, ?_⟩) fun _ => refuses calls
    · simp only [setPolicy]
      split <;> rfl
    · intro _ same
      obtain rfl := Option.some.inj same
      obtain ⟨done, counted⟩ := done
      refine ⟨kept o policy, ?_, kept_enough counted⟩
      simp [setPolicy, done, Reply.applied]

theorem onBootstrap_calls (deploys : Deploys w inst) :
    Leads False w (onBootstrap manifest o inst)
      (fun left s => Calls w s ∧ (∃ set, left = { inst with rappLimitsSet := set }) ∧
        (((manifest inst.packageId).declared = true → o.tells inst = true) →
          Safe manifest s.platform inst)) (Calls w) := by
  refine follow onboardingStatus_calls ?_
  rintro limits _ ⟨rfl, told⟩
  refine follow (applyRappLimits_calls deploys limits) ?_
  rintro _ s ⟨calls, ⟨set, rfl⟩, limited⟩
  have still : Deploys s { inst with rappLimitsSet := set } := by
    obtain ⟨id, row, there, state, client⟩ := deploys
    exact ⟨id, row, calls.db ▸ there, state, client⟩
  refine follow (raised (applyApprovalPolicy_calls still) fun _ later => calls.trans later) ?_
  rintro _ s' ⟨later, same, held⟩
  refine returns _ ⟨calls.trans later, ⟨set, rfl⟩, fun tells => ⟨fun declared => ?_, held⟩⟩
  have told := told (tells declared)
  rw [same, ← told]
  exact limited (told ▸ declared)

end Bootstrap

section Sweeps

variable {manifest : PackageId → RappLimits} {w : World} {o : Outside} {inst old new : RAppInstance}
  {id : InstanceId}

theorem fires_from {state next : InstanceState} {event : InstanceEvent}
    (fires : rappInstanceFsm.fire state event = .ok next) :
    match event with
    | .bootstrapOk => state = .deploying ∧ next = .running
    | .bootstrapFailed => state = .deploying ∧ next = .faulted
    | .startUpgrade => state = .running ∧ next = .upgrading
    | .upgradeCommit => state = .upgrading ∧ next = .undeployed
    | .upgradeRollback => state = .upgrading ∧ next = .running
    | .terminate => state ≠ .upgrading ∧ state ≠ .undeployed ∧ next = .undeployed
    | .crash => state = .running ∧ next = .faulted
    | .recover => state = .faulted ∧ next = .deploying := by
  revert fires
  cases state <;> cases event <;> cases next <;> decide

theorem fire_ok (event : InstanceEvent) : Leads False w (fire o inst event)
    (fun left s => ∃ next, rappInstanceFsm.fire inst.state event = .ok next ∧
      s = { w with platform := action o event inst w.platform } ∧
      left = { acted event inst with state := next }) (· = w) := by
  simp only [fire]
  split
  · exact illegal_refused rfl
  · next next fires =>
    refine follow (called _) ?_
    rintro _ _ rfl
    exact returns _ ⟨next, fires, rfl, rfl⟩

theorem getOr404_ok : Leads False w (getOr404 id)
    (fun inst s => s = w ∧ w.db.row id = some inst) (· = w) := by
  refine reads ?_
  split
  · next row => exact returns _ ⟨rfl, row⟩
  · exact refuses rfl

theorem rollBack_ok (upgrading : old.state = .upgrading) (db : Db) (reason : Reason) :
    Leads False w (rollBack o db old (some new) reason)
      (fun left s => left = (db.put (backAgain o old (some new) reason)).remove new.instanceId ∧
        s = { w with platform := releaseInstanceResources o new (terminateSideEffects o new w.platform) })
      (fun _ => False) := by
  rintro _ rfl
  simp only [rollBack, fire, upgrading]
  exact ⟨rfl, rfl⟩

def Due (w : World) (old new : RAppInstance) : Prop :=
  old.pendingUpgradeInstanceId = some new.instanceId ∧ w.db.row new.instanceId = some new ∧
    old.state = .upgrading ∧ overdue w.db old new.instanceId w.now = true

theorem expires (there : ∀ next, old.pendingUpgradeInstanceId = some next → (w.db.row next).isSome) :
    Leads False w (expireOverdueUpgrade o w.db old)
      (fun left s => left = none ∧ s = w ∧ (∀ new, ¬Due w old new) ∨
        ∃ new, Due w old new ∧ left = some (rolled o w old new .upgradeTimeout).db ∧
          s = { w with platform := (rolled o w old new .upgradeTimeout).platform })
      (fun _ => False) := by
  simp only [expireOverdueUpgrade]
  cases pending : old.pendingUpgradeInstanceId with
  | none =>
    refine returns _ (.inl ⟨rfl, rfl, fun new due => ?_⟩)
    cases pending.symm.trans due.1
  | some next =>
    obtain ⟨new, row⟩ := Option.isSome_iff_exists.mp (there next pending)
    obtain rfl := Db.row_id row
    refine reads (Leads.ite (fun due => ?_) fun not => ?_)
    · rw [row]
      refine follow (rollBack_ok due.1 w.db _) ?_
      rintro _ _ ⟨rfl, rfl⟩
      exact returns _ (.inr ⟨new, ⟨pending, row, due⟩, rfl, rfl⟩)
    · refine returns _ (.inl ⟨rfl, rfl, fun other due => not ?_⟩)
      obtain ⟨same, -, due⟩ := due
      rw [pending] at same
      rw [Option.some.inj same]
      exact due

theorem sweeps (there : ∀ next, old.pendingUpgradeInstanceId = some next → (w.db.row next).isSome)
    (intact : ∀ new, Due w old new → (rolled o w old new .upgradeTimeout).db.references = true) :
    Leads False w (sweepOverdueUpgrade o old)
      (fun swept s => swept = false ∧ s = w ∧ (∀ new, ¬Due w old new) ∨
        swept = true ∧ ∃ new, Due w old new ∧ s = rolled o w old new .upgradeTimeout)
      (fun _ => False) := by
  refine reads (follow (expires there) ?_)
  rintro _ s (⟨rfl, rfl, not⟩ | ⟨new, due, rfl, rfl⟩)
  · exact returns _ (.inl ⟨rfl, rfl, not⟩)
  · refine follow (committed (intact new due)) ?_
    rintro _ _ rfl
    exact returns _ (.inr ⟨rfl, new, due, rfl⟩)

theorem sweeps_row (wf : Wf w) (row : w.db.row old.instanceId = some old) :
    Leads False w (sweepOverdueUpgrade o old)
      (fun swept s => swept = false ∧ s = w ∧ (∀ new, ¬Due w old new) ∨
        swept = true ∧ ∃ new, Due w old new ∧ s = rolled o w old new .upgradeTimeout)
      (fun _ => False) :=
  sweeps (fun next pending => wf.pendingThere _ _ next row pending)
    fun _ due => (wf.rolled row due.1).references

end Sweeps

section Loads

variable {manifest : PackageId → RappLimits} {begun w s : World} {act : Act} {o : Outside}
  {inst old new : RAppInstance} {id : InstanceId}

abbrev Path (manifest : PackageId → RappLimits) (begun : World) (act : Act) : World → World → Prop :=
  Relation.ReflTransGen (Move manifest begun act)

theorem Path.one (move : Move manifest begun act w s) : Path manifest begun act w s := .single move

theorem Path.wf (path : Path manifest begun act w s) (wf : Wf w) : Wf s := by
  induction path with
  | refl => exact wf
  | tail _ move ih => exact move.wf ih

theorem lands (wf : Wf w) {db : Db} (moved : Path manifest w act w { s with db }) :
    Leads False s (commit db) (fun _ => Path manifest w act w) (Path manifest w act w) := by
  refine (committed (moved.wf wf).references).weaken ?_ fun _ h => h
  rintro _ _ rfl
  exact moved

theorem upgradeOwner_some (wf : Wf w) (row : w.db.row id = some inst) {owner : RAppInstance}
    (owns : upgradeOwner w.db inst = some owner) : w.db.row owner.instanceId = some owner ∧
      (owner = inst ∧ inst.pendingUpgradeInstanceId.isSome = true ∨
        inst.pendingUpgradeInstanceId = none ∧ owner.pendingUpgradeInstanceId = some id) := by
  simp only [upgradeOwner] at owns
  split_ifs at owns with pending
  · obtain rfl := Option.some.inj owns
    obtain rfl := Db.row_id row
    exact ⟨row, .inl ⟨rfl, pending⟩⟩
  · have names := List.find?_some owns
    refine ⟨Db.row_of_mem wf.distinct (List.mem_of_find?_eq_some owns), .inr ⟨?_, ?_⟩⟩
    · simpa using pending
    · simpa [Db.row_id row] using names

theorem upgradeOwner_none (row : w.db.row id = some inst)
    (owns : upgradeOwner w.db inst = none) : inst.pendingUpgradeInstanceId = none ∧
      ∀ id' other, w.db.row id' = some other → other.pendingUpgradeInstanceId ≠ some id := by
  simp only [upgradeOwner] at owns
  split_ifs at owns with pending
  refine ⟨by simpa using pending, fun id' other there names => ?_⟩
  have not := List.find?_eq_none.mp owns other (Table.mem_of_get there)
  simp [names, Db.row_id row] at not

/-- A row that `_load_instance` gives: the table is as it was, or the row's own upgrade was overdue
and is rolled back. -/
structure Loaded (o : Outside) (w s : World) (id : InstanceId) (inst : RAppInstance) : Prop where
  loads : loads o w id = some inst
  row : s.db.row id = some inst
  swept : s = w ∨ ∃ old new : RAppInstance, w.db.row id = some old ∧ Due w old new ∧
    s = rolled o w old new .upgradeTimeout

theorem row_rolled (wf : Wf w) {reason : Reason} (row : w.db.row old.instanceId = some old)
    (pending : old.pendingUpgradeInstanceId = some new.instanceId) :
    (rolled o w old new reason).db.row old.instanceId = some (backAgain o old (some new) reason) := by
  have apart : old.instanceId ≠ new.instanceId := fun same =>
    wf.apart _ _ row (pending.trans (congrArg some same.symm))
  show ((w.db.put (backAgain o old (some new) reason)).remove new.instanceId).row old.instanceId = _
  rw [Db.row_remove, if_neg apart]
  exact @Db.row_put_self w.db (backAgain o old (some new) reason) _ row

variable {reason : Reason} {found : RAppInstance}

theorem rolled_row (row : (rolled o w old new reason).db.row id = some found) :
    id ≠ new.instanceId ∧ (id = old.instanceId ∧ found = backAgain o old (some new) reason ∨
      id ≠ old.instanceId ∧ w.db.row id = some found) := by
  obtain ⟨left, row⟩ := @row_remove_some
    { w with db := w.db.put (backAgain o old (some new) reason) } _ _ _ row
  exact ⟨left, row_put_cases row⟩

theorem abandoned_row (gone : w.db.row old.instanceId = none)
    (row : (rolled o w old new reason).db.row id = some found) :
    id ≠ new.instanceId ∧ w.db.row id = some found := by
  obtain ⟨left, ⟨rfl, rfl⟩ | ⟨-, before⟩⟩ := rolled_row row
  · have back := (@row_remove_some { w with db := w.db.put _ } _ _ _ row).2
    exact ⟨left, (@row_put_gone w (backAgain o old (some new) reason) _ gone).symm.trans back⟩
  · exact ⟨left, before⟩

theorem loadInstance_ok (wf : Wf w) : Leads False w (loadInstance o id)
    (fun inst s => Loaded o w s id inst) (Path manifest begun act w) := by
  refine follow (raised getOr404_ok fun _ same => same ▸ .refl) ?_
  rintro inst w ⟨rfl, row⟩
  refine reads ?_
  cases owns : upgradeOwner w.db inst with
  | none => exact returns _ ⟨by simp [loads, row, owns], row, .inl rfl⟩
  | some owner =>
    obtain ⟨there, is⟩ := upgradeOwner_some wf row owns
    refine follow (raised (sweeps_row wf there) fun _ => False.elim) ?_
    rintro swept s (⟨rfl, same, not⟩ | ⟨rfl, new, due, rfl⟩)
    · subst same
      refine Leads.ite (fun not => by simp at not) fun _ => ?_
      refine (raised getOr404_ok fun _ same => same ▸ .refl).weaken ?_ fun _ h => h
      rintro found s ⟨rfl, again⟩
      obtain rfl := Option.some.inj (row.symm.trans again)
      refine ⟨?_, row, .inl rfl⟩
      simp only [loads, row, owns]
      split
      · rfl
      · next next pending =>
        obtain ⟨new, newRow⟩ := Option.isSome_iff_exists.mp (wf.pendingThere _ _ _ there pending)
        obtain rfl := Db.row_id newRow
        exact if_neg fun due => not new ⟨pending, newRow, due⟩
    · have move : Path manifest begun act w (rolled o w owner new .upgradeTimeout) :=
        .one (.rolledBack there due.1 due.2.1)
      refine Leads.ite (fun _ => refuses move) fun own => ?_
      obtain rfl : owner.instanceId = id := by simpa using own
      obtain rfl := Option.some.inj (row.symm.trans there)
      refine (raised getOr404_ok fun _ same => same ▸ move).weaken ?_ fun _ h => h
      rintro found s ⟨rfl, again⟩
      have back := @row_rolled w o inst new wf .upgradeTimeout there due.1
      obtain rfl := Option.some.inj (back.symm.trans again)
      refine ⟨?_, back, .inr ⟨inst, new, row, due, rfl⟩⟩
      simp only [loads, row, owns, due.1]
      rw [if_pos due.2.2, if_pos trivial, due.2.1]

end Loads

section Routes

variable {manifest : PackageId → RappLimits} {w s : World} {act : Act} {o : Outside}
  {inst : RAppInstance} {id : InstanceId} {caller : Caller}

theorem Loaded.path (wf : Wf w) (loaded : Loaded o w s id inst) : Path manifest w act w s := by
  rcases loaded.swept with rfl | ⟨old, new, row, due, rfl⟩
  · exact .refl
  · obtain rfl := Db.row_id row
    exact .one (.rolledBack row due.1 due.2.1)

theorem Loaded.wf (wf : Wf w) (loaded : Loaded o w s id inst) : Wf s :=
  (@Loaded.path (fun _ => {}) _ _ (.pass 0) _ _ _ wf loaded).wf wf

theorem Loaded.self (loaded : Loaded o w s id inst) : s.db.row inst.instanceId = some inst :=
  (Db.row_id loaded.row).symm ▸ loaded.row

theorem Loaded.drawn (loaded : Loaded o w s id inst) : s.drawn = w.drawn := by
  rcases loaded.swept with rfl | ⟨old, new, row, due, rfl⟩ <;> rfl

theorem Loaded.named (loaded : Loaded o w s id inst) {id' next : InstanceId} {other : RAppInstance}
    (there : s.db.row id' = some other) (names : other.pendingUpgradeInstanceId = some next) :
    w.db.row id' = some other := by
  rcases loaded.swept with rfl | ⟨old, new, row, due, rfl⟩
  · exact there
  · obtain ⟨-, ⟨-, rfl⟩ | ⟨-, before⟩⟩ := rolled_row there
    · cases names
    · exact before

theorem Loaded.unswept (wf : Wf w) (loaded : Loaded o w s id inst) (apart : inst.state ≠ .running) :
    s = w := by
  rcases loaded.swept with same | ⟨old, new, row, due, rfl⟩
  · exact same
  · obtain rfl := Db.row_id row
    have back := @row_rolled w o old new wf .upgradeTimeout row due.1
    obtain rfl := Option.some.inj (back.symm.trans loaded.row)
    exact absurd rfl apart

theorem createInstance_path (wf : Wf w) (body : CreateInstanceRequest) :
    Leads False w (createInstance o body) (fun _ => Path manifest w act w)
      (Path manifest w act w) := by
  refine Leads.ite (fun _ => refuses .refl) fun _ => ?_
  split
  · exact throws _ nofun .refl
  · refine follow (raised provisionInstance_calls fun _ calls => .one (.calls calls)) ?_
    intro inst s made
    have fresh := made.fresh wf
    have moved : Path manifest w act w { s with db := s.db.add inst } :=
      (Path.one (.calls made.calls)).tail (.created inst fresh made.id.1 made.plain)
    exact reads (lands wf moved)

theorem issueInstanceCredentials_path (wf : Wf w) (is : act = .credentials o id) :
    Leads False w (issueInstanceCredentials o id) (fun _ => Path manifest w act w)
      (Path manifest w act w) := by
  refine follow (loadInstance_ok wf) ?_
  intro inst s loaded
  have path : Path manifest w act w s := loaded.path wf
  refine Leads.ite (fun _ => illegal_refused path) fun deploying => ?_
  have deploying : inst.state = .deploying := by simpa using deploying
  refine follow (raised registerInstanceInvoker_calls fun _ calls => path.tail (.calls calls)) ?_
  rintro _ s' ⟨calls, drawn, rfl, registered, recorded⟩
  have path' := path.tail (.calls calls)
  refine follow (raised deliverCredentials_calls fun _ calls => path'.tail (.calls calls)) ?_
  rintro _ s' ⟨rfl, delivered⟩
  obtain rfl := Db.row_id loaded.row
  have wf' := loaded.wf wf
  have fresh : ∀ id other, s'.db.row id = some other → other.oauthClientId ≠ some s.drawn := by
    intro id other row same
    rw [calls.db] at row
    exact absurd (wf'.clients _ _ _ row same) (Nat.lt_irrefl _)
  have there : s'.db.row inst.instanceId = some inst := calls.db ▸ loaded.row
  have moved : Path manifest w act w
      { s' with db := s'.db.put { inst with oauthClientId := some s.drawn } } :=
    path'.tail (.rotated is there loaded.loads ⟨registered, recorded, delivered⟩ deploying (drawn ▸ Nat.lt_succ_self _) fresh)
  refine reads (follow (committed (moved.wf wf).references) ?_)
  rintro _ _ rfl
  refine (called _).weaken ?_ fun _ h => h
  rintro _ _ rfl
  exact moved.tail (.calls (.revokeCredential _))

theorem killCall_path (path : Path manifest w act w s) (there : s.db.row inst.instanceId = some inst) :
    Leads False s (killCall o inst) (fun _ t => Path manifest w act w t ∧ t.db = s.db)
      (fun t => Path manifest w act w t ∧ t.db = s.db) := by
  simp only [killCall]
  split
  · exact refuses ⟨path, rfl⟩
  · next client holds =>
    refine follow (called _) ?_
    rintro _ _ rfl
    have moved : Path manifest w act w
        { s with platform := setKilled client true (o.reply (.putKill client)) s.platform } := by
      simp only [setKilled]
      split
      · exact path.tail (.stopped there holds)
      · exact path
    exact Leads.ite (fun _ => returns _ ⟨moved, rfl⟩) fun _ => refuses ⟨moved, rfl⟩

theorem liftKillCall_path (path : Path manifest w act w s)
    (there : s.db.row inst.instanceId = some inst)
    (is : act = .liftKill o inst.instanceId ∧ loads o w inst.instanceId = some inst ∨
      act = .resumeAll o ∧ o.reply .listKills = .done ∧ inst ∈ liveInstances w.db ∧
        inst.oauthClientId.any w.platform.killed = true) :
    Leads False s (liftKillCall o inst) (fun _ t => Path manifest w act w t ∧ t.db = s.db)
      (fun t => Path manifest w act w t ∧ t.db = s.db) := by
  simp only [liftKillCall]
  split
  · exact returns _ ⟨path, rfl⟩
  · next client holds =>
    refine follow (called _) ?_
    rintro _ _ rfl
    have moved : Path manifest w act w
        { s with platform := setKilled client false (o.reply (.deleteKill client)) s.platform } := by
      simp only [setKilled]
      split
      · next applied => exact path.tail (.lifted is there holds applied)
      · exact path
    exact Leads.ite (fun _ => returns _ ⟨moved, rfl⟩) fun _ => refuses ⟨moved, rfl⟩

theorem killInstance_path (wf : Wf w) : Leads False w (killInstance o id)
    (fun _ => Path manifest w act w) (Path manifest w act w) := by
  refine follow (loadInstance_ok wf) ?_
  intro inst s loaded
  exact (killCall_path (loaded.path wf) loaded.self).weaken (fun _ _ h => h.1)
    fun _ h => h.1

theorem liftInstanceKill_path (wf : Wf w) (is : act = .liftKill o id) :
    Leads False w (liftInstanceKill o id) (fun _ => Path manifest w act w)
      (Path manifest w act w) := by
  refine follow (loadInstance_ok wf) ?_
  intro inst s loaded
  obtain rfl := Db.row_id loaded.row
  exact (liftKillCall_path (loaded.path wf) loaded.row (.inl ⟨is, loaded.loads⟩)).weaken
    (fun _ _ h => h.1) fun _ h => h.1

theorem caught {x : Request Unit} {kept raises : World → Prop} {stuck : Prop}
    (h : Leads False w x (fun _ => kept) kept) :
    Leads stuck w (tryCatch x fun _ => pure ()) (fun _ => kept) raises := by
  rintro w rfl
  have ended := h _ rfl
  simp only [tryCatch, tryCatchThe, MonadExceptOf.tryCatch, EStateM.tryCatch]
  cases is : x w with
  | ok value s =>
    rw [is] at ended
    exact ended
  | error failure s =>
    rw [is] at ended
    exact ended.1

theorem forEach_path {calls : RAppInstance → Request Unit} {insts : List RAppInstance}
    (each : ∀ inst ∈ insts, ∀ s, Path manifest w act w s → s.db = w.db →
      Leads False s (calls inst) (fun _ t => Path manifest w act w t ∧ t.db = s.db)
        (fun t => Path manifest w act w t ∧ t.db = s.db))
    (path : Path manifest w act w s) (same : s.db = w.db) :
    Leads False s (forEach calls insts) (fun _ => Path manifest w act w) (Path manifest w act w) := by
  induction insts generalizing s with
  | nil => exact returns _ path
  | cons inst rest ih =>
    have first := each inst List.mem_cons_self s path same
    refine follow (caught first) ?_
    rintro _ t ⟨path', same'⟩
    exact ih (fun inst mem => each inst (List.mem_cons_of_mem _ mem)) path' (same'.trans same)

theorem stoppedInvokerIds_ok : Leads False w (stoppedInvokerIds o)
    (fun stopped s => s = w ∧ stopped = w.platform.killed ∧ o.reply .listKills = .done)
    (· = w) := by
  refine Leads.ite (fun done => ?_) fun _ => refuses rfl
  exact reads (returns _ ⟨rfl, rfl, done⟩)

theorem liveInstances_row (wf : Wf w) {p : RAppInstance → Bool}
    (mem : inst ∈ (liveInstances w.db).filter p) : w.db.row inst.instanceId = some inst :=
  Db.row_of_mem wf.distinct (List.mem_filter.mp (List.mem_filter.mp mem).1).1

theorem killAllInstances_path (wf : Wf w) : Leads False w (killAllInstances o)
    (fun _ => Path manifest w act w) (Path manifest w act w) := by
  refine follow (raised stoppedInvokerIds_ok fun _ same => same ▸ .refl) ?_
  rintro _ _ ⟨rfl, rfl, -⟩
  refine reads (forEach_path (fun inst mem s path same => ?_) .refl rfl)
  exact killCall_path path (same ▸ liveInstances_row wf mem)

theorem resumeAllInstances_path (wf : Wf w) (is : act = .resumeAll o) :
    Leads False w (resumeAllInstances o) (fun _ => Path manifest w act w)
      (Path manifest w act w) := by
  refine follow (raised stoppedInvokerIds_ok fun _ same => same ▸ .refl) ?_
  rintro _ _ ⟨rfl, rfl, read⟩
  refine reads (forEach_path (fun inst mem s path same => ?_) .refl rfl)
  obtain ⟨live, stopped⟩ := List.mem_filter.mp mem
  exact liftKillCall_path path (same ▸ liveInstances_row wf mem) (.inr ⟨is, read, live, stopped⟩)

theorem ownInstanceOrOperator_ok : Leads False w (ownInstanceOrOperator caller inst)
    (fun _ s => s = w ∧ ∀ client, caller = some client → inst.oauthClientId = some client)
    (· = w) := by
  cases caller with
  | none => exact returns _ ⟨rfl, nofun⟩
  | some client =>
    refine Leads.ite (fun own => returns _ ⟨rfl, ?_⟩) fun _ => refuses rfl
    rintro _ same
    exact Option.some.inj same ▸ own

theorem bootstrapComplete_path (wf : Wf w) (is : act = .bootstrapComplete o caller id) :
    Leads False w (bootstrapComplete manifest o caller id) (fun _ => Path manifest w act w)
      (Path manifest w act w) := by
  refine follow (loadInstance_ok wf) ?_
  intro inst s loaded
  have path : Path manifest w act w s := loaded.path wf
  refine follow (raised ownInstanceOrOperator_ok fun _ same => same ▸ path) ?_
  rintro _ s ⟨rfl, -⟩
  refine Leads.ite (fun _ => illegal_refused path) fun deploying => ?_
  have deploying : inst.state = .deploying := by simpa using deploying
  obtain rfl := Db.row_id loaded.row
  have same : s = w := loaded.unswept wf (by simp [deploying])
  have deploys : Deploys s inst := ⟨_, inst, loaded.row, deploying, rfl⟩
  refine follow (raised (onBootstrap_calls deploys).exactly fun _ calls => path.tail (.calls calls)) ?_
  rintro _ s' ⟨⟨calls, ⟨set, rfl⟩, safe⟩, took⟩
  have path' := path.tail (.calls calls)
  refine follow (raised (fire_ok _) fun _ same => same ▸ path') ?_
  rintro _ _ ⟨next, fires, rfl, rfl⟩
  obtain ⟨-, rfl⟩ := fires_from fires
  have moved : Path manifest w act w
      { s' with db := s'.db.put { inst with state := .running, rappLimitsSet := set } } :=
    path'.tail (.bootstrapped is (calls.db ▸ loaded.row) deploying loaded.loads
      ⟨_, _, same ▸ took⟩ safe)
  exact reads (lands wf moved)

theorem recoverInstance_path (wf : Wf w) (is : act = .recover o id) : Leads False w (recoverInstance o id)
    (fun _ => Path manifest w act w) (Path manifest w act w) := by
  refine follow (loadInstance_ok wf) ?_
  intro inst s loaded
  have path : Path manifest w act w s := loaded.path wf
  refine follow (raised (fire_ok _) fun _ same => same ▸ path) ?_
  rintro _ _ ⟨next, fires, rfl, rfl⟩
  obtain ⟨faulted, rfl⟩ := fires_from fires
  have moved : Path manifest w act w { s with db := s.db.put { inst with state := .deploying } } :=
    path.tail (.recovered (Db.row_id loaded.row ▸ is) loaded.self faulted)
  exact reads (lands wf moved)

variable {restore : Option RAppInstanceVersion} {rest : List RAppInstance} {reason : Reason}

theorem startUpgrade_ok {old : RAppInstance} {packageId : PackageId} (wf : Wf s) :
    Leads False s (startUpgrade o s.db old packageId restore)
      (fun left t => Calls s t ∧ old.state = .running ∧ Fresh t left.2 ∧
        s.drawn ≤ left.2.instanceId ∧ Replaces old restore left.2 ∧ left.2.packageId = packageId ∧
        Provisions o s packageId (restore.elim old.settings (·.settings)) ∧
        left.1 = (s.db.put { old with
          state := .upgrading
          pendingUpgradeInstanceId := some left.2.instanceId }).add left.2) (Calls s) := by
  simp only [startUpgrade]
  split
  · exact illegal_refused (.refl s)
  · next next fires =>
    obtain ⟨running, -⟩ := fires_from fires
    refine follow provisionInstance_calls.exactly ?_
    rintro made t ⟨provisioned, is⟩
    refine follow (raised (fire_ok _) fun _ same => same ▸ provisioned.calls) ?_
    rintro _ _ ⟨next, fires, rfl, rfl⟩
    obtain ⟨-, rfl⟩ := fires_from fires
    have fresh := provisioned.fresh wf
    refine returns _ ⟨provisioned.calls, running, ?_, provisioned.id.1, ⟨?_, rfl⟩,
      provisioned.packageId, ⟨made, t, is⟩, rfl⟩
    · exact ⟨fresh.absent, fresh.drawn, fresh.client, fresh.deploying, fresh.alone⟩
    · exact provisioned.settings

theorem started_path {old new : RAppInstance} {t : World} (wf : Wf w)
    (loaded : Loaded o w s old.instanceId old)
    (is : (∃ package, act = .upgrade o old.instanceId package ∧ new.packageId = package ∧
        restore = none) ∨
      ∃ id version, act = .rollback o id ∧ restore = some version ∧
        rollbackTarget s.db old.instanceId = some version ∧ new.packageId = version.previousPackageId)
    (calls : Calls s t) (running : old.state = .running) (fresh : Fresh t new)
    (unused : s.drawn ≤ new.instanceId) (replaces : Replaces old restore new)
    (made : Provisions o s new.packageId (restore.elim old.settings (·.settings))) :
    Leads False t (commit ((s.db.put { old with
        state := .upgrading
        pendingUpgradeInstanceId := some new.instanceId }).add new))
      (fun _ => Path manifest w act w) (Path manifest w act w) := by
  have path : Path manifest w act w t := (loaded.path wf).tail (.calls calls)
  rw [← calls.db] at is ⊢
  have moved : Path manifest w act w { t with db := (t.db.put { old with
      state := .upgrading
      pendingUpgradeInstanceId := some new.instanceId }).add new } := by
    refine path.tail (.started is (calls.db ▸ loaded.row) running loaded.loads ?_ fresh
      (loaded.drawn ▸ unused) replaces ?_)
    · intro id other row names
      exact loaded.named (calls.db ▸ row) names
    · rcases loaded.swept with rfl | ⟨inst, _, row, due, -⟩
      · exact .inl made
      · exact .inr ⟨inst, row, by simp [due.1]⟩
  exact lands wf moved

theorem upgradeInstance_path (wf : Wf w) {newPackageId : PackageId}
    (is : act = .upgrade o id newPackageId) : Leads False w (upgradeInstance o id newPackageId)
      (fun _ => Path manifest w act w) (Path manifest w act w) := by
  refine follow (loadInstance_ok wf) ?_
  intro old s loaded
  refine reads (follow (raised (startUpgrade_ok (loaded.wf wf))
    fun _ calls => (loaded.path wf).tail (.calls calls)) ?_)
  rintro ⟨db, new⟩ t ⟨calls, running, fresh, unused, replaces, package, made, rows⟩
  dsimp only at fresh unused replaces package rows ⊢
  subst rows
  obtain rfl := Db.row_id loaded.row
  exact started_path wf loaded (.inl ⟨newPackageId, is, package, rfl⟩) calls running fresh unused
    replaces (package ▸ made)

theorem resolveCurrent_ok (wf : Wf w) : Leads False w (resolveCurrent o id)
    (fun inst s => Loaded o w s inst.instanceId inst) (Path manifest w act w) := by
  refine reads ?_
  split
  · exact refuses .refl
  · refine (loadInstance_ok wf).weaken ?_ fun _ h => h
    intro inst s loaded
    exact (Db.row_id loaded.row).symm ▸ loaded

theorem startRollback_ok {current : RAppInstance} (wf : Wf s) :
    Leads False s (startRollback o s.db current)
      (fun left t => left = none ∧ t = s ∨ ∃ new version,
        rollbackTarget s.db current.instanceId = some version ∧ Calls s t ∧
        current.state = .running ∧ Fresh t new ∧ s.drawn ≤ new.instanceId ∧
        Replaces current (some version) new ∧ new.packageId = version.previousPackageId ∧
        Provisions o s new.packageId version.settings ∧
        left = some ((s.db.put { current with
          state := .upgrading
          pendingUpgradeInstanceId := some new.instanceId }).add new, new, version)) (Calls s) := by
  simp only [startRollback]
  cases target : rollbackTarget s.db current.instanceId with
  | none => exact returns _ (.inl ⟨rfl, rfl⟩)
  | some version =>
    refine follow (startUpgrade_ok wf) ?_
    rintro ⟨db, new⟩ t ⟨calls, running, fresh, unused, replaces, package, made, rows⟩
    dsimp only at fresh unused replaces package rows ⊢
    subst rows
    exact returns _ (.inr ⟨new, version, rfl, calls, running, fresh, unused, replaces, package,
      package ▸ made, rfl⟩)

theorem rollbackInstance_path (wf : Wf w) (is : act = .rollback o id) :
    Leads False w (rollbackInstance o id) (fun _ => Path manifest w act w)
      (Path manifest w act w) := by
  refine follow (resolveCurrent_ok wf) ?_
  intro current s loaded
  have path : Path manifest w act w s := loaded.path wf
  refine reads (follow (raised (startRollback_ok (loaded.wf wf)) fun _ calls => path.tail (.calls calls)) ?_)
  rintro _ t (⟨rfl, rfl⟩ |
    ⟨new, version, target, calls, running, fresh, unused, replaces, package, made, rfl⟩)
  · exact refuses path
  · exact started_path wf loaded (.inr ⟨id, version, is, rfl, target, package⟩) calls running fresh
      unused replaces made

theorem confirmed_calls {new : RAppInstance} (row : w.db.row new.instanceId = some new) :
    Leads False w (confirmed manifest o new)
      (fun left s => Calls w s ∧ (new.state ≠ .deploying ∧ left = new ∨ new.state = .deploying ∧
        ∃ set, left = { new with state := .running, rappLimitsSet := set } ∧
          (((manifest new.packageId).declared = true → o.tells new = true) →
            Safe manifest s.platform new))) (Calls w) := by
  refine Leads.ite (fun deploying => ?_) fun not => returns _ ⟨.refl w, .inl ⟨not, rfl⟩⟩
  refine follow (raised (fire_ok _) fun _ same => same ▸ .refl w) ?_
  rintro _ _ ⟨next, fires, rfl, rfl⟩
  obtain ⟨-, rfl⟩ := fires_from fires
  have deploys : Deploys w { new with state := .running } := ⟨_, new, row, deploying, rfl⟩
  refine (onBootstrap_calls deploys).weaken ?_ fun _ h => h
  rintro _ s ⟨calls, ⟨set, rfl⟩, safe⟩
  exact ⟨calls, .inr ⟨deploying, set, rfl, fun tells => ⟨(safe tells).limits, (safe tells).policy⟩⟩⟩

theorem replaced_row {old new found : RAppInstance}
    (row : (replaced o w old new).db.row id = some found) : id ≠ old.instanceId ∧
      (id = new.instanceId ∧ found = { new with lastTeardown := some (released o old .upgradeCommit) } ∨
        id ≠ new.instanceId ∧ w.db.row id = some found) := by
  let left : RAppInstance := { new with lastTeardown := some (released o old .upgradeCommit) }
  obtain ⟨apart, row⟩ := @row_remove_some
    { w with db := recordVersion (w.db.put left) (versionOf w.drawn old left) left.rollbackOfVersionId }
    _ _ _ row
  rw [Db.row_recordVersion] at row
  exact ⟨apart, row_put_cases row⟩

theorem replaced_refused {old new other : RAppInstance} (wf : Wf w)
    (row : w.db.row other.instanceId = some other)
    (names : other.pendingUpgradeInstanceId = some old.instanceId)
    (apart : other.instanceId ≠ new.instanceId) : (replaced o w old new).db.references = false := by
  have left : other.instanceId ≠ old.instanceId := fun same =>
    wf.apart _ _ row (names.trans (congrArg some same.symm))
  let stays : RAppInstance := { new with lastTeardown := some (released o old .upgradeCommit) }
  have rows : ∀ id, (replaced o w old new).db.row id =
      if id = old.instanceId then none else (w.db.put stays).row id := fun id => by
    refine (Db.row_remove old.instanceId).trans ?_
    rw [Db.row_recordVersion]
  have there : (replaced o w old new).db.row other.instanceId = some other := by
    rw [rows, if_neg left, Db.row_put, if_neg (Ne.symm apart)]
    exact row
  by_contra intact
  have all := List.all_eq_true.mp (Bool.of_not_eq_false intact) other (Table.mem_of_get there)
  rw [names, Option.all_some, rows, if_pos rfl] at all
  cases all

theorem reconsiderRegistrations_killed (o : Outside) (inst : RAppInstance) (p : Platform) :
    (reconsiderRegistrations o inst p).killed = p.killed := by
  have limits : (reconsiderRappLimits o inst p).killed = p.killed := by
    simp only [reconsiderRappLimits]
    cases inst.oauthClientId
    · rfl
    · dsimp only
      split_ifs <;> rfl
  rw [← limits]
  simp only [reconsiderRegistrations, reconsiderApprovalPolicy]
  cases inst.oauthClientId
  · rfl
  · dsimp only
    split_ifs <;> rfl

theorem releaseInstanceResources_apart (o : Outside) (inst : RAppInstance) (p : Platform) :
    (releaseInstanceResources o inst p).invokers = p.invokers ∧
      (releaseInstanceResources o inst p).limits = p.limits ∧
      (releaseInstanceResources o inst p).approvalPolicies = p.approvalPolicies ∧
      (releaseInstanceResources o inst p).killed = p.killed := by
  simp only [releaseInstanceResources]
  rcases inst.workloadRef with _ | ref <;> rcases inst.packageUsageRegistrationId with _ | usage <;>
    dsimp only
  · exact ⟨rfl, rfl, rfl, rfl⟩
  · split_ifs <;> exact ⟨rfl, rfl, rfl, rfl⟩
  · split_ifs <;> exact ⟨rfl, rfl, rfl, rfl⟩
  · split_ifs <;> exact ⟨rfl, rfl, rfl, rfl⟩

theorem teardown_killed (o : Outside) (inst : RAppInstance) (p : Platform) :
    (releaseInstanceResources o inst (terminateSideEffects o inst p)).killed = p.killed := by
  have revoked : ∀ p, (revokeCredential o inst p).killed = p.killed := by
    intro p
    simp only [revokeCredential, deleteInvoker]
    cases inst.oauthClientId
    · rfl
    · dsimp only
      split_ifs <;> rfl
  rw [(releaseInstanceResources_apart o inst _).2.2.2, terminateSideEffects, revoked,
    reconsiderRegistrations_killed]

/-- A request that would remove a row which another names as its replacement: the commit of an
upgrade of such a row, or the removal of such a row that is UNDEPLOYED. -/
def Stuck (act : Act) (w : World) : Prop :=
  ∃ id other gone row, w.db.row id = some other ∧ other.pendingUpgradeInstanceId = some gone ∧
    w.db.row gone = some row ∧
    ((∃ o, act = .resolve o gone true) ∧ row.pendingUpgradeInstanceId.isSome = true ∨
      row.state = .undeployed)

theorem resolveUpgrade_path {old new : RAppInstance} (wf : Wf w)
    (is : act = .resolve o old.instanceId true) (row : w.db.row old.instanceId = some old)
    (pending : old.pendingUpgradeInstanceId = some new.instanceId)
    (newRow : w.db.row new.instanceId = some new)
    (inTime : overdue w.db old new.instanceId w.now = false) :
    Leads (Stuck act w) w (resolveUpgrade manifest o w.db old new true >>= commit)
      (fun _ => Path manifest w act w) (Path manifest w act w) := by
  have upgrading : old.state = .upgrading := (wf.upgrading _ _ row).mpr (by simp [pending])
  simp only [resolveUpgrade, if_true]
  by_cases states : new.state ≠ .deploying ∧ new.state ≠ .running
  · rw [if_pos states]
    exact follow (illegal_refused .refl) fun _ _ => False.elim
  rw [if_neg states, if_neg (fun not => not upgrading)]
  simp only [bind_assoc]
  refine follow (raised (confirmed_calls newRow).exactly fun _ calls => .one (.calls calls)) ?_
  rintro confirmed s ⟨⟨calls, is'⟩, took⟩
  have takes : Takes manifest o w old new := ⟨row, pending, newRow, ⟨_, _, took⟩, inTime⟩
  have path : Path manifest w act w s := .one (.calls calls)
  have ran : new.state = .running ∧ confirmed = new ∨ new.state = .deploying ∧ ∃ set,
      confirmed = { new with state := .running, rappLimitsSet := set } ∧
        (((manifest new.packageId).declared = true → o.tells new = true) →
          Safe manifest s.platform new) := by
    rcases is' with ⟨not, same⟩ | deployed
    · refine .inl ⟨?_, same⟩
      by_contra not'
      exact states ⟨not, not'⟩
    · exact .inr deployed
  have id : confirmed.instanceId = new.instanceId := by
    rcases ran with ⟨-, rfl⟩ | ⟨-, set, rfl, -⟩ <;> rfl
  refine follow (raised (fire_ok _) fun _ same => same ▸ path) ?_
  rintro _ _ ⟨next, fires, rfl, rfl⟩
  refine follow drew ?_
  rintro _ _ ⟨rfl, rfl⟩
  refine follow (called _) ?_
  rintro _ _ rfl
  rw [pure_bind, ← calls.db]
  by_cases named : ∃ other, s.db.row other.instanceId = some other ∧
      other.pendingUpgradeInstanceId = some old.instanceId
  · obtain ⟨other, there, names⟩ := named
    have apart : other.instanceId ≠ confirmed.instanceId := by
      rw [id]
      intro same
      have alone := wf.alone newRow (by rcases ran with ⟨state, -⟩ | ⟨state, -⟩ <;> simp [state])
      rw [calls.db, same, newRow] at there
      obtain rfl := Option.some.inj there
      cases alone.symm.trans names
    have refused := @replaced_refused s o old confirmed other (path.wf wf) there names apart
    have stuck : Stuck act w := ⟨_, other, _, old, calls.db ▸ there, names, row,
      .inl ⟨⟨o, is⟩, by simp [pending]⟩⟩
    refine (commits.because fun _ => stuck).weaken ?_ ?_
    · rintro _ _ ⟨-, intact⟩
      cases refused.symm.trans intact
    · rintro _ ⟨rfl, -⟩
      have killed := teardown_killed o old s.platform
      exact path.tail (.refused is calls.db.symm takes there names killed (Nat.le_succ _))
  · have unnamed : ∀ id other, s.db.row id = some other →
        other.pendingUpgradeInstanceId ≠ some old.instanceId := by
      rintro id other there names
      exact named ⟨other, (Db.row_id there).symm ▸ there, names⟩
    have move : Path manifest w act w (replaced o s old confirmed) :=
      path.tail (.committed is (calls.db ▸ row) pending (calls.db ▸ newRow) ran takes
        calls.db.symm unnamed)
    refine (committed (move.wf wf).references).weaken ?_ fun _ h => h
    rintro _ _ rfl
    exact move

theorem resolveUpgradeOutcome_path (wf : Wf w) {succeeded : Bool}
    (is : act = .resolve o id succeeded) :
    Leads (Stuck act w) w (resolveUpgradeOutcome manifest o id succeeded) (fun _ => Path manifest w act w)
      (Path manifest w act w) := by
  refine follow (raised getOr404_ok fun _ same => same ▸ .refl) ?_
  rintro old w ⟨rfl, row⟩
  obtain rfl := Db.row_id row
  cases pending : old.pendingUpgradeInstanceId with
  | none => exact refuses .refl
  | some newId =>
    refine follow (raised (sweeps_row wf row) fun _ => False.elim) ?_
    rintro _ s (⟨rfl, same, inTime⟩ | ⟨rfl, new, due, rfl⟩)
    · subst same
      refine follow (raised getOr404_ok fun _ same => same ▸ .refl) ?_
      rintro new w ⟨rfl, newRow⟩
      obtain rfl := Db.row_id newRow
      have upgrading : old.state = .upgrading := (wf.upgrading _ _ row).mpr (by simp [pending])
      cases succeeded with
      | false =>
        refine reads (follow (raised (rollBack_ok upgrading w.db _) fun _ => False.elim) ?_)
        rintro _ _ ⟨rfl, rfl⟩
        have move : Path manifest w act w (rolled o w old new .upgradeRollback) :=
          .one (.rolledBack row pending newRow)
        refine (committed (move.wf wf).references).weaken ?_ fun _ h => h
        rintro _ _ rfl
        exact move
      | true =>
        refine reads (resolveUpgrade_path wf is row pending newRow ?_)
        by_contra due
        exact inTime new ⟨pending, newRow, upgrading, by simpa using due⟩
    · have move : Path manifest w act w (rolled o w old new .upgradeTimeout) :=
        .one (.rolledBack row due.1 due.2.1)
      rw [if_pos rfl]
      exact Leads.ite (fun _ => refuses move) fun _ => returns _ move

theorem terminateInstance_path (wf : Wf w) (is : act = .terminate o id) :
    Leads False w (terminateInstance o id) (fun _ => Path manifest w act w)
      (Path manifest w act w) := by
  refine follow (loadInstance_ok wf) ?_
  intro inst s loaded
  have path : Path manifest w act w s := loaded.path wf
  refine reads ?_
  cases owns : (upgradeOwner s.db inst).filter (·.instanceId ≠ inst.instanceId) with
  | some owner => exact refuses path
  | none =>
    refine follow (raised (fire_ok _) fun _ same => same ▸ path) ?_
    rintro _ _ ⟨next, fires, rfl, rfl⟩
    obtain ⟨legal, -, rfl⟩ := fires_from fires
    refine follow (called _) ?_
    rintro _ _ rfl
    obtain rfl := Db.row_id loaded.row
    have unowned : ∀ id other, s.db.row id = some other →
        other.pendingUpgradeInstanceId ≠ some inst.instanceId := by
      intro id other there names
      have alone := (loaded.wf wf).alone loaded.row legal
      cases owner : upgradeOwner s.db inst with
      | none => exact (upgradeOwner_none loaded.row owner).2 id other there names
      | some owner' =>
        obtain ⟨ownerRow, own⟩ := upgradeOwner_some (loaded.wf wf) loaded.row owner
        rcases own with ⟨rfl, pending⟩ | ⟨-, pending⟩
        · simp [alone] at pending
        · rw [owner, Option.filter_eq_none_iff] at owns
          have same : owner'.instanceId = inst.instanceId := by simpa using owns owner' rfl
          exact (loaded.wf wf).apart _ _ ownerRow (pending.trans (congrArg some same.symm))
    have moved : Path manifest w act w { s with
        db := s.db.put { inst with
          state := .undeployed, oauthClientId := none
          lastTeardown := some (released o inst .terminate)
          packageUsageRegistrationId := usageLeft o inst }
        platform := releaseInstanceResources o inst (terminateSideEffects o inst s.platform) } :=
      path.tail (.terminated loaded.row legal unowned rfl rfl rfl rfl is ⟨_, _, rfl⟩)
    exact reads (lands wf moved)

theorem deleteInstance_path (wf : Wf w) (is : act = .delete o id) : Leads (Stuck act w) w (deleteInstance o id)
    (fun _ => Path manifest w act w) (Path manifest w act w) := by
  refine follow (loadInstance_ok wf).sure ?_
  intro inst s loaded
  have path : Path manifest w act w s := loaded.path wf
  refine Leads.ite (fun _ => refuses path) fun undeployed => reads ?_
  obtain rfl := Db.row_id loaded.row
  have stuck : (s.db.remove inst.instanceId).references = false → Stuck act w := by
    intro broken
    by_contra not
    have same := loaded.unswept wf (by simp [show inst.state = .undeployed by simpa using undeployed])
    have row : w.db.row inst.instanceId = some inst := same ▸ loaded.row
    have left := (loaded.wf wf).remove fun id other _ there names =>
      not ⟨id, other, _, inst, loaded.named there names, names, row, .inr (by simpa using undeployed)⟩
    cases broken.symm.trans left.references
  refine (commits.because stuck).weaken ?_ ?_
  · rintro _ _ ⟨rfl, intact⟩
    refine path.tail (.deleted is loaded.row (by simpa using undeployed) fun id other there names => ?_)
    have left : id ≠ inst.instanceId := by
      rintro rfl
      exact (loaded.wf wf).apart _ _ there names
    have stays : (s.db.remove inst.instanceId).row id = some other := by
      rw [Db.row_remove, if_neg left]
      exact there
    have all := List.all_eq_true.mp intact other (Table.mem_of_get stays)
    rw [names, Option.all_some, Db.row_remove, if_pos rfl] at all
    cases all
  · rintro _ ⟨rfl, -⟩
    exact path

theorem setConfig_path (wf : Wf w) {config : Json.Value} (is : act = .setConfig caller id config) :
    Leads False w (setConfig caller id config) (fun _ => Path manifest w act w)
      (Path manifest w act w) := by
  refine follow (raised getOr404_ok fun _ same => same ▸ .refl) ?_
  rintro inst w ⟨rfl, row⟩
  refine follow (raised ownInstanceOrOperator_ok fun _ same => same ▸ .refl) ?_
  rintro _ w ⟨rfl, -⟩
  obtain rfl := Db.row_id row
  have moved : Path manifest w act w
      { w with db := w.db.put { inst with configuration := some config } } := .one (.configured is row)
  exact reads (lands wf moved)

theorem reportFault_path (wf : Wf w) {critical : Bool} (is : act = .reportFault o caller id critical) :
    Leads False w (reportFault o caller id critical) (fun _ => Path manifest w act w)
      (Path manifest w act w) := by
  refine follow (loadInstance_ok wf) ?_
  intro inst s loaded
  have path : Path manifest w act w s := loaded.path wf
  refine follow (raised ownInstanceOrOperator_ok fun _ same => same ▸ path) ?_
  rintro _ s ⟨rfl, own⟩
  refine Leads.ite (fun critical => ?_) fun _ => returns _ path
  refine follow (raised (fire_ok _) fun _ same => same ▸ path) ?_
  rintro _ _ ⟨next, fires, rfl, rfl⟩
  obtain ⟨running, rfl⟩ := fires_from fires
  obtain rfl := Db.row_id loaded.row
  subst critical
  have moved : Path manifest w act w { s with
      db := s.db.put { inst with state := .faulted }
      platform := reconsiderRegistrations o inst s.platform } :=
    path.tail (.crashed is loaded.row running own loaded.loads)
  exact reads (lands wf moved)

/-- The rows that a list read and did not sweep yet: each is as it was, or was removed as the
replacement of another, and nobody else names its replacement. -/
structure Unswept (w s : World) (rest : List RAppInstance) : Prop where
  distinct : (rest.map (·.instanceId)).Nodup
  row : ∀ old ∈ rest, w.db.row old.instanceId = some old
  kept : ∀ old ∈ rest, s.db.row old.instanceId = some old ∨ s.db.row old.instanceId = none ∧
    ∃ id other, w.db.row id = some other ∧ other.pendingUpgradeInstanceId = some old.instanceId
  there : ∀ old ∈ rest, ∀ next, old.pendingUpgradeInstanceId = some next →
    (s.db.row next).isSome ∧ ∀ id other, s.db.row id = some other →
      other.pendingUpgradeInstanceId = some next → id = old.instanceId

theorem Unswept.tail {old : RAppInstance} (unswept : Unswept w s (old :: rest)) :
    Unswept w s rest where
  distinct := (List.nodup_cons.mp unswept.distinct).2
  row other mem := unswept.row other (List.mem_cons_of_mem _ mem)
  kept other mem := unswept.kept other (List.mem_cons_of_mem _ mem)
  there other mem := unswept.there other (List.mem_cons_of_mem _ mem)

theorem rolled_row_other {old new : RAppInstance} (apart : id ≠ old.instanceId)
    (left : id ≠ new.instanceId) : (rolled o s old new reason).db.row id = s.db.row id := by
  show ((s.db.put (backAgain o old (some new) reason)).remove new.instanceId).row id = _
  rw [Db.row_remove, if_neg left, Db.row_put, if_neg]
  exact apart.symm

theorem Unswept.rolled {old new : RAppInstance} (wf : Wf w) (unswept : Unswept w s (old :: rest))
    (pending : old.pendingUpgradeInstanceId = some new.instanceId) :
    Unswept w (rolled o s old new reason) rest := by
  have later := unswept.tail
  have oldRow := unswept.row old List.mem_cons_self
  have others : ∀ other ∈ rest, other.instanceId ≠ old.instanceId := fun other mem same =>
    (List.nodup_cons.mp unswept.distinct).1 (List.mem_map.mpr ⟨other, mem, same⟩)
  refine ⟨later.distinct, later.row, fun other mem => ?_, fun other mem next names => ⟨?_, ?_⟩⟩
  · by_cases left : other.instanceId = new.instanceId
    · refine .inr ⟨?_, old.instanceId, old, oldRow, left ▸ pending⟩
      rw [left]
      exact (Db.row_remove _).trans (if_pos rfl)
    · rw [rolled_row_other (others other mem) left]
      exact later.kept other mem
  · have apart : next ≠ new.instanceId := by
      rintro rfl
      exact others other mem (wf.owners _ _ _ _ _ (later.row other mem) oldRow names pending)
    show (((s.db.put _).remove new.instanceId).row next).isSome = true
    rw [Db.row_remove, if_neg apart, isSome_put]
    exact (later.there other mem next names).1
  · intro id found row its
    obtain ⟨-, ⟨-, rfl⟩ | ⟨-, before⟩⟩ := rolled_row row
    · cases its
    · exact (later.there other mem next names).2 id found before its

theorem sweepEach_path (wf : Wf w) (path : Path manifest w act w s) (unswept : Unswept w s rest) :
    Leads False s (sweepEach o rest)
      (fun _ => Path manifest w act w) (Path manifest w act w) := by
  induction rest generalizing s with
  | nil => exact returns _ path
  | cons old rest ih =>
    rcases unswept.kept old List.mem_cons_self with row | ⟨gone, id, owner, ownerRow, names⟩
    · refine follow (raised (sweeps_row (path.wf wf) row) fun _ => False.elim) ?_
      rintro _ _ (⟨rfl, rfl, -⟩ | ⟨rfl, new, due, rfl⟩)
      · exact ih path unswept.tail
      · exact ih (path.tail (.rolledBack row due.1 due.2.1)) (unswept.rolled wf due.1)
    · have abandoned : ∀ new, Due s old new →
          Path manifest w act w (rolled o s old new .upgradeTimeout) := fun new due => by
        refine path.tail (.abandoned (unswept.row old List.mem_cons_self)
          ⟨id, owner, ownerRow, names⟩ gone due.1 due.2.1 fun id other there its => ?_)
        obtain rfl := (unswept.there old List.mem_cons_self _ due.1).2 id other there its
        cases gone.symm.trans there
      refine follow (raised (sweeps (fun next pending => ?_) fun new due => ?_) fun _ => False.elim) ?_
      · exact (unswept.there old List.mem_cons_self next pending).1
      · exact ((abandoned new due).wf wf).references
      · rintro _ _ (⟨rfl, rfl, -⟩ | ⟨rfl, new, due, rfl⟩)
        · exact ih path unswept.tail
        · exact ih (abandoned new due) (unswept.rolled wf due.1)

theorem listInstances_path (wf : Wf w) : Leads False w (listInstances o)
    (fun _ => Path manifest w act w) (Path manifest w act w) := by
  have row : ∀ old ∈ w.db.instances.filter (·.state = .upgrading),
      w.db.row old.instanceId = some old := fun old mem =>
    Db.row_of_mem wf.distinct (List.mem_filter.mp mem).1
  refine reads (sweepEach_path wf .refl ⟨?_, row, fun old mem => .inl (row old mem), ?_⟩)
  · exact (List.filter_sublist.map _).nodup wf.distinct
  · exact fun old mem next pending => ⟨wf.pendingThere _ _ next (row old mem) pending,
      fun id other there its => wf.owners _ _ _ _ next there (row old mem) its pending⟩

theorem getInstance_path (wf : Wf w) : Leads False w (getInstance o id)
    (fun _ => Path manifest w act w) (Path manifest w act w) := by
  refine follow (loadInstance_ok wf) ?_
  intro inst s loaded
  exact returns _ (loaded.path wf)

theorem request_path (wf : Wf w) : Leads (Stuck act w) w (request manifest act)
    (fun _ => Path manifest w act w) (Path manifest w act w) := by
  cases act with
  | create o body => exact (createInstance_path wf body).sure
  | credentials o id => exact (issueInstanceCredentials_path wf rfl).sure
  | kill o id => exact (killInstance_path wf).sure
  | liftKill o id => exact (liftInstanceKill_path wf rfl).sure
  | killAll o => exact (killAllInstances_path wf).sure
  | resumeAll o => exact (resumeAllInstances_path wf rfl).sure
  | bootstrapComplete o caller id => exact (bootstrapComplete_path wf rfl).sure
  | recover o id => exact (recoverInstance_path wf rfl).sure
  | upgrade o id newPackageId => exact (upgradeInstance_path wf rfl).sure
  | resolve o id succeeded => exact resolveUpgradeOutcome_path wf rfl
  | rollback o id => exact (rollbackInstance_path wf rfl).sure
  | terminate o id => exact (terminateInstance_path wf rfl).sure
  | delete o id => exact deleteInstance_path wf rfl
  | setConfig caller id config => exact (setConfig_path wf rfl).sure
  | reportFault o caller id critical => exact (reportFault_path wf rfl).sure
  | read o id => exact (getInstance_path wf).sure
  | list o => exact (listInstances_path wf).sure
  | pass time =>
    rintro _ rfl
    exact .one (.passed time rfl)

theorem after_path (wf : Wf w) (act : Act) : Path manifest w act w (after manifest w act) := by
  have ended := @request_path manifest w act wf w rfl
  simp only [after]
  cases is : request manifest act w with
  | ok value s =>
    rw [is] at ended
    exact ended
  | error failure s =>
    rw [is] at ended
    exact ended.1

theorem request_intact (wf : Wf w) (act : Act) (free : ¬Stuck act w) (s : World) :
    request manifest act w ≠ .error .integrity s := by
  intro failed
  have ended := @request_path manifest w act wf w rfl
  rw [failed] at ended
  exact free (ended.2 rfl)

theorem Wf.empty (p : Platform) (now drawn : Nat) : Wf { db := {}, platform := p, now, drawn } := by
  have none : ∀ id, ({} : Db).row id = none := fun _ => rfl
  constructor <;> simp [none]

end Routes

end Smo.RappMgmt
