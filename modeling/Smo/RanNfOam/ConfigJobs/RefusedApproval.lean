import Smo.RanNfOam.ConfigJobs.Performed

/-! What a refused approval of a held job leaves of it: the kill switch is asked when the decision is
already in the session, and its refusal commits it. -/
namespace Smo.RanNfOam.ConfigJobs

open Transaction

section Sparing

variable {σ : Type} {o1 : O1Clients σ} {site : Site} {now : Time} {jr : JobRows} {left : Store}
  {s : Session Store (Wire σ)} {α : Type}

def Unsaved (left : Store) (s : Session Store (Wire σ)) : Prop := s.committed = left

def Spares (x : Db σ α) : Prop :=
  ∀ left, Ensures (Unsaved left) x (fun _ _ => True) (Unsaved left)

theorem update_unsaved (f : Store → Store) :
    Ensures (Unsaved left) (update f : Db σ Unit) (fun _ => Unsaved left) (Unsaved left) :=
  fun _ same => same

theorem raise_unsaved (exc : Raised) {post : α → Session Store (Wire σ) → Prop} :
    Ensures (Unsaved left) (throw exc : Db σ α) post (Unsaved left) :=
  fun _ same => same

theorem waves_undo (runs : jr.job.status = .processing) (alarms : List Alarm) :
    Ensures (Unsaved left) (outside (advanceWaves o1 site now jr alarms) : Db σ Advanced)
      (fun ran t => (ran.undo ≠ none → ran.jr.job.status = .processing) ∧ Unsaved left t)
      (Unsaved left) := by
  apply Ensures.each
  intro s same
  have ran : Ensures (Wire.Log s.world.sent s.world.fresh) (advanceWaves o1 site now jr alarms)
      (Ran o1 now jr s.world.sent s.world.fresh) (Lost o1 now jr s.world.sent s.world.fresh) :=
    advanceWaves_ran runs
  refine Ensures.outside ran ?_ ?_ ?_
  · rintro _ rfl
    exact ⟨rfl, rfl⟩
  · rintro _ ran w rfl ⟨_, _, undo, _⟩
    refine ⟨fun due => ?_, same⟩
    by_contra stopped
    exact due (undo.mpr stopped)
  · rintro _ w rfl _
    exact same

theorem advanceWith_spares {revert : JobRows → String → Db σ JobRows}
    (reverts : ∀ ran failure, ran.job.status = .processing → Spares (revert ran failure))
    (runs : jr.job.status = .processing) : Spares (advanceWith o1 site now revert jr) := by
  intro left
  unfold advanceWith
  apply Ensures.each
  intro s same
  apply Ensures.reads
  apply ((waves_undo runs _).of_pre fun _ is => is ▸ same).bind
  intro ran
  apply Ensures.of_fact
  intro running
  apply (update_unsaved _).bind
  intro _
  cases failed : ran.undo with
  | none => exact fun _ _ => trivial
  | some failure => exact reverts ran.jr failure (running (by simp [failed])) left

theorem executeUndo_made (job : WriteConfigJob) (changes : List Change) :
    Ensures (Unsaved left)
      (executeUndo o1 site now (undoRequest job changes) { rollbackOf := some job.jobId })
      (fun written _ => ∃ undo, written = .made undo) (Unsaved left) := by
  unfold executeUndo executeWriteWith
  have checked : Ensures (Unsaved left) (orThrow (checkWrite site (undoRequest job changes)) :
      Db σ Unit) (fun _ => Unsaved left) (Unsaved left) := by
    cases checkWrite site (undoRequest job changes) with
    | ok => exact fun _ same => same
    | error => exact raise_unsaved _
  apply checked.bind
  intro _
  apply Ensures.ite
  · exact nofun
  intro _
  apply Ensures.ite
  · exact fun _ => raise_unsaved _
  intro _
  unfold makeJobWith
  have numbered : Ensures (Unsaved left) (newId : Db σ Nat) (fun _ => Unsaved left)
      (Unsaved left) := fun _ same => same
  apply numbered.bind
  intro jobId
  apply (update_unsaved _).bind
  intro _
  have closed : Ensures (Unsaved left) (closeApproved none jobId : Db σ Unit)
      (fun _ => Unsaved left) (Unsaved left) := fun _ same => same
  apply closed.bind
  intro _
  have advances : Spares (advanceWith o1 site now (fun _ _ => throw .keyError)
      (newJob now (undoRequest job changes) { rollbackOf := some job.jobId } jobId)) :=
    advanceWith_spares (fun _ _ _ _ => raise_unsaved _) rfl
  apply (advances left).bind
  exact fun _ _ _ => ⟨_, rfl⟩

theorem autoRevert_spares (failure : String) (runs : jr.job.status = .processing) :
    Spares (autoRevert o1 site now jr failure) := by
  intro left
  unfold autoRevert autoRevertWith
  have halts (detail : String) : Ensures (fun _ => True)
      (do keep (← orRaise (halt jr .revertRefused (some detail))) : Db σ JobRows)
      (fun _ _ => True) (Unsaved left) := by
    rw [halt_ok runs]
    exact fun _ _ => trivial
  have reads : Ensures (Unsaved left) (networkNow : Db σ σ) (fun _ => Unsaved left)
      (Unsaved left) := fun _ same => same
  apply reads.bind
  intro network
  apply Ensures.ite
  · exact fun _ => (halts _).of_pre fun _ _ => trivial
  intro _
  apply (executeUndo_made jr.job _).bind
  intro written
  apply Ensures.each
  rintro s ⟨undo, rfl⟩
  apply Ensures.ite
  · exact fun _ => (halts _).of_pre fun _ _ => trivial
  intro _
  have undone : ({ jr with
      job := { jr.job with
        haltedReason := some .gateFailed
        haltedDetail := some s!"{failure}; reverted by job {undo.job.jobId}" }
      rows := jr.rows.map undoneRow } : JobRows).job.status = .processing := runs
  obtain ⟨state, -, -, ended⟩ := finish_ok undone
  rw [ended]
  exact fun _ _ => trivial

end Sparing

section Approvals

variable {σ : Type} {o1 : O1Clients σ} {site : Site} {now : Time} {jr : JobRows} {store : Store}
  {request : Request} {jobId : Nat} {body : ApprovalDecisionRequest} {name : String} {world : Wire σ}

/-- The call names its decider, who is the signed-in user where the gateway vouches for one. -/
structure Decides (site : Site) (request : Request) (claimed : Option String) (name : String) :
    Prop where
  named : verifiedDecider request claimed = some name
  same : request.role = .internal → ∀ given ∈ claimed, samePerson site given name = true

structure InReach (site : Site) (store : Store) (request : Request) (jr : JobRows) : Prop where
  owned : request.ownJobsOnly = true →
    jobOwnedBy store request.invokerId store.jobs.length jr.job = true
  scope : deniedRefs site.registry request.scope (jr.rows.map (·.managedElementRef)) = []

structure Checked (site : Site) (store : Store) (request : Request)
    (body : ApprovalDecisionRequest) (jr : JobRows) (name : String) : Prop where
  person : request.role ≠ .rapp
  decides : Decides site request body.decidedBy name
  reach : InReach site store request jr

structure Stopped (now : Time) (store : Store) (jr : JobRows) : Prop where
  inside : windowOver now jr.job.windowEnd = false
  opened : jr.job.scheduledAt.any (now < ·) = false
  killed : ∃ rapp kill, jr.job.invokerId = some rapp ∧ store.killOf rapp = some kill

/-- An approval by someone who may decide the job, of a stopped rApp's job that may run now. -/
structure ApprovesStopped (site : Site) (now : Time) (store : Store) (request : Request)
    (body : ApprovalDecisionRequest) (jr : JobRows) (name : String) : Prop where
  checked : Checked site store request body jr name
  outsider : Outsider site name jr.job.requestedBy jr.job.invokerId
  stopped : Stopped now store jr

theorem job?_put (found : store.job? jobId = some jr) {after : JobRows}
    (same : after.job.jobId = jr.job.jobId) : (store.put after).job? jobId = some after := by
  obtain ⟨-, rfl⟩ := job?_mem found
  have matched : ((fun old : JobRows => decide (old.job.jobId = jr.job.jobId)) ∘
      fun old : JobRows => if old.job.jobId = after.job.jobId then after else old) =
      fun old => decide (old.job.jobId = jr.job.jobId) := by
    funext old
    simp only [Function.comp, same]
    split
    next is => simp [same, is]
    next => rfl
  have found' : store.jobs.find? (fun old => decide (old.job.jobId = jr.job.jobId)) = some jr := found
  rw [Store.job?, Store.put, replaceJob, List.find?_map, matched, found', Option.map_some,
    if_pos same.symm]

variable {s : Session Store (Wire σ)}

theorem decider_decides (claimed : Option String) :
    Ensures (· = s) (decider site request claimed : Db σ String)
      (fun name t => Decides site request claimed name ∧ t = s)
      (fun t => (¬∃ name, Decides site request claimed name) ∧ t = s) := by
  unfold decider
  apply Ensures.ite
  · intro internal
    cases verified : request.actingUser with
    | none =>
      rintro _ rfl
      refine ⟨?_, rfl⟩
      rintro ⟨name, named, -⟩
      rw [verifiedDecider, if_pos internal, verified] at named
      cases named
    | some user =>
      dsimp only
      apply Ensures.ite
      · rintro other _ rfl
        refine ⟨?_, rfl⟩
        rintro ⟨name, named, same⟩
        rw [verifiedDecider, if_pos internal, verified, Option.some.injEq] at named
        subst named
        obtain ⟨given, claims, differs⟩ := (Option.any_eq_true _ _).mp other
        rw [same internal given claims] at differs
        cases differs
      · rintro known _ rfl
        refine ⟨⟨by rw [verifiedDecider, if_pos internal, verified], fun _ given claims => ?_⟩, rfl⟩
        rw [Option.mem_def.mp claims] at known
        simpa using known
  · intro outside
    cases claimed with
    | none =>
      rintro _ rfl
      refine ⟨?_, rfl⟩
      rintro ⟨name, named, -⟩
      rw [verifiedDecider, if_neg outside] at named
      cases named
    | some name =>
      rintro _ rfl
      exact ⟨⟨by rw [verifiedDecider, if_neg outside], fun internal => absurd internal outside⟩, rfl⟩

theorem jobInReach_reaches (found : store.job? jobId = some jr) (requestedBy : Option String) :
    Ensures (· = ⟨store, store, world⟩)
      (jobInReach site now request jobId requestedBy : Db σ JobRows)
      (fun reached t => (reached = jr ∧ InReach site store request jr) ∧ t = ⟨store, store, world⟩)
      (fun t => ¬InReach site store request jr ∧ t.committed.job? jobId = some jr) := by
  unfold jobInReach
  apply Ensures.reads
  simp only [found]
  apply Ensures.ite
  · rintro foreign _ rfl
    simp only [Bool.and_eq_true, Bool.not_eq_true'] at foreign
    exact ⟨fun reach => by simp [reach.owned foreign.1] at foreign, found⟩
  intro owned
  apply Ensures.ite
  · rintro inside _ rfl
    refine ⟨⟨rfl, fun own => ?_, inside⟩, rfl⟩
    simpa [own] using owned
  · intro outside
    have denied : ¬InReach site store request jr := fun reach => outside reach.scope
    cases request.invokerId with
    | none =>
      rintro _ rfl
      exact ⟨denied, found⟩
    | some rapp =>
      rintro _ rfl
      exact ⟨denied, found⟩

theorem waitingJob_checked (found : store.job? jobId = some jr)
    (waits : jr.job.status = .pendingApproval) :
    Ensures (· = ⟨store, store, world⟩)
      (waitingJob site now request jobId body [.pendingApproval] : Db σ (JobRows × String))
      (fun found t => (found.1 = jr ∧ Checked site store request body jr found.2) ∧
        t = ⟨store, store, world⟩)
      (fun t => (¬∃ name, Checked site store request body jr name) ∧
        t.committed.job? jobId = some jr) := by
  unfold waitingJob
  apply Ensures.ite
  · rintro rapp _ rfl
    exact ⟨fun ⟨name, checked⟩ => checked.person rapp, found⟩
  intro person
  apply ((decider_decides body.decidedBy).weaken (fun _ same => same) (fun _ _ decided => decided)
    ?_).bind
  · intro name
    apply Ensures.of_fact
    intro decides
    apply ((jobInReach_reaches found _).weaken (fun _ same => same) (fun _ _ reached => reached)
      ?_).bind
    · intro reached
      apply Ensures.of_fact
      rintro ⟨rfl, reach⟩
      rw [waits, if_pos (List.mem_singleton.mpr rfl)]
      exact fun _ same => ⟨⟨rfl, person, decides, reach⟩, same⟩
    · rintro t ⟨denied, left⟩
      exact ⟨fun ⟨name, checked⟩ => denied checked.reach, left⟩
  · rintro _ ⟨nobody, rfl⟩
    exact ⟨fun ⟨name, checked⟩ => nobody ⟨name, checked.decides⟩, found⟩

/-- What a refusal leaves of the job: the decision in it where the rApp is stopped, else all as it
was. -/
def Leaves (stops : Prop) (jobId : Nat) (jr decided : JobRows) (left : Store) : Prop :=
  (stops ∧ left.job? jobId = some decided) ∨ (¬stops ∧ left.job? jobId = some jr)

theorem refuseIfKilled_leaves (found : store.job? jobId = some jr) (decider : String) (reason : Option String)
    (inside : windowOver now jr.job.windowEnd = false)
    (opened : jr.job.scheduledAt.any (now < ·) = false) :
    Ensures (· = ⟨store.put (decidedJob now jr decider reason), store, world⟩)
      (refuseIfKilled now jr.job.invokerId (some jr.job.requestedBy) : Db σ Unit)
      (fun _ t => ¬Stopped now store jr ∧
        t = ⟨store.put (decidedJob now jr decider reason), store, world⟩)
      (fun t => Leaves (Stopped now store jr) jobId jr (decidedJob now jr decider reason)
        t.committed) := by
  unfold refuseIfKilled
  apply Ensures.reads
  cases invoker : jr.job.invokerId with
  | none =>
    rintro _ rfl
    refine ⟨fun stopped => ?_, rfl⟩
    obtain ⟨rapp, kill, is, -⟩ := stopped.killed
    rw [invoker] at is
    cases is
  | some rapp =>
    have kills : (store.put (decidedJob now jr decider reason)).killOf rapp = store.killOf rapp := rfl
    dsimp only
    rw [kills]
    cases killed : store.killOf rapp with
    | none =>
      rintro _ rfl
      refine ⟨fun stopped => ?_, rfl⟩
      obtain ⟨other, kill, is, by_⟩ := stopped.killed
      rw [invoker, Option.some.injEq] at is
      rw [← is, killed] at by_
      cases by_
    | some kill =>
      rintro _ rfl
      exact .inl ⟨⟨inside, opened, rapp, kill, invoker, killed⟩, job?_put found rfl⟩

theorem approveWindow_leaves (found : store.job? jobId = some jr)
    (waits : jr.job.status = .pendingApproval) (decider : String) (reason : Option String) :
    Ensures (· = ⟨store, store, world⟩) (approveWindow o1 site now jr decider reason)
      (fun _ _ => True)
      (fun t => Leaves (Stopped now store jr) jobId jr (decidedJob now jr decider reason)
        t.committed) := by
  unfold approveWindow approveWindowWith
  apply Ensures.ite
  · rintro closed _ rfl
    exact .inr ⟨fun stopped => by simp [stopped.inside] at closed, found⟩
  intro inside
  apply (keep_at _).bind
  intro decided
  apply Ensures.of_fact
  rintro rfl
  have fired (event : JobEvent) : writeConfigJobFsm.fire
      (decidedJob now jr decider reason).job.status event =
        writeConfigJobFsm.fire .pendingApproval event :=
    congrArg (writeConfigJobFsm.fire · event) waits
  apply Ensures.ite
  · intro _
    rw [fired]
    exact fun _ _ => trivial
  intro opened
  have opened : jr.job.scheduledAt.any (now < ·) = false := Bool.eq_false_iff.mpr opened
  apply (refuseIfKilled_leaves found decider reason (by simpa using inside) opened).bind
  intro _
  apply Ensures.of_fact
  intro runs
  rw [fired]
  have advances : Spares (advanceWith o1 site now (autoRevert o1 site now)
      (startedJob now (decidedJob now jr decider reason) .processing)) :=
    advanceWith_spares (fun _ failure => autoRevert_spares failure) rfl
  have spared : Ensures (Unsaved store) (do
      advanceWith o1 site now (autoRevert o1 site now)
        (← keep (startedJob now (decidedJob now jr decider reason) .processing)) : Db σ JobRows)
      (fun _ _ => True) (Unsaved store) := by
    have kept : Ensures (Unsaved store)
        (keep (startedJob now (decidedJob now jr decider reason) .processing) : Db σ JobRows)
        (fun kept t => kept = startedJob now (decidedJob now jr decider reason) .processing ∧
          Unsaved store t) (Unsaved store) := fun _ same => ⟨rfl, same⟩
    apply kept.bind
    intro started
    apply Ensures.of_fact
    rintro rfl
    exact advances store
  exact spared.weaken (fun _ same => same ▸ rfl) (fun _ _ _ => trivial) fun t same =>
    .inr ⟨runs, same ▸ found⟩

theorem Checked.unique {other : String} (checked : Checked site store request body jr name)
    (checked' : Checked site store request body jr other) : other = name :=
  Option.some.inj (checked'.decides.named.symm.trans checked.decides.named)

theorem approve_leaves (found : store.job? jobId = some jr)
    (waits : jr.job.status = .pendingApproval) :
    Ensures (· = ⟨store, store, world⟩) (approveConfigurationJob o1 site now request jobId body)
      (fun _ _ => True)
      (fun t => (∃ name, ApprovesStopped site now store request body jr name ∧
          t.committed.job? jobId = some (decidedJob now jr name body.reason)) ∨
        ((¬∃ name, ApprovesStopped site now store request body jr name) ∧
          t.committed.job? jobId = some jr)) := by
  unfold approveConfigurationJob
  apply ((waitingJob_checked found waits).weaken (fun _ same => same) (fun _ _ checked => checked)
    ?_).bind
  · rintro ⟨reached, name⟩
    apply Ensures.of_fact
    rintro ⟨rfl, checked⟩
    apply Ensures.ite
    · rintro self _ rfl
      refine .inr ⟨?_, found⟩
      rintro ⟨other, approves⟩
      obtain rfl := checked.unique approves.checked
      obtain ⟨requester, invoker⟩ := approves.outsider
      rw [Bool.or_eq_true] at self
      rcases self with isRequester | isInvoker
      · rw [requester] at isRequester
        cases isRequester
      · obtain ⟨rapp, is, same⟩ := (Option.any_eq_true _ _).mp isInvoker
        rw [invoker rapp is] at same
        cases same
    intro decides
    have outsider : Outsider site name reached.job.requestedBy reached.job.invokerId := by
      simpa [Outsider, Option.any_eq_false] using decides
    apply ((approveWindow_leaves found waits name body.reason).weaken (fun _ same => same)
      (fun _ _ answered => answered) ?_).bind
    · exact fun _ _ _ => trivial
    · rintro t (⟨stopped, left⟩ | ⟨runs, left⟩)
      · exact .inl ⟨name, ⟨checked, outsider, stopped⟩, left⟩
      · refine .inr ⟨?_, left⟩
        rintro ⟨_, approves⟩
        exact runs approves.stopped
  · rintro t ⟨nobody, left⟩
    refine .inr ⟨?_, left⟩
    rintro ⟨name, approves⟩
    exact nobody ⟨name, approves.checked⟩

/-- A refused approval leaves a held job and its changes as they were, unless it is the kill switch
that refuses it, and then only where the job holds that very decision already. -/
theorem refused_approval_iff (found : store.job? jobId = some jr)
    (waits : jr.job.status = .pendingApproval) {exc : Raised} {left : Store} {world' : Wire σ}
    (refused : Transaction.run (approveConfigurationJob o1 site now request jobId body) store world =
      (.error exc, left, world')) :
    left.job? jobId = some jr ↔ ∀ name, ApprovesStopped site now store request body jr name →
      decidedJob now jr name body.reason = jr := by
  obtain ⟨t, raised, rfl⟩ : ∃ t, approveConfigurationJob o1 site now request jobId body
      ⟨store, store, world⟩ = .error exc t ∧ t.committed = left := by
    unfold Transaction.run at refused
    split at refused
    next => cases refused
    next raised =>
      cases refused
      exact ⟨_, raised, rfl⟩
  rcases (approve_leaves found waits).error rfl raised with ⟨name, approves, is⟩ | ⟨nobody, is⟩
  · rw [is, Option.some.injEq]
    constructor
    · intro same other approves'
      obtain rfl := approves.checked.unique approves'.checked
      exact same
    · exact fun same => same name approves
  · exact iff_of_true is fun name approves => absurd ⟨name, approves⟩ nobody

/-- A job of `rapp-1` that waits for its approval. -/
def heldJob : JobRows :=
  newJob 0
    { requestedBy := "rapp-1", accessScope := "cell", requireApproval := true
      changes := [⟨"gnb-1", none, [("power", .number "1")], "merge"⟩] }
    { invoker := some "rapp-1" } 0

def approveHeld (by_ : String) : Db Unit JobRows :=
  approveConfigurationJob World.applying World.twoElements 1 {} 0
    { decidedBy := some by_, reason := some "fine" }

/-- Its own requester's approval leaves the job alone. -/
theorem self_approval_leaves : ∃ exc left world,
    Transaction.run (approveHeld " rapp-1") { jobs := [heldJob] } { network := () } =
      (.error exc, left, world) ∧ left.job? 0 = some heldJob := by
  have found : ({ jobs := [heldJob] } : Store).job? 0 = some heldJob := rfl
  have refused : Transaction.run (approveHeld " rapp-1") { jobs := [heldJob] } { network := () } =
      (.error (.problem ⟨.approvalSelfDecision, "the requester of a change cannot approve it"⟩),
        { jobs := [heldJob] }, { network := () }) := by
    rfl
  refine ⟨_, _, _, refused, (refused_approval_iff found rfl refused).mpr fun name approves => ?_⟩
  obtain ⟨rapp, kill, -, killed⟩ := approves.stopped.killed
  cases killed

/-- The approval of a stopped rApp's job is refused, and recorded in the job. -/
theorem stopped_approval_recorded : ∃ exc left world,
    Transaction.run (approveHeld "operator")
        { jobs := [heldJob], kills := [⟨"rapp-1", "admin", none, 0⟩] }
        { network := () } = (.error exc, left, world) ∧
      heldJob.job.status = .pendingApproval ∧ left.job? 0 ≠ some heldJob := by
  refine ⟨_, _, _, rfl, rfl, ?_⟩
  decide +kernel

end Approvals

end Smo.RanNfOam.ConfigJobs
