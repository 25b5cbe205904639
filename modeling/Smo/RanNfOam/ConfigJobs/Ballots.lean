import Smo.RanNfOam.ConfigJobs.Performed

/-! What the requests do to the approvals of rApp actions: the votes on each are of different
people who did not ask for it, and one that is approved has as many as it needs. -/
namespace Smo.RanNfOam.ConfigJobs

open Transaction

/-- The people who approved an action: those who voted where two are asked for, else whoever
decided. -/
def approvers (row : RAppActionApproval) : List String :=
  if row.requiredApprovals > 1 then row.approvals.map (·.decidedBy) else row.decidedBy.toList

/-- Whoever did not ask, going by the name as it is spelled; where two approvals are asked
for, in any spelling. -/
structure Neutral (site : Site) (required : Nat) (name requestedBy invokerId : String) : Prop where
  requester : name ≠ requestedBy
  invoker : name ≠ invokerId
  outsider : 1 < required → Outsider site name requestedBy (some invokerId)

structure Independent (site : Site) (required : Nat) (names : List String)
    (requestedBy invokerId : String) : Prop where
  different : names.Pairwise fun name other => samePerson site name other = false
  neutral : ∀ name ∈ names, Neutral site required name requestedBy invokerId

structure FourEyes (site : Site) (row : RAppActionApproval) : Prop where
  votes : Independent site row.requiredApprovals (row.approvals.map (·.decidedBy))
    row.requestedBy row.invokerId
  enough : row.status = .approved → row.requiredApprovals ≤ (approvers row).length ∧
    Independent site row.requiredApprovals (approvers row) row.requestedBy row.invokerId
  job : row.jobId.isSome → row.status = .approved

/-- An action is asked for once, by someone, and so many approvals are asked for it. -/
structure SameAsk (row row' : RAppActionApproval) : Prop where
  approvalId : row'.approvalId = row.approvalId
  requestedBy : row'.requestedBy = row.requestedBy
  invokerId : row'.invokerId = row.invokerId
  requiredApprovals : row'.requiredApprovals = row.requiredApprovals

theorem SameAsk.refl (row : RAppActionApproval) : SameAsk row row := ⟨rfl, rfl, rfl, rfl⟩

theorem SameAsk.trans {row row' row'' : RAppActionApproval} (first : SameAsk row row')
    (later : SameAsk row' row'') : SameAsk row row'' :=
  ⟨later.approvalId.trans first.approvalId, later.requestedBy.trans first.requestedBy,
    later.invokerId.trans first.invokerId, later.requiredApprovals.trans first.requiredApprovals⟩

/-- The approvals, numbered as they were asked for, with all that were asked for before. -/
structure Ballots (site : Site) (asked rows : List RAppActionApproval) : Prop where
  numbered : rows.map (·.approvalId) = List.range rows.length
  fourEyes : ∀ row ∈ rows, FourEyes site row
  kept : ∀ row ∈ asked, ∃ row' ∈ rows, SameAsk row row'

section Rows

variable {site : Site} {asked rows : List RAppActionApproval} {row row' : RAppActionApproval}

def putRow (rows : List RAppActionApproval) (row : RAppActionApproval) : List RAppActionApproval :=
  rows.map fun old => if old.approvalId = row.approvalId then row else old

theorem mem_putRow {other : RAppActionApproval} (mem : other ∈ putRow rows row) :
    other ∈ rows ∨ other = row := by
  obtain ⟨old, inside, rfl⟩ := List.mem_map.mp mem
  split
  next => exact .inr rfl
  next => exact .inl inside

theorem Ballots.same (ballots : Ballots site asked rows) (mem : row ∈ rows) (mem' : row' ∈ rows)
    (same : row.approvalId = row'.approvalId) : row = row' := by
  have distinct : (rows.map (·.approvalId)).Nodup := by
    rw [ballots.numbered]
    exact List.nodup_range
  exact List.inj_on_of_nodup_map distinct mem mem' same

theorem Ballots.put (ballots : Ballots site asked rows) (mem : row ∈ rows)
    (same : SameAsk row row') (eyes : FourEyes site row') :
    Ballots site asked (putRow rows row') := by
  refine ⟨?_, fun other inside => ?_, fun before inAsked => ?_⟩
  · rw [putRow, List.length_map, ← ballots.numbered, List.map_map]
    apply List.map_congr_left
    intro old _
    simp only [Function.comp]
    split
    next replaced => exact replaced.symm
    next => rfl
  · rcases mem_putRow inside with old | rfl
    · exact ballots.fourEyes other old
    · exact eyes
  · obtain ⟨now, inside, kept⟩ := ballots.kept before inAsked
    by_cases is : now.approvalId = row'.approvalId
    · have isRow := ballots.same inside mem (is.trans same.approvalId)
      subst isRow
      exact ⟨row', List.mem_map.mpr ⟨now, inside, if_pos is⟩, kept.trans same⟩
    · exact ⟨now, List.mem_map.mpr ⟨now, inside, if_neg is⟩, kept⟩

theorem Ballots.park (ballots : Ballots site asked rows)
    (isNext : row.approvalId = rows.length) (eyes : FourEyes site row) :
    Ballots site asked (rows ++ [row]) := by
  refine ⟨?_, fun other mem => ?_, fun before inAsked => ?_⟩
  · rw [List.map_append, ballots.numbered, List.length_append, List.length_singleton,
      List.range_succ, List.map_singleton, isNext]
  · rcases List.mem_append.mp mem with old | new
    · exact ballots.fourEyes other old
    · obtain rfl := List.mem_singleton.mp new
      exact eyes
  · obtain ⟨now, inside, kept⟩ := ballots.kept before inAsked
    exact ⟨now, List.mem_append_left _ inside, kept⟩

theorem FourEyes.open_ (eyes : FourEyes site row) (same : SameAsk row row')
    (votes : row'.approvals = row.approvals) (status : row'.status ≠ .approved)
    (jobId : row'.jobId = none) : FourEyes site row' := by
  refine ⟨?_, fun approved => absurd approved status, fun job => ?_⟩
  · rw [votes, same.requestedBy, same.invokerId, same.requiredApprovals]
    exact eyes.votes
  · rw [jobId] at job
    cases job

theorem Independent.add {required : Nat} {names : List String}
    {name requestedBy invokerId : String}
    (independent : Independent site required names requestedBy invokerId)
    (other : ∀ given ∈ names, samePerson site given name = false)
    (neutral : Neutral site required name requestedBy invokerId) :
    Independent site required (names ++ [name]) requestedBy invokerId := by
  refine ⟨?_, fun given mem => ?_⟩
  · rw [List.pairwise_append]
    refine ⟨independent.different, List.pairwise_singleton _ _, fun given mem new isNew => ?_⟩
    obtain rfl := List.mem_singleton.mp isNew
    exact other given mem
  · rcases List.mem_append.mp mem with old | new
    · exact independent.neutral given old
    · obtain rfl := List.mem_singleton.mp new
      exact neutral

theorem Independent.single {required : Nat} {name requestedBy invokerId : String}
    (neutral : Neutral site required name requestedBy invokerId) :
    Independent site required [name] requestedBy invokerId := by
  refine ⟨List.pairwise_singleton _ _, fun given mem => ?_⟩
  obtain rfl := List.mem_singleton.mp mem
  exact neutral

end Rows

section Sessions

variable {σ : Type} {o1 : O1Clients σ} {site rule : Site} {now : Time}
  {asked : List RAppActionApproval} {α β : Type}

structure Polled (site : Site) (asked : List RAppActionApproval)
    (s : Session Store (Wire σ)) : Prop where
  working : Ballots site asked s.working.approvals
  committed : Ballots site asked s.committed.approvals

def Keeps (rule : Site) (asked : List RAppActionApproval) (x : Db σ α) : Prop :=
  Ensures (Polled rule asked) x (fun _ => Polled rule asked) (Polled rule asked)

theorem Keeps.bind {x : Db σ α} {f : α → Db σ β} (first : Keeps rule asked x)
    (rest : ∀ value, Keeps rule asked (f value)) : Keeps rule asked (x >>= f) :=
  Ensures.bind first rest

theorem Keeps.ite {p : Prop} [Decidable p] {x y : Db σ α} (yes : Keeps rule asked x)
    (no : Keeps rule asked y) : Keeps rule asked (if p then x else y) :=
  Ensures.ite (fun _ => yes) fun _ => no

theorem keeps_pure (value : α) : Keeps rule asked (pure value : Db σ α) := fun _ polled => polled

theorem keeps_throw (exc : Raised) : Keeps rule asked (throw exc : Db σ α) := fun _ polled => polled

theorem keeps_database : Keeps rule asked (database : Db σ Store) := fun _ polled => polled

theorem keeps_commit : Keeps rule asked (commit : Db σ Unit) :=
  fun _ polled => ⟨polled.working, polled.working⟩

theorem keeps_rollback : Keeps rule asked (rollback : Db σ Unit) :=
  fun _ polled => ⟨polled.committed, polled.committed⟩

theorem keeps_update {f : Store → Store} (same : ∀ store, (f store).approvals = store.approvals) :
    Keeps rule asked (update f : Db σ Unit) := by
  intro s polled
  refine ⟨?_, polled.committed⟩
  change Ballots rule asked (f s.working).approvals
  rw [same]
  exact polled.working

theorem keeps_outside (x : Line σ α) : Keeps rule asked (outside x : Db σ α) := by
  intro s polled
  unfold outside
  cases x s.world with
  | ok value w => exact ⟨polled.working, polled.committed⟩
  | error exc w => exact ⟨polled.working, polled.committed⟩

theorem keeps_refuse (caller : String) (requestedBy : Option String) (problem : Problem) :
    Keeps rule asked (refuse now caller requestedBy problem : Db σ α) :=
  Keeps.bind (keeps_update fun _ => rfl) fun _ => keeps_commit.bind fun _ => keeps_throw _

theorem keeps_refuseIfKilled (caller requestedBy : Option String) :
    Keeps rule asked (refuseIfKilled now caller requestedBy : Db σ Unit) := by
  apply keeps_database.bind
  intro store
  cases caller with
  | none => exact keeps_pure _
  | some name =>
    dsimp only
    split
    next => exact keeps_pure _
    next => exact keeps_refuse _ _ _

theorem keeps_enforceScope (scope : Option Scope) (caller : Option String) (requestedBy : String)
    (refs : List String) :
    Keeps rule asked (enforceScope site now scope caller requestedBy refs : Db σ Unit) := by
  apply Keeps.ite (keeps_pure _)
  cases caller with
  | none => exact keeps_throw _
  | some name => exact keeps_refuse _ _ _

theorem keeps_enforceRappLimit (caller : Option String) (requestedBy : String) :
    Keeps rule asked (enforceRappLimit site now caller requestedBy : Db σ Unit) := by
  apply keeps_database.bind
  intro store
  cases limitOf site caller with
  | none => exact keeps_pure _
  | some limit =>
    dsimp only
    cases limit.maxConfigJobsPerHour with
    | none => exact keeps_pure _
    | some most => exact Keeps.ite (keeps_pure _) (keeps_refuse _ _ _)

theorem keeps_enforceChangeLimits (body : WriteConfigRequest) (caller : Option String) :
    Keeps rule asked (enforceChangeLimits site now body caller : Db σ Unit) := by
  unfold enforceChangeLimits
  cases limitOf site caller with
  | none => exact keeps_pure _
  | some limit =>
    dsimp only
    split
    next => exact keeps_refuse _ _ _
    next =>
      split
      next => exact keeps_pure _
      next => exact keeps_refuse _ _ _

theorem keeps_orThrow (x : Except Raised α) : Keeps rule asked (orThrow x : Db σ α) := by
  cases x with
  | ok value => exact keeps_pure _
  | error exc => exact keeps_throw _

theorem keeps_orRaise (x : Except (IllegalTransition JobState JobEvent) α) :
    Keeps rule asked (orRaise x : Db σ α) := by
  cases x with
  | ok value => exact keeps_pure _
  | error exc => exact keeps_throw _

theorem keeps_keep (jr : JobRows) : Keeps rule asked (keep jr : Db σ JobRows) :=
  Keeps.bind (keeps_update fun _ => rfl) fun _ => keeps_pure _

section Writes

variable {revert : JobRows → String → Db σ JobRows}

theorem keeps_advanceWith (reverts : ∀ jr failure, Keeps rule asked (revert jr failure))
    (jr : JobRows) : Keeps rule asked (advanceWith o1 site now revert jr) := by
  apply keeps_database.bind
  intro store
  apply (keeps_outside _).bind
  intro ran
  refine Keeps.bind (keeps_update fun _ => rfl) fun _ => ?_
  split
  next => exact keeps_pure _
  next => exact reverts _ _

theorem keeps_approveWindowWith (reverts : ∀ jr failure, Keeps rule asked (revert jr failure))
    (jr : JobRows) (name : String) (reason : Option String) :
    Keeps rule asked (approveWindowWith o1 site now revert jr name reason) := by
  apply Keeps.ite (keeps_throw _)
  apply (keeps_keep _).bind
  intro decided
  apply Keeps.ite
  · exact (keeps_orRaise _).bind fun _ => keeps_keep _
  · apply (keeps_refuseIfKilled _ _).bind
    intro _
    apply (keeps_orRaise _).bind
    intro status
    exact (keeps_keep _).bind fun started => keeps_advanceWith reverts started

/-- The approval a job is made from is in the session, with enough independent votes on it. -/
def Approvable (rule : Site) (asked : List RAppActionApproval) (row : RAppActionApproval) : Prop :=
  ∃ before ∈ asked, SameAsk before row ∧ row.requiredApprovals ≤ (approvers row).length ∧
    Independent rule row.requiredApprovals (approvers row) row.requestedBy row.invokerId ∧
    Independent rule row.requiredApprovals (row.approvals.map (·.decidedBy)) row.requestedBy
      row.invokerId

theorem approvable_none : ∀ row ∈ (none : Option RAppActionApproval),
    Approvable rule asked row := by
  rintro row ⟨⟩

theorem keeps_putApproval {row before : RAppActionApproval} (mem : before ∈ asked)
    (same : SameAsk before row) (eyes : FourEyes rule row) :
    Keeps rule asked (update (·.putApproval row) : Db σ Unit) := by
  intro s polled
  obtain ⟨found, inside, ask⟩ := polled.working.kept before mem
  have same' : SameAsk found row := ⟨same.approvalId.trans ask.approvalId.symm,
    same.requestedBy.trans ask.requestedBy.symm, same.invokerId.trans ask.invokerId.symm,
    same.requiredApprovals.trans ask.requiredApprovals.symm⟩
  exact ⟨polled.working.put inside same' eyes, polled.committed⟩

theorem keeps_closeApproved {approval : Option RAppActionApproval}
    (approvable : ∀ row ∈ approval, Approvable rule asked row) (jobId : Nat) :
    Keeps rule asked (closeApproved approval jobId : Db σ Unit) := by
  cases approval with
  | none => exact keeps_pure _
  | some row =>
    obtain ⟨before, mem, same, enough, independent, votes⟩ := approvable row rfl
    exact keeps_putApproval mem ⟨same.approvalId, same.requestedBy, same.invokerId,
      same.requiredApprovals⟩ ⟨votes, fun _ => ⟨enough, independent⟩, fun _ => rfl⟩

theorem keeps_startJobWith (reverts : ∀ jr failure, Keeps rule asked (revert jr failure))
    (held : Bool) (approval : Option RAppActionApproval) (jr : JobRows) :
    Keeps rule asked (startJobWith o1 site now revert held approval jr) := by
  unfold startJobWith
  split
  · exact keeps_approveWindowWith reverts _ _ _
  · exact keeps_pure _
  · exact keeps_advanceWith reverts _

theorem keeps_parkForApproval (body : WriteConfigRequest) (invoker : String)
    (policy : RAppApprovalPolicy) (requesterScope : Option Scope) :
    Keeps rule asked (parkForApproval now body invoker policy requesterScope : Db σ Written) := by
  intro s polled
  have parked : Ballots rule asked (s.working.approvals ++ [{
      approvalId := s.working.approvals.length, invokerId := invoker
      requestedBy := body.requestedBy, request := body
      expiresAt := now + seconds policy.timeoutSeconds, onTimeout := policy.onTimeout
      requesterScope, requiredApprovals := policy.requiredApprovals }]) :=
    polled.working.park rfl ⟨⟨.nil, fun _ mem => absurd mem List.not_mem_nil⟩, nofun, nofun⟩
  exact ⟨parked, parked⟩

theorem keeps_executeWriteWith (reverts : ∀ jr failure, Keeps rule asked (revert jr failure))
    (body : WriteConfigRequest) (origin : Origin)
    (approvable : ∀ row ∈ origin.approval, Approvable rule asked row) :
    Keeps rule asked (executeWriteWith o1 site now revert body origin) := by
  apply (keeps_orThrow _).bind
  intro _
  apply Keeps.ite (keeps_pure _)
  split
  next => exact keeps_parkForApproval _ _ _ _
  next =>
    apply Keeps.ite (keeps_throw _)
    apply (keeps_outside _).bind
    intro jobId
    refine Keeps.bind (keeps_update fun _ => rfl) fun _ => ?_
    apply (keeps_closeApproved approvable jobId).bind
    intro _
    apply (keeps_startJobWith reverts _ _ _).bind
    intro final
    exact keeps_commit.bind fun _ => keeps_pure _

end Writes

theorem keeps_autoRevert (jr : JobRows) (failure : String) :
    Keeps rule asked (autoRevert o1 site now jr failure) := by
  unfold autoRevert autoRevertWith
  dsimp only
  apply (keeps_outside _).bind
  intro network
  apply Keeps.ite
  · exact (keeps_orRaise _).bind fun _ => keeps_keep _
  apply (keeps_executeWriteWith (fun _ _ => keeps_throw _) _ _ approvable_none).bind
  intro written
  split
  next =>
    apply Keeps.ite
    · exact (keeps_orRaise _).bind fun _ => keeps_keep _
    · exact (keeps_orRaise _).bind fun _ => keeps_keep _
  next => exact keeps_throw _

theorem keeps_jobInReach (request : Request) (jobId : Nat) (requestedBy : Option String) :
    Keeps rule asked (jobInReach site now request jobId requestedBy : Db σ JobRows) := by
  apply keeps_database.bind
  intro store
  split
  next => exact keeps_throw _
  next =>
    apply Keeps.ite (keeps_throw _)
    apply Keeps.ite (keeps_pure _)
    dsimp only
    split
    next => exact keeps_refuse _ _ _
    next => exact keeps_throw _

theorem keeps_haltedJob (request : Request) (jobId : Nat) (event : JobEvent)
    (requestedBy : String) :
    Keeps rule asked (haltedJob site now request jobId event requestedBy : Db σ JobRows) :=
  (keeps_jobInReach _ _ _).bind fun _ => Keeps.ite (keeps_pure _) (keeps_throw _)

theorem keeps_advance_commit (jr : JobRows) : Keeps rule asked (do
    let final ← advance o1 site now jr
    commit
    return final) :=
  (keeps_advanceWith keeps_autoRevert jr).bind fun _ => keeps_commit.bind fun _ => keeps_pure _

theorem keeps_keep_commit (jr : JobRows) : Keeps rule asked (do
    let kept ← keep jr
    commit
    return kept : Db σ JobRows) :=
  (keeps_keep jr).bind fun _ => keeps_commit.bind fun _ => keeps_pure _

theorem keeps_resume (jr : JobRows) : Keeps rule asked (resume o1 site now jr) := by
  apply (keeps_orRaise _).bind
  intro going
  exact (keeps_keep _).bind fun going => keeps_advance_commit going

theorem keeps_startScheduled (jr : JobRows) (body : WaveActionRequest) :
    Keeps rule asked (startScheduled o1 site now jr body) := by
  apply Keeps.ite (keeps_throw _)
  apply Keeps.ite (keeps_throw _)
  apply (keeps_refuseIfKilled _ _).bind
  intro _
  apply (keeps_orRaise _).bind
  intro status
  exact (keeps_keep _).bind fun started => keeps_advance_commit started

theorem keeps_continue (request : Request) (jobId : Nat) (body : WaveActionRequest) :
    Keeps rule asked (continueConfigurationJob o1 site now request jobId body) := by
  apply (keeps_jobInReach _ _ _).bind
  intro scheduled
  apply Keeps.ite (keeps_startScheduled _ _)
  apply (keeps_haltedJob _ _ _ _).bind
  intro jr
  apply (keeps_refuseIfKilled _ _).bind
  intro _
  exact Keeps.ite (keeps_throw _) (keeps_resume _)

theorem keeps_halt (request : Request) (jobId : Nat) (body : WaveActionRequest) :
    Keeps rule asked (haltConfigurationJob site now request jobId body : Db σ JobRows) :=
  (keeps_haltedJob _ _ _ _).bind fun _ => Keeps.ite (keeps_keep_commit _) (keeps_pure _)

theorem keeps_abort (request : Request) (jobId : Nat) (body : WaveActionRequest) :
    Keeps rule asked (abortConfigurationJob site now request jobId body : Db σ JobRows) := by
  apply (keeps_haltedJob _ _ _ _).bind
  intro jr
  exact (keeps_orRaise _).bind fun _ => keeps_keep_commit _

theorem keeps_resumeAll (ids : List Nat) : Keeps rule asked (resumeAll o1 site now ids) := by
  induction ids with
  | nil => exact keeps_pure _
  | cons jobId rest ih =>
    apply keeps_database.bind
    intro store
    split
    next => exact keeps_throw _
    next => exact (keeps_resume _).bind fun _ => ih.bind fun _ => keeps_pure _

theorem keeps_decider (request : Request) (claimed : Option String) :
    Keeps rule asked (decider site request claimed : Db σ String) := by
  apply Keeps.ite
  · split
    next => exact keeps_throw _
    next => exact Keeps.ite (keeps_throw _) (keeps_pure _)
  · split
    next => exact keeps_throw _
    next => exact keeps_pure _

theorem keeps_waitingJob (request : Request) (jobId : Nat) (body : ApprovalDecisionRequest)
    (states : List JobState) :
    Keeps rule asked (waitingJob site now request jobId body states : Db σ _) := by
  apply Keeps.ite (keeps_throw _)
  apply (keeps_decider _ _).bind
  intro name
  exact (keeps_jobInReach _ _ _).bind fun _ => Keeps.ite (keeps_pure _) (keeps_throw _)

theorem keeps_approve (request : Request) (jobId : Nat) (body : ApprovalDecisionRequest) :
    Keeps rule asked (approveConfigurationJob o1 site now request jobId body) := by
  apply (keeps_waitingJob _ _ _ _).bind
  intro found
  apply Keeps.ite (keeps_throw _)
  apply (keeps_approveWindowWith keeps_autoRevert _ _ _).bind
  exact fun _ => keeps_commit.bind fun _ => keeps_pure _

theorem keeps_reject (request : Request) (jobId : Nat) (body : ApprovalDecisionRequest) :
    Keeps rule asked (rejectConfigurationJob site now request jobId body : Db σ JobRows) := by
  apply (keeps_waitingJob _ _ _ _).bind
  intro found
  exact (keeps_orRaise _).bind fun _ => keeps_keep_commit _

theorem keeps_write (request : Request) (body : WriteConfigRequest) :
    Keeps rule asked (writeConfigurationChanges o1 site now request body) := by
  apply (keeps_refuseIfKilled _ _).bind
  intro _
  apply (keeps_enforceScope _ _ _ _).bind
  intro _
  apply (keeps_enforceRappLimit _ _).bind
  intro _
  apply (keeps_enforceChangeLimits _ _).bind
  exact fun _ => keeps_executeWriteWith keeps_autoRevert _ _ approvable_none

theorem keeps_undoJob (jr : JobRows) (elements : Option (List String)) (body : RollbackRequest)
    (conflict : List Difference → String) :
    Keeps rule asked (undoJob o1 site now jr elements body conflict) := by
  apply Keeps.ite (keeps_throw _)
  apply (keeps_outside _).bind
  intro network
  apply Keeps.ite (keeps_pure _)
  exact Keeps.ite (keeps_throw _) (keeps_executeWriteWith keeps_autoRevert _ _ approvable_none)

theorem keeps_kpiCheck (request : Request) (jobId : Nat) (body : KpiCheckRequest) :
    Keeps rule asked (checkConfigurationJobKpi o1 site now request jobId body) := by
  apply (keeps_jobInReach _ _ _).bind
  intro jr
  apply (keeps_orThrow _).bind
  intro _
  exact Keeps.ite ((keeps_undoJob _ _ _ _).bind fun _ => keeps_pure _) (keeps_pure _)

end Sessions

end Smo.RanNfOam.ConfigJobs
