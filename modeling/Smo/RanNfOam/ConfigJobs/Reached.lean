import Smo.RanNfOam.ConfigJobs.Requests

/-! The routes of the config jobs keep the session ahead of what is committed. -/
namespace Smo.RanNfOam.ConfigJobs

open Transaction

section Routes

variable {σ : Type} {o1 : O1Clients σ} {site : Site} {setting : Setting} {start : Board}
  {others : List JobRows} {s : Session Store (Wire σ)} {jr : JobRows}

theorem Ahead.fewer (ahead : Ahead o1 setting start others s) {fewer : List JobRows}
    (subset : ∀ other ∈ fewer, other ∈ others) : Ahead o1 setting start fewer s :=
  ⟨ahead.kills, ahead.kept, fun other mem => ahead.others other (subset other mem)⟩

theorem job?_mem {store : Store} {jobId : Nat} (found : store.job? jobId = some jr) :
    jr ∈ store.jobs ∧ jr.job.jobId = jobId :=
  ⟨List.mem_of_find?_eq_some found, by simpa using List.find?_some found⟩

theorem jobInReach_found (ahead : Ahead o1 setting start others s) (request : Request)
    (jobId : Nat) (requestedBy : Option String) :
    Ensures (· = s) (jobInReach site setting.now request jobId requestedBy : Db σ JobRows)
      (fun jr t => s.working.job? jobId = some jr ∧ t = s) (Raising o1 setting start) := by
  apply Ensures.reads
  cases found : s.working.job? jobId with
  | none => exact raiseProblem_raising ahead _ _
  | some jr =>
    dsimp only
    apply Ensures.ite
    · exact fun _ => raiseProblem_raising ahead _ _
    intro _
    apply Ensures.ite
    · exact fun _ _ same => ⟨rfl, same⟩
    intro _
    cases request.invokerId with
    | none => exact throw_raising _ fun _ same => same ▸ ahead
    | some name => exact refuse_raising ahead _ _ _

theorem haltedJob_found (ahead : Ahead o1 setting start others s) (request : Request)
    (jobId : Nat) (event : JobEvent) (requestedBy : String) :
    Ensures (· = s) (haltedJob site setting.now request jobId event requestedBy : Db σ JobRows)
      (fun jr t => (s.working.job? jobId = some jr ∧ jr.job.status = .halted) ∧ t = s)
      (Raising o1 setting start) := by
  unfold haltedJob
  apply (jobInReach_found ahead _ _ _).bind
  intro jr
  apply Ensures.of_fact
  intro found
  apply Ensures.ite
  · exact fun halted _ same => ⟨⟨found, halted⟩, same⟩
  · exact fun _ => raiseProblem_raising ahead _ _

theorem advance_ahead (numbered : Numbered start) (going : Going o1 setting start others jr s)
    (apart : Apart others jr) :
    Ensures (· = s) (do
        let final ← advance o1 site setting.now jr
        commit
        return final)
      (fun _ => Ahead o1 setting start others) (Raising o1 setting start) := by
  apply (advanceWith_worked numbered (autoRevert_reverts numbered) going apart).bind
  intro final
  exact commit_ahead.bind fun _ _ ahead => ahead

theorem resume_ahead (numbered : Numbered start) (ahead : Ahead o1 setting start others s)
    (mem : jr ∈ s.working.jobs)
    (goes : ∀ after, resumed jr = .ok after → Goes setting jr after) (apart : Apart others jr) :
    Ensures (· = s) (resume o1 site setting.now jr)
      (fun _ => Ahead o1 setting start others) (Raising o1 setting start) := by
  unfold resume
  apply (orRaise_same ahead _).bind
  intro after
  apply Ensures.of_fact
  intro going
  apply (keep_at _).bind
  intro kept
  apply Ensures.of_fact
  rintro rfl
  have same := (goes kept going).same
  refine advance_ahead numbered (ahead.goes mem (goes kept going) apart) ?_
  intro other inside
  rw [same.jobId]
  exact apart other inside

theorem startScheduled_ahead (numbered : Numbered start) (ahead : Ahead o1 setting start others s)
    (mem : jr ∈ s.working.jobs) (waits : jr.job.status = .scheduled) (body : WaveActionRequest)
    (forced : body.force = true → setting.forced jr.job.jobId) (apart : Apart others jr) :
    Ensures (· = s) (startScheduled o1 site setting.now jr body)
      (fun _ => Ahead o1 setting start others) (Raising o1 setting start) := by
  unfold startScheduled
  apply Ensures.ite
  · exact fun _ => raiseProblem_raising ahead _ _
  intro inside
  apply Ensures.ite
  · exact fun _ => raiseProblem_raising ahead _ _
  intro opens
  have opened : (∀ opens ∈ jr.job.scheduledAt, opens ≤ setting.now) ∨
      setting.forced jr.job.jobId := by
    cases force : body.force with
    | true => exact .inr (forced force)
    | false =>
      rw [force] at opens
      exact .inl (opened_of (by simpa using opens))
  apply (refuseIfKilled_clear ahead _ _).bind
  intro _
  apply Ensures.of_fact
  intro clear
  apply (orRaise_same ahead _).bind
  intro status
  apply Ensures.of_fact
  intro fired
  cases fired
  apply (keep_at _).bind
  intro started
  apply Ensures.of_fact
  rintro rfl
  have goes : Goes setting jr (startedJob setting.now jr .processing) :=
    .started waits (windowOver_false inside) opened clear
  exact advance_ahead numbered (ahead.goes mem goes apart) apart

theorem apart_nil : Apart [] jr := by
  intro other mem
  cases mem

theorem continue_ahead (numbered : Numbered start) (ahead : Ahead o1 setting start [] s)
    (request : Request) (jobId : Nat) (body : WaveActionRequest)
    (forced : body.force = true → setting.forced jobId)
    (named : ∀ jr, s.working.job? jobId = some jr → setting.named jr) :
    Ensures (· = s) (continueConfigurationJob o1 site setting.now request jobId body)
      (fun _ => Ahead o1 setting start []) (Raising o1 setting start) := by
  unfold continueConfigurationJob
  apply (jobInReach_found ahead _ _ _).bind
  intro jr
  apply Ensures.of_fact
  intro found
  apply Ensures.ite
  · intro waits
    obtain ⟨mem, rfl⟩ := job?_mem found
    exact startScheduled_ahead numbered ahead mem waits body forced apart_nil
  intro _
  apply (haltedJob_found ahead _ _ _ _).bind
  intro jr
  apply Ensures.of_fact
  rintro ⟨found, waits⟩
  have isNamed := named jr found
  obtain ⟨mem, rfl⟩ := job?_mem found
  apply (refuseIfKilled_clear ahead _ _).bind
  intro _
  apply Ensures.of_fact
  intro clear
  apply Ensures.ite
  · exact fun _ => raiseProblem_raising ahead _ _
  · exact fun _ => resume_ahead numbered ahead mem
      (fun _ going => .continued waits isNamed clear going) apart_nil

theorem change_ahead (ahead : Ahead o1 setting start others s) (mem : jr ∈ s.working.jobs)
    {after : JobRows} (change : JobChange setting jr after) (apart : Apart others jr) :
    Ensures (· = s) (do
        let kept ← keep after
        commit
        return kept : Db σ JobRows)
      (fun _ => Ahead o1 setting start others) (Raising o1 setting start) := by
  apply (keep_at _).bind
  intro kept
  apply Ensures.of_fact
  rintro rfl
  have worked := (ahead.change mem change apart).worked
  exact (commit_ahead.bind fun _ _ ahead => ahead).of_pre fun _ same => same ▸ worked

theorem halt_ahead (ahead : Ahead o1 setting start [] s) (request : Request) (jobId : Nat)
    (body : WaveActionRequest) :
    Ensures (· = s) (haltConfigurationJob site setting.now request jobId body)
      (fun _ => Ahead o1 setting start []) (Raising o1 setting start) := by
  unfold haltConfigurationJob
  apply (haltedJob_found ahead _ _ _ _).bind
  intro jr
  apply Ensures.of_fact
  rintro ⟨found, waits⟩
  obtain ⟨mem, rfl⟩ := job?_mem found
  apply Ensures.ite
  · exact fun _ => change_ahead ahead mem (.operatorHalt waits) apart_nil
  · exact fun _ _ same => same ▸ ahead

theorem abort_ahead (ahead : Ahead o1 setting start [] s) (request : Request) (jobId : Nat)
    (body : WaveActionRequest) :
    Ensures (· = s) (abortConfigurationJob site setting.now request jobId body)
      (fun _ => Ahead o1 setting start []) (Raising o1 setting start) := by
  unfold abortConfigurationJob
  apply (haltedJob_found ahead _ _ _ _).bind
  intro jr
  apply Ensures.of_fact
  rintro ⟨found, waits⟩
  obtain ⟨mem, rfl⟩ := job?_mem found
  apply (orRaise_same ahead _).bind
  intro after
  apply Ensures.of_fact
  intro ended
  exact change_ahead ahead mem (.aborted waits ended) apart_nil

def verifiedDecider (request : Request) (claimed : Option String) : Option String :=
  if request.role = .internal then request.actingUser else claimed

theorem decider_found {raises : Session Store (Wire σ) → Prop} (here : raises s)
    (request : Request) (claimed : Option String) :
    Ensures (· = s) (decider site request claimed : Db σ String)
      (fun name t => verifiedDecider request claimed = some name ∧ t = s) raises := by
  have refused : ∀ {α : Type} {post : α → Session Store (Wire σ) → Prop} (exc : Raised),
      Ensures (· = s) (throw exc : Db σ α) post raises := fun _ _ same => same ▸ here
  unfold decider verifiedDecider
  apply Ensures.ite
  · intro internal
    rw [if_pos internal]
    cases request.actingUser with
    | none => exact refused _
    | some verified =>
      dsimp only
      apply Ensures.ite
      · exact fun _ => refused _
      · exact fun _ _ same => ⟨rfl, same⟩
  · intro outside
    rw [if_neg outside]
    cases claimed with
    | none => exact refused _
    | some name => exact fun _ same => ⟨rfl, same⟩

theorem waitingJob_found (ahead : Ahead o1 setting start others s) (request : Request)
    (jobId : Nat) (body : ApprovalDecisionRequest) (states : List JobState) :
    Ensures (· = s) (waitingJob site setting.now request jobId body states : Db σ _)
      (fun found t => (s.working.job? jobId = some found.1 ∧ found.1.job.status ∈ states ∧
        verifiedDecider request body.decidedBy = some found.2) ∧ t = s)
      (Raising o1 setting start) := by
  unfold waitingJob
  apply Ensures.ite
  · exact fun _ => raiseProblem_raising ahead _ _
  intro _
  apply (decider_found ahead.raising _ _).bind
  intro name
  apply Ensures.of_fact
  intro verified
  apply (jobInReach_found ahead _ _ _).bind
  intro jr
  apply Ensures.of_fact
  intro found
  apply Ensures.ite
  · exact fun waits _ same => ⟨⟨found, waits, verified⟩, same⟩
  · exact fun _ => raiseProblem_raising ahead _ _

def Outsider (site : Site) (name requestedBy : String) (invokerId : Option String) : Prop :=
  samePerson site name requestedBy = false ∧
    ∀ invoker ∈ invokerId, samePerson site name invoker = false

theorem approve_ahead (numbered : Numbered start) (ahead : Ahead o1 setting start [] s)
    (request : Request) (jobId : Nat) (body : ApprovalDecisionRequest)
    (may : ∀ name requestedBy invokerId, Outsider site name requestedBy invokerId →
      setting.mayDecide name requestedBy invokerId) :
    Ensures (· = s) (approveConfigurationJob o1 site setting.now request jobId body)
      (fun _ => Ahead o1 setting start []) (Raising o1 setting start) := by
  unfold approveConfigurationJob
  apply (waitingJob_found ahead _ _ _ _).bind
  intro found
  apply Ensures.of_fact
  rintro ⟨inStore, waits, -⟩
  obtain ⟨mem, rfl⟩ := job?_mem inStore
  apply Ensures.ite
  · exact fun _ => raiseProblem_raising ahead _ _
  intro decides
  have outsider : Outsider site found.2 found.1.job.requestedBy found.1.job.invokerId := by
    simpa [Outsider, Option.any_eq_false] using decides
  apply (approveWindowWith_worked numbered (autoRevert_reverts numbered) ahead mem
    (List.mem_singleton.mp waits) (may _ _ _ outsider) _ apart_nil).bind
  intro final
  exact commit_ahead.bind fun _ _ ahead => ahead

theorem reject_ahead (ahead : Ahead o1 setting start [] s) (request : Request) (jobId : Nat)
    (body : ApprovalDecisionRequest) :
    Ensures (· = s) (rejectConfigurationJob site setting.now request jobId body)
      (fun _ => Ahead o1 setting start []) (Raising o1 setting start) := by
  unfold rejectConfigurationJob
  apply (waitingJob_found ahead _ _ _ _).bind
  intro found
  apply Ensures.of_fact
  rintro ⟨inStore, waits, -⟩
  obtain ⟨mem, rfl⟩ := job?_mem inStore
  apply (orRaise_same ahead _).bind
  intro after
  apply Ensures.of_fact
  intro ended
  exact change_ahead ahead mem (.rejected waits ended) apart_nil

theorem write_ahead (numbered : Numbered start) (ahead : Ahead o1 setting start [] s)
    (request : Request) (body : WriteConfigRequest) :
    Ensures (· = s) (writeConfigurationChanges o1 site setting.now request body)
      (fun _ => Ahead o1 setting start []) (Raising o1 setting start) := by
  unfold writeConfigurationChanges
  apply (refuseIfKilled_clear ahead _ _).bind
  intro _
  apply Ensures.of_fact
  intro clear
  apply (enforceScope_same ahead _ _ _ _).bind
  intro _
  apply (enforceRappLimit_same ahead _ _).bind
  intro _
  apply (enforceChangeLimits_same ahead _ _).bind
  intro _
  exact executeWriteWith_ahead numbered (autoRevert_reverts numbered) ahead _ _ clear
    (decidedWell_of_none rfl)

theorem undoJob_ahead (numbered : Numbered start) (ahead : Ahead o1 setting start [] s)
    (jr : JobRows) (elements : Option (List String)) (body : RollbackRequest)
    (conflict : List Difference → String) :
    Ensures (· = s) (undoJob o1 site setting.now jr elements body conflict)
      (fun _ => Ahead o1 setting start []) (Raising o1 setting start) := by
  unfold undoJob
  apply Ensures.ite
  · exact fun _ => raiseProblem_raising ahead _ _
  intro _
  apply networkNow_same.bind
  intro network
  apply Ensures.of_fact
  intro _
  apply Ensures.ite
  · exact fun _ _ same => same ▸ ahead
  intro _
  apply Ensures.ite
  · exact fun _ => raiseProblem_raising ahead _ _
  · exact fun _ => executeWriteWith_ahead numbered (autoRevert_reverts numbered) ahead _ _
      clear_none (decidedWell_of_none rfl)

theorem rollback_ahead (numbered : Numbered start) (ahead : Ahead o1 setting start [] s)
    (request : Request) (jobId : Nat) (body : RollbackRequest) :
    Ensures (· = s) (rollbackConfigurationJob o1 site setting.now request jobId body)
      (fun _ => Ahead o1 setting start []) (Raising o1 setting start) := by
  unfold rollbackConfigurationJob
  apply (jobInReach_found ahead _ _ _).bind
  intro jr
  apply Ensures.of_fact
  intro _
  exact undoJob_ahead numbered ahead _ _ _ _

theorem kpiCheck_ahead (numbered : Numbered start) (ahead : Ahead o1 setting start [] s)
    (request : Request) (jobId : Nat) (body : KpiCheckRequest) :
    Ensures (· = s) (checkConfigurationJobKpi o1 site setting.now request jobId body)
      (fun _ => Ahead o1 setting start []) (Raising o1 setting start) := by
  unfold checkConfigurationJobKpi
  apply (jobInReach_found ahead _ _ _).bind
  intro jr
  apply Ensures.of_fact
  intro _
  apply (orThrow_same ahead _).bind
  intro _
  apply Ensures.of_fact
  intro _
  apply Ensures.ite
  · intro _
    apply (undoJob_ahead numbered ahead _ _ _ _).bind
    exact fun _ _ ahead => ahead
  · exact fun _ _ same => same ▸ ahead

theorem resumeAll_ahead (numbered : Numbered start) {due : List JobRows}
    (ahead : Ahead o1 setting start due s) (distinct : (due.map (·.job.jobId)).Nodup)
    (listed : ∀ jr ∈ due, setting.listed jr ∧ jr.job.status = .halted) :
    Ensures (· = s) (resumeAll o1 site setting.now (due.map (·.job.jobId)))
      (fun _ => Ahead o1 setting start []) (Raising o1 setting start) := by
  induction due generalizing s with
  | nil => exact fun _ same => same ▸ ahead
  | cons jr rest ih =>
    obtain ⟨first, distinct'⟩ := List.nodup_cons.mp distinct
    have mem := ahead.others jr List.mem_cons_self
    have found : s.working.job? jr.job.jobId = some jr :=
      (Sql.find?_key_iff (ahead.numbered numbered).distinct).mpr ⟨mem, rfl⟩
    have apart : Apart rest jr := fun other inside same =>
      first (List.mem_map.mpr ⟨other, inside, same⟩)
    have ahead' := ahead.fewer fun other inside => List.mem_cons_of_mem jr inside
    unfold resumeAll
    apply Ensures.reads
    simp only [found]
    obtain ⟨isListed, waits⟩ := listed jr List.mem_cons_self
    apply (resume_ahead numbered ahead' mem (fun _ going => .swept waits isListed going) apart).bind
    intro final
    apply Ensures.each
    intro t ahead
    apply (ih ahead distinct' fun other inside => listed other (List.mem_cons_of_mem jr inside)).bind
    exact fun _ _ ahead => ahead

theorem discard_ensures {α : Type} {x : Db σ α} {pre post raises : Session Store (Wire σ) → Prop}
    (h : Ensures pre x (fun _ => post) raises) :
    Ensures pre (discard x) (fun _ => post) raises :=
  h.bind fun _ _ holds => holds

theorem advanceDue_ahead (numbered : Numbered start) (ahead : Ahead o1 setting start [] s)
    (listed : ∀ jr ∈ s.working.jobs, jr.job.status = .halted →
      jr.job.haltedReason = some .wavePause → jr.job.nextWaveAt.any (· ≤ setting.now) →
      setting.listed jr) :
    Ensures (· = s) (advanceDue o1 site setting.now)
      (fun _ => Ahead o1 setting start []) (Raising o1 setting start) := by
  unfold advanceDue
  apply Ensures.reads
  unfold dueJobs
  have due := fun jr => (List.mem_insertionSort (r := fun a b : JobRows =>
    a.job.nextWaveAt.getD 0 ≤ b.job.nextWaveAt.getD 0) (x := jr)
    (l := s.working.jobs.filter fun jr => jr.job.status = .halted &&
      jr.job.haltedReason = some .wavePause && jr.job.nextWaveAt.any (· ≤ setting.now)))
  apply resumeAll_ahead numbered
  · exact ⟨ahead.kills, ahead.kept, fun jr mem => List.mem_of_mem_filter ((due jr).mp mem)⟩
  · have sorted := (List.perm_insertionSort (fun a b : JobRows =>
      a.job.nextWaveAt.getD 0 ≤ b.job.nextWaveAt.getD 0) (s.working.jobs.filter fun jr =>
        jr.job.status = .halted && jr.job.haltedReason = some .wavePause &&
          jr.job.nextWaveAt.any (· ≤ setting.now))).map (·.job.jobId)
    have distinct := (ahead.numbered numbered).distinct
    exact sorted.nodup_iff.mpr (distinct.sublist (List.filter_sublist.map _))
  · intro jr mem
    obtain ⟨inStore, isDue⟩ := List.mem_filter.mp ((due jr).mp mem)
    simp only [Bool.and_eq_true, decide_eq_true_eq] at isDue
    exact ⟨listed jr inStore isDue.1.1 isDue.1.2 isDue.2, isDue.1.1⟩

end Routes

end Smo.RanNfOam.ConfigJobs
