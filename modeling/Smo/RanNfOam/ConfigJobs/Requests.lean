import Smo.RanNfOam.ConfigJobs.Moves

/-! Every request takes the committed board along moves: what is in the session is moves
ahead of what is committed, whatever is lost when it raises was sent for a job those moves
set going, and with answering clients only for one that was to be undone. -/
namespace Smo.RanNfOam.ConfigJobs

open Transaction

section Sessions

variable {σ : Type} (o1 : O1Clients σ) (setting : Setting) (start : Board)

structure SameKills (s : Session Store (Wire σ)) : Prop where
  working : s.working.kills = setting.kills
  committed : s.committed.kills = setting.kills

def Bystanders (others : List JobRows) (s : Session Store (Wire σ)) : Prop :=
  ∀ jr ∈ others, jr ∈ s.working.jobs

structure Worked (others : List JobRows) (s : Session Store (Wire σ)) : Prop where
  kills : SameKills setting s
  moves : Moves o1 setting start (boardOf s.working s.world)
  others : Bystanders others s

def Kept (s : Session Store (Wire σ)) (b : Board) (lost : List Dispatch) : Prop :=
  Moves o1 setting start b ∧ b.jobs = s.committed.jobs ∧ s.world.sent = b.sent ++ lost ∧
    b.fresh ≤ s.world.fresh ∧ ∀ dispatch ∈ lost, LostFrom o1 setting b dispatch ∧
      dispatch.job.jobId < s.world.fresh

structure Ahead (others : List JobRows) (s : Session Store (Wire σ)) : Prop where
  kills : SameKills setting s
  kept : ∃ b lost, Kept o1 setting start s b lost ∧
    Moves o1 setting b (boardOf s.working s.world)
  others : Bystanders others s

structure Going (others : List JobRows) (jr : JobRows) (s : Session Store (Wire σ)) : Prop where
  kills : SameKills setting s
  kept : ∃ b lost b', Kept o1 setting start s b lost ∧ Moves o1 setting b b' ∧
    SetGoing setting b' jr (boardOf s.working s.world)
  others : Bystanders others s

structure Raising (s : Session Store (Wire σ)) : Prop where
  kills : s.committed.kills = setting.kills
  kept : ∃ b lost, Kept o1 setting start s b lost

end Sessions

section Rules

variable {σ : Type} {o1 : O1Clients σ} {site : Site} {setting : Setting} {start : Board}
  {others : List JobRows} {s : Session Store (Wire σ)} {jr : JobRows}

theorem Ahead.moves (ahead : Ahead o1 setting start others s) :
    Moves o1 setting start (boardOf s.working s.world) := by
  obtain ⟨b, lost, kept, moves⟩ := ahead.kept
  exact kept.1.trans moves

theorem Ahead.worked (ahead : Ahead o1 setting start others s) :
    Worked o1 setting start others s :=
  ⟨ahead.kills, ahead.moves, ahead.others⟩

theorem Ahead.raising (ahead : Ahead o1 setting start others s) : Raising o1 setting start s := by
  obtain ⟨b, lost, kept, -⟩ := ahead.kept
  exact ⟨ahead.kills.committed, b, lost, kept⟩

theorem Worked.committed (worked : Worked o1 setting start others s) :
    Ahead o1 setting start others { s with committed := s.working } := by
  refine ⟨⟨worked.kills.working, worked.kills.working⟩, ?_, worked.others⟩
  exact ⟨boardOf s.working s.world, [], ⟨worked.moves, rfl, (List.append_nil _).symm,
    Nat.le_refl _, fun _ mem => absurd mem List.not_mem_nil⟩, .refl⟩

theorem Ahead.unseen (ahead : Ahead o1 setting start others s) (f : Store → Store)
    (jobs : (f s.working).jobs = s.working.jobs) (kills : (f s.working).kills = s.working.kills) :
    Ahead o1 setting start others { s with working := f s.working } := by
  obtain ⟨b, lost, kept, moves⟩ := ahead.kept
  refine ⟨⟨kills.trans ahead.kills.working, ahead.kills.committed⟩, ⟨b, lost, kept, ?_⟩, ?_⟩
  · rw [boardOf, jobs]
    exact moves
  · intro jr mem
    rw [jobs]
    exact ahead.others jr mem

variable {α : Type} {after : JobRows} {now : Time}

theorem throw_raising {pre : Session Store (Wire σ) → Prop} (exc : Raised)
    (ahead : ∀ s, pre s → Ahead o1 setting start others s)
    {post : α → Session Store (Wire σ) → Prop} :
    Ensures pre (throw exc : Db σ α) post (Raising o1 setting start) :=
  fun s holds => (ahead s holds).raising

theorem commit_ahead {raises : Session Store (Wire σ) → Prop} :
    Ensures (Worked o1 setting start others) (commit : Db σ Unit)
      (fun _ => Ahead o1 setting start others) raises :=
  fun _ worked => worked.committed

theorem refuse_raising (ahead : Ahead o1 setting start others s) (caller : String)
    (requestedBy : Option String) (problem : Problem) {post : α → Session Store (Wire σ) → Prop} :
    Ensures (· = s) (refuse setting.now caller requestedBy problem : Db σ α) post
      (Raising o1 setting start) := by
  rintro _ rfl
  have recorded := ahead.unseen (fun store => { store with
    refusals := store.refusals ++
      [⟨setting.now, caller, requestedBy, problem.error.code, problem.detail⟩] }) rfl rfl
  exact recorded.worked.committed.raising

theorem refuseIfKilled_clear (ahead : Ahead o1 setting start others s)
    (caller requestedBy : Option String) :
    Ensures (· = s) (refuseIfKilled setting.now caller requestedBy : Db σ Unit)
      (fun _ t => Clear setting caller ∧ t = s) (Raising o1 setting start) := by
  apply Ensures.reads
  cases caller with
  | none => exact fun _ same => ⟨nofun, same⟩
  | some name =>
    dsimp only
    cases killed : s.working.killOf name with
    | none =>
      intro _ same
      refine ⟨fun other isName => ?_, same⟩
      cases isName
      rwa [← ahead.kills.working]
    | some kill => exact refuse_raising ahead _ _ _

theorem enforceScope_same (ahead : Ahead o1 setting start others s) (scope : Option Scope)
    (caller : Option String) (requestedBy : String) (refs : List String) :
    Ensures (· = s) (enforceScope site setting.now scope caller requestedBy refs : Db σ Unit)
      (fun _ t => t = s) (Raising o1 setting start) := by
  apply Ensures.ite
  · exact fun _ _ same => same
  · intro _
    cases caller with
    | none => exact throw_raising _ fun _ same => same ▸ ahead
    | some name => exact refuse_raising ahead _ _ _

theorem enforceRappLimit_same (ahead : Ahead o1 setting start others s) (caller : Option String)
    (requestedBy : String) :
    Ensures (· = s) (enforceRappLimit site setting.now caller requestedBy : Db σ Unit)
      (fun _ t => t = s) (Raising o1 setting start) := by
  apply Ensures.reads
  cases limitOf site caller with
  | none => exact fun _ same => same
  | some limit =>
    dsimp only
    cases limit.maxConfigJobsPerHour with
    | none => exact fun _ same => same
    | some most =>
      apply Ensures.ite
      · exact fun _ _ same => same
      · exact fun _ => refuse_raising ahead _ _ _

theorem enforceChangeLimits_same (ahead : Ahead o1 setting start others s)
    (body : WriteConfigRequest) (caller : Option String) :
    Ensures (· = s) (enforceChangeLimits site setting.now body caller : Db σ Unit)
      (fun _ t => t = s) (Raising o1 setting start) := by
  unfold enforceChangeLimits
  cases limitOf site caller with
  | none => exact fun _ same => same
  | some limit =>
    dsimp only
    cases limit.maxElementsPerJob.filter (· < (elementsOf body.changes).length) with
    | some most => exact refuse_raising ahead _ _ _
    | none =>
      cases site.magnitudeExceeded limit body.changes with
      | none => exact fun _ same => same
      | some detail => exact refuse_raising ahead _ _ _

theorem orThrow_same (ahead : Ahead o1 setting start others s) (x : Except Raised α) :
    Ensures (· = s) (orThrow x : Db σ α) (fun value t => x = .ok value ∧ t = s)
      (Raising o1 setting start) := by
  cases x with
  | ok value => exact fun _ same => ⟨rfl, same⟩
  | error exc => exact throw_raising exc fun _ same => same ▸ ahead

theorem orRaise_same (ahead : Ahead o1 setting start others s)
    (x : Except (IllegalTransition JobState JobEvent) α) :
    Ensures (· = s) (orRaise x : Db σ α) (fun value t => x = .ok value ∧ t = s)
      (Raising o1 setting start) := by
  cases x with
  | ok value => exact fun _ same => ⟨rfl, same⟩
  | error exc => exact throw_raising _ fun _ same => same ▸ ahead

theorem networkNow_same {raises : Session Store (Wire σ) → Prop} :
    Ensures (· = s) (networkNow : Db σ σ) (fun network t => network = s.world.network ∧ t = s)
      raises := by
  rintro _ rfl
  exact ⟨rfl, rfl⟩

theorem keep_at {raises : Session Store (Wire σ) → Prop} (after : JobRows) :
    Ensures (· = s) (keep after : Db σ JobRows)
      (fun kept t => kept = after ∧ t = { s with working := s.working.put after }) raises := by
  rintro _ rfl
  exact ⟨rfl, rfl⟩

theorem newId_at {raises : Session Store (Wire σ) → Prop} :
    Ensures (· = s) (newId : Db σ Nat) (fun jobId t => jobId = s.world.fresh ∧
      t = { s with world := { s.world with fresh := s.world.fresh + 1 } }) raises := by
  rintro _ rfl
  exact ⟨rfl, rfl⟩

theorem mem_put {store : Store} (mem : jr ∈ store.jobs) (same : SameJob jr.job after.job) :
    after ∈ (store.put after).jobs :=
  mem_replaceJob.mpr (.inr ⟨rfl, jr, mem, same.jobId.symm⟩)

def Apart (others : List JobRows) (jr : JobRows) : Prop :=
  ∀ other ∈ others, other.job.jobId ≠ jr.job.jobId

theorem Bystanders.put (bystanders : Bystanders others s) (apart : Apart others jr)
    (same : SameJob jr.job after.job) : ∀ other ∈ others, other ∈ (s.working.put after).jobs := by
  intro other mem
  refine mem_replaceJob.mpr (.inl ⟨bystanders other mem, ?_⟩)
  rw [same.jobId]
  exact apart other mem

theorem Ahead.change (ahead : Ahead o1 setting start others s) (mem : jr ∈ s.working.jobs)
    (change : JobChange setting jr after) (apart : Apart others jr) :
    Ahead o1 setting start others { s with working := s.working.put after } := by
  obtain ⟨b, lost, kept, moves⟩ := ahead.kept
  refine ⟨⟨ahead.kills.working, ahead.kills.committed⟩, ⟨b, lost, kept, ?_⟩,
    Bystanders.put ahead.others apart change.same⟩
  exact moves.tail (.changed (b := boardOf s.working s.world) mem change)

theorem Ahead.numbered (numbered : Numbered start) (ahead : Ahead o1 setting start others s) :
    Numbered (boardOf s.working s.world) :=
  Moves.numbered ahead.moves numbered

theorem Ahead.goes (ahead : Ahead o1 setting start others s) (mem : jr ∈ s.working.jobs)
    (goes : Goes setting jr after) (apart : Apart others jr) :
    Going o1 setting start others after { s with working := s.working.put after } := by
  obtain ⟨b, lost, kept, moves⟩ := ahead.kept
  refine ⟨⟨ahead.kills.working, ahead.kills.committed⟩, ⟨b, lost, _, kept, moves, ?_⟩,
    Bystanders.put ahead.others apart goes.same⟩
  exact .goes (b := boardOf s.working s.world) mem goes

def Reverts (o1 : O1Clients σ) (setting : Setting) (start : Board)
    (revert : JobRows → String → Db σ JobRows) : Prop :=
  ∀ {others : List JobRows} {s : Session Store (Wire σ)} {jr : JobRows} (failure : String),
    Ahead o1 setting start others s → jr ∈ s.working.jobs → jr.job.status = .processing →
      jr.job.onGateFailure = .revert → Apart others jr →
        Ensures (· = s) (revert jr failure) (fun _ => Worked o1 setting start others)
          (Raising o1 setting start)

theorem Going.lose (numbered : Numbered start) (going : Going o1 setting start others jr s)
    {new : List Dispatch} {w : Wire σ}
    (sentFor : ∀ dispatch ∈ new, SentFor setting.now jr dispatch)
    (undone : o1.Answers → jr.job.onGateFailure = .revert)
    (log : Wire.Log (s.world.sent ++ new) s.world.fresh w) :
    ∃ b lost b', Kept o1 setting start { s with world := w } b lost ∧
      Moves o1 setting b b' ∧ SetGoing setting b' jr (boardOf s.working s.world) := by
  obtain ⟨b, lost, b', ⟨reached, jobs, sent, fresh, all⟩, moves, set⟩ := going.kept
  refine ⟨b, lost ++ new, b', ⟨reached, jobs, ?_, ?_, fun dispatch inside => ?_⟩, moves, set⟩
  · rw [log.1, sent, List.append_assoc]
  · rw [log.2]
    exact fresh
  · rw [log.2]
    rcases List.mem_append.mp inside with old | now
    · exact all dispatch old
    · have sent := sentFor dispatch now
      refine ⟨⟨b', _, jr, moves, set, sent, undone⟩, ?_⟩
      rw [sent.jobId]
      exact (set.numbered (Moves.numbered (reached.trans moves) numbered)).used jr set.mem

theorem advanceWith_worked {revert : JobRows → String → Db σ JobRows}
    (numbered : Numbered start) (reverts : Reverts o1 setting start revert)
    (going : Going o1 setting start others jr s) (apart : Apart others jr) :
    Ensures (· = s) (advanceWith o1 site setting.now revert jr)
      (fun _ => Worked o1 setting start others) (Raising o1 setting start) := by
  have runs : jr.job.status = .processing := by
    obtain ⟨_, _, _, _, _, set⟩ := going.kept
    exact set.runs
  unfold advanceWith
  apply Ensures.reads
  have wired : Ensures (Wire.Log s.world.sent s.world.fresh)
      (advanceWaves o1 site setting.now jr s.working.alarms)
      (Ran o1 setting.now jr s.world.sent s.world.fresh)
      (Lost o1 setting.now jr s.world.sent s.world.fresh) := advanceWaves_ran runs
  have waves : Ensures (· = s) (outside (advanceWaves o1 site setting.now jr s.working.alarms))
      (fun ran t => ∃ w, Ran o1 setting.now jr s.world.sent s.world.fresh ran w ∧
        t = { s with world := w }) (Raising o1 setting start) := by
    refine Ensures.outside wired ?_ ?_ ?_
    · rintro _ rfl
      exact ⟨rfl, rfl⟩
    · rintro _ ran w rfl ended
      exact ⟨w, ended, rfl⟩
    · rintro _ w rfl ⟨new, sentFor, log, unanswered⟩
      obtain ⟨b, lost, _, kept, -⟩ := going.lose numbered sentFor
        (fun answers => absurd answers unanswered) log
      exact ⟨going.kills.committed, b, lost, kept⟩
  apply waves.bind
  intro ran
  apply Ensures.each
  rintro _ ⟨w, ⟨new, advance, undo, log⟩, rfl⟩
  apply (Ensures.update _).bind
  intro _
  have same := advance.same
  have others' := Bystanders.put going.others apart same
  have move : ∀ {b'}, SetGoing setting b' jr (boardOf s.working s.world) →
      Move o1 setting b' ⟨replaceJob s.working.jobs ran.jr, w.sent, w.fresh⟩ := by
    intro b' set
    rw [log.1, log.2]
    exact .ran set advance
  cases failed : ran.undo with
  | none =>
    rintro _ rfl
    obtain ⟨b, lost, b', kept, moves, set⟩ := going.kept
    exact ⟨⟨going.kills.working, going.kills.committed⟩, (kept.1.trans moves).tail (move set),
      others'⟩
  | some failure =>
    have running : ran.jr.job.status = .processing := by
      by_contra stopped
      rw [undo.mpr stopped] at failed
      cases failed
    have revert := advance.revert runs running
    obtain ⟨b, lost, b', kept, moves, set⟩ := going.lose numbered advance.sentFor
      (fun _ => same.onGateFailure.symm.trans revert) log
    refine reverts failure ⟨⟨going.kills.working, going.kills.committed⟩,
      ⟨b, lost, kept, moves.tail (move set)⟩, others'⟩ (mem_put set.mem same) running revert ?_
    intro other inside
    rw [same.jobId]
    exact apart other inside

theorem raiseProblem_raising (ahead : Ahead o1 setting start others s) (error : FrameworkError)
    (detail : String) {post : α → Session Store (Wire σ) → Prop} :
    Ensures (· = s) (raiseProblem error detail : Db σ α) post (Raising o1 setting start) :=
  throw_raising _ fun _ same => same ▸ ahead

theorem windowOver_false {close : Option Time} (inside : ¬windowOver now close) :
    windowOver now close = false := by
  simpa using inside

theorem opened_of {start : Option Time} (opened : ¬start.any (now < ·)) :
    ∀ opens ∈ start, opens ≤ now := by
  rintro opens rfl
  simpa using opened

theorem approveWindowWith_worked {revert : JobRows → String → Db σ JobRows}
    (numbered : Numbered start) (reverts : Reverts o1 setting start revert)
    (ahead : Ahead o1 setting start others s) (mem : jr ∈ s.working.jobs)
    (waits : jr.job.status = .pendingApproval) {name : String}
    (may : setting.mayDecide name jr.job.requestedBy jr.job.invokerId) (reason : Option String)
    (apart : Apart others jr) :
    Ensures (· = s) (approveWindowWith o1 site setting.now revert jr name reason)
      (fun _ => Worked o1 setting start others) (Raising o1 setting start) := by
  unfold approveWindowWith
  apply Ensures.ite
  · exact fun _ => raiseProblem_raising ahead _ _
  intro inside
  apply (keep_at _).bind
  intro decided
  apply Ensures.of_fact
  rintro rfl
  have change : JobChange setting jr (decidedJob setting.now jr name reason) := .decided waits may
  have decidedAhead := ahead.change mem change apart
  have decidedMem : decidedJob setting.now jr name reason ∈
    (s.working.put (decidedJob setting.now jr name reason)).jobs := mem_put mem change.same
  have decision : DecidedNow setting (decidedJob setting.now jr name reason).job :=
    ⟨rfl, name, rfl, may⟩
  have waits' : (decidedJob setting.now jr name reason).job.status = .pendingApproval := waits
  apply Ensures.ite
  · intro early
    apply (orRaise_same decidedAhead _).bind
    intro status
    apply Ensures.of_fact
    intro fired
    rw [waits'] at fired
    cases fired
    apply (keep_at _).weaken (fun _ same => same) _ fun _ h => h
    rintro _ _ ⟨rfl, rfl⟩
    exact (decidedAhead.change decidedMem (.scheduled waits' decision) apart).worked
  · intro opened
    apply (refuseIfKilled_clear decidedAhead _ _).bind
    intro _
    apply Ensures.of_fact
    intro clear
    apply (orRaise_same decidedAhead _).bind
    intro status
    apply Ensures.of_fact
    intro fired
    rw [waits'] at fired
    cases fired
    apply (keep_at _).bind
    intro started
    apply Ensures.of_fact
    rintro rfl
    have goes : Goes setting _ (startedJob setting.now _ .processing) :=
      .approved waits' decision (windowOver_false inside) (opened_of opened) clear
    exact advanceWith_worked numbered reverts (decidedAhead.goes decidedMem goes apart) apart

theorem Kept.numbered_next {b : Board} {lost : List Dispatch}
    (kept : Kept o1 setting start s b lost) {working : Store} :
    Kept o1 setting start { s with
      working, world := { s.world with fresh := s.world.fresh + 1 } } b lost := by
  obtain ⟨reached, jobs, sent, fresh, all⟩ := kept
  refine ⟨reached, jobs, sent, Nat.le_succ_of_le fresh, fun dispatch mem => ?_⟩
  exact ⟨(all dispatch mem).1, Nat.lt_succ_of_lt (all dispatch mem).2⟩

def withNewJob (now : Time) (body : WriteConfigRequest) (origin : Origin)
    (s : Session Store (Wire σ)) : Session Store (Wire σ) :=
  { s with
    working := s.working.add (newJob now body origin s.world.fresh)
    world := { s.world with fresh := s.world.fresh + 1 } }

theorem Ahead.held (ahead : Ahead o1 setting start others s) {body : WriteConfigRequest}
    {origin : Origin} (held : holds body origin = true) :
    Ahead o1 setting start others (withNewJob setting.now body origin s) := by
  obtain ⟨b, lost, kept, moves⟩ := ahead.kept
  refine ⟨⟨ahead.kills.working, ahead.kills.committed⟩, ⟨b, lost, kept.numbered_next, ?_⟩,
    fun jr mem => List.mem_append_left _ (ahead.others jr mem)⟩
  exact moves.tail (.held (b := boardOf s.working s.world) held)

theorem Ahead.made (ahead : Ahead o1 setting start others s) {body : WriteConfigRequest}
    {origin : Origin} (free : holds body origin = false) (clear : Clear setting origin.invoker) :
    Going o1 setting start others (newJob setting.now body origin s.world.fresh)
      (withNewJob setting.now body origin s) := by
  obtain ⟨b, lost, kept, moves⟩ := ahead.kept
  refine ⟨⟨ahead.kills.working, ahead.kills.committed⟩, ⟨b, lost, _, kept.numbered_next, moves, ?_⟩,
    fun jr mem => List.mem_append_left _ (ahead.others jr mem)⟩
  exact .made (b := boardOf s.working s.world) free clear

theorem apart_new (numbered : Numbered start) (ahead : Ahead o1 setting start others s)
    (body : WriteConfigRequest) (origin : Origin) :
    Apart others (newJob setting.now body origin s.world.fresh) := by
  intro other mem
  have used := (ahead.numbered numbered).used other (ahead.others other mem)
  exact Nat.ne_of_lt used

def DecidedWell (setting : Setting) (body : WriteConfigRequest) (origin : Origin) : Prop :=
  ∀ row ∈ origin.approval, ∃ name ∈ row.decidedBy,
    setting.mayDecide name body.requestedBy origin.invoker

theorem clear_none : Clear setting none := by
  rintro name ⟨⟩

theorem decidedWell_of_none {body : WriteConfigRequest} {origin : Origin}
    (unasked : origin.approval = none) : DecidedWell setting body origin := by
  intro row asked
  rw [unasked] at asked
  cases asked

theorem Going.unseen (going : Going o1 setting start others jr s) (f : Store → Store)
    (jobs : (f s.working).jobs = s.working.jobs) (kills : (f s.working).kills = s.working.kills) :
    Going o1 setting start others jr { s with working := f s.working } := by
  obtain ⟨b, lost, b', kept, moves, set⟩ := going.kept
  refine ⟨⟨kills.trans going.kills.working, going.kills.committed⟩, ⟨b, lost, b', kept, moves, ?_⟩,
    ?_⟩
  · rw [boardOf, jobs]
    exact set
  · intro other mem
    rw [jobs]
    exact going.others other mem

theorem closeApproved_at (approval : Option RAppActionApproval) (jobId : Nat)
    {raises : Session Store (Wire σ) → Prop} :
    Ensures (· = s) (closeApproved approval jobId : Db σ Unit)
      (fun _ t => ∃ f : Store → Store, (f s.working).jobs = s.working.jobs ∧
        (f s.working).kills = s.working.kills ∧ t = { s with working := f s.working }) raises := by
  cases approval with
  | none =>
    rintro _ rfl
    exact ⟨id, rfl, rfl, rfl⟩
  | some row =>
    rintro _ rfl
    exact ⟨(·.putApproval { row with status := .approved, jobId := some jobId }), rfl, rfl, rfl⟩

theorem startJobWith_worked {revert : JobRows → String → Db σ JobRows}
    (numbered : Numbered start) (reverts : Reverts o1 setting start revert)
    (ahead : Ahead o1 setting start others s) (body : WriteConfigRequest) (origin : Origin)
    (clear : Clear setting origin.invoker) (decision : DecidedWell setting body origin)
    (f : Store → Store)
    (jobs : (f (withNewJob setting.now body origin s).working).jobs =
      (withNewJob setting.now body origin s).working.jobs)
    (kills : (f (withNewJob setting.now body origin s).working).kills =
      (withNewJob setting.now body origin s).working.kills) :
    Ensures
      (· = { withNewJob setting.now body origin s with
        working := f (withNewJob setting.now body origin s).working })
      (startJobWith o1 site setting.now revert (holds body origin) origin.approval
        (newJob setting.now body origin s.world.fresh))
      (fun _ => Worked o1 setting start others) (Raising o1 setting start) := by
  have apart := apart_new numbered ahead body origin
  cases held : holds body origin with
  | true =>
    have waits : (newJob setting.now body origin s.world.fresh).job.status = .pendingApproval := by
      simp only [newJob, held, if_true]
    have added := (ahead.held held).unseen f jobs kills
    have mem : newJob setting.now body origin s.world.fresh ∈
        (f (withNewJob setting.now body origin s).working).jobs := by
      rw [jobs]
      exact List.mem_append_right _ List.mem_cons_self
    cases approval : origin.approval with
    | none => exact fun _ same => same ▸ added.worked
    | some row =>
      obtain ⟨name, decidedBy, may⟩ := decision row approval
      simp only [startJobWith, Option.mem_def.mp decidedBy, Option.getD_some]
      exact approveWindowWith_worked numbered reverts added mem waits may _ apart
  | false =>
    simp only [startJobWith]
    exact advanceWith_worked numbered reverts ((ahead.made held clear).unseen f jobs kills) apart

theorem makeJobWith_ahead {revert : JobRows → String → Db σ JobRows}
    (numbered : Numbered start) (reverts : Reverts o1 setting start revert)
    (ahead : Ahead o1 setting start others s) (body : WriteConfigRequest) (origin : Origin)
    (clear : Clear setting origin.invoker) (decision : DecidedWell setting body origin) :
    Ensures (· = s) (makeJobWith o1 site setting.now revert body origin)
      (fun _ => Ahead o1 setting start others) (Raising o1 setting start) := by
  unfold makeJobWith
  apply newId_at.bind
  intro jobId
  apply Ensures.of_fact
  rintro rfl
  apply (Ensures.update _).bind
  intro _
  apply (closeApproved_at _ _).bind
  intro _
  apply Ensures.each
  rintro _ ⟨f, jobs, kills, rfl⟩
  apply (startJobWith_worked numbered reverts ahead body origin clear decision f jobs kills).bind
  intro final
  exact commit_ahead.bind fun _ _ ahead => ahead

theorem executeWriteWith_ahead {revert : JobRows → String → Db σ JobRows}
    (numbered : Numbered start) (reverts : Reverts o1 setting start revert)
    (ahead : Ahead o1 setting start others s) (body : WriteConfigRequest) (origin : Origin)
    (clear : Clear setting origin.invoker) (decision : DecidedWell setting body origin) :
    Ensures (· = s) (executeWriteWith o1 site setting.now revert body origin)
      (fun _ => Ahead o1 setting start others) (Raising o1 setting start) := by
  unfold executeWriteWith
  apply (orThrow_same ahead _).bind
  intro _
  apply Ensures.of_fact
  intro _
  apply Ensures.ite
  · exact fun _ _ same => same ▸ ahead
  intro _
  cases parkPolicy site origin with
  | some policy =>
    rintro _ rfl
    exact (ahead.unseen (fun store => { store with approvals := store.approvals ++ [_] })
      rfl rfl).worked.committed
  | none =>
    apply Ensures.ite
    · exact fun _ => raiseProblem_raising ahead _ _
    · exact fun _ => makeJobWith_ahead numbered reverts ahead body origin clear decision

theorem executeUndo_ahead (numbered : Numbered start) (ahead : Ahead o1 setting start others s)
    (body : WriteConfigRequest) (origin : Origin) (clear : Clear setting origin.invoker)
    (decision : DecidedWell setting body origin) :
    Ensures (· = s) (executeUndo o1 site setting.now body origin)
      (fun _ => Ahead o1 setting start others) (Raising o1 setting start) :=
  executeWriteWith_ahead numbered
    (fun _ ahead _ _ _ _ => throw_raising _ fun _ same => same ▸ ahead) ahead body origin clear
    decision

theorem autoRevert_reverts (numbered : Numbered start) :
    Reverts o1 setting start (autoRevert o1 site setting.now) := by
  intro others s jr failure ahead mem runs revert apart
  unfold autoRevert autoRevertWith
  apply networkNow_same.bind
  intro network
  apply Ensures.of_fact
  rintro rfl
  apply Ensures.ite
  · intro _
    apply (orRaise_same ahead _).bind
    intro halted
    apply Ensures.of_fact
    intro held
    apply (keep_at _).weaken (fun _ same => same) _ fun _ h => h
    rintro _ _ ⟨rfl, rfl⟩
    exact (ahead.change mem (.revertRefused runs revert held) apart).worked
  · intro _
    have aside : Ahead o1 setting start (jr :: others) s :=
      ⟨ahead.kills, ahead.kept, List.forall_mem_cons.mpr ⟨mem, ahead.others⟩⟩
    apply (executeUndo_ahead numbered aside _ _ clear_none (decidedWell_of_none rfl)).bind
    intro written
    apply Ensures.each
    intro t undone
    have mem' := undone.others jr List.mem_cons_self
    have ahead' : Ahead o1 setting start others t :=
      ⟨undone.kills, undone.kept, fun other inside => undone.others other (.tail _ inside)⟩
    cases written with
    | planned verdicts => exact throw_raising _ fun _ same => same ▸ ahead'
    | parked approvalId => exact throw_raising _ fun _ same => same ▸ ahead'
    | made undo =>
      apply Ensures.ite
      · intro _
        apply (orRaise_same ahead' _).bind
        intro halted
        apply Ensures.of_fact
        intro held
        apply (keep_at _).weaken (fun _ same => same) _ fun _ h => h
        rintro _ _ ⟨rfl, rfl⟩
        exact (ahead'.change mem' (.revertRefused runs revert held) apart).worked
      · intro _
        apply (orRaise_same ahead' _).bind
        intro ended
        apply Ensures.of_fact
        intro finished
        apply (keep_at _).weaken (fun _ same => same) _ fun _ h => h
        rintro _ _ ⟨rfl, rfl⟩
        exact (ahead'.change mem' (.reverted runs revert finished) apart).worked

end Rules

end Smo.RanNfOam.ConfigJobs
