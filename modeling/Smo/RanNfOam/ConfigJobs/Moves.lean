import Mathlib.Logic.Relation
import Smo.RanNfOam.ConfigJobs.Advance
import Smo.RanNfOam.ConfigJobs.Approvals

/-! What the routes can do to the jobs, as moves on a board of the jobs and of what was
sent: a job is made, one job changes, or its waves run. -/
namespace Smo.RanNfOam.ConfigJobs

structure Board where
  jobs : List JobRows
  sent : List Dispatch
  fresh : Nat

def boardOf {σ : Type} (store : Store) (wire : Wire σ) : Board :=
  ⟨store.jobs, wire.sent, wire.fresh⟩

/-- What a request finds: the stopped rApps and the time; the job it names to go on, by force
or not, and those its sweep lists; who may decide what was asked for by someone for an
invoker. -/
structure Setting where
  kills : List RAppKill
  now : Time
  named : JobRows → Prop
  forced : Nat → Prop
  listed : JobRows → Prop
  mayDecide : (name requestedBy : String) → (invokerId : Option String) → Prop

def Clear (setting : Setting) (invoker : Option String) : Prop :=
  ∀ name ∈ invoker, setting.kills.find? (·.invokerId = name) = none

def DecidedNow (setting : Setting) (job : WriteConfigJob) : Prop :=
  job.decidedAt = some setting.now ∧
    ∃ name ∈ job.decidedBy, setting.mayDecide name job.requestedBy job.invokerId

inductive Goes (setting : Setting) (jr : JobRows) : JobRows → Prop
  | approved (waits : jr.job.status = .pendingApproval) (decision : DecidedNow setting jr.job)
      (before : windowOver setting.now jr.job.windowEnd = false)
      (opened : ∀ start ∈ jr.job.scheduledAt, start ≤ setting.now)
      (clear : Clear setting jr.job.invokerId) :
      Goes setting jr (startedJob setting.now jr .processing)
  | started (waits : jr.job.status = .scheduled)
      (before : windowOver setting.now jr.job.windowEnd = false)
      (opened : (∀ start ∈ jr.job.scheduledAt, start ≤ setting.now) ∨ setting.forced jr.job.jobId)
      (clear : Clear setting jr.job.invokerId) :
      Goes setting jr (startedJob setting.now jr .processing)
  | continued {after : JobRows} (waits : jr.job.status = .halted) (named : setting.named jr)
      (clear : Clear setting jr.job.invokerId) (going : resumed jr = .ok after) :
      Goes setting jr after
  | swept {after : JobRows} (waits : jr.job.status = .halted) (listed : setting.listed jr)
      (going : resumed jr = .ok after) : Goes setting jr after

inductive JobChange (setting : Setting) (jr : JobRows) : JobRows → Prop
  | decided {name : String} {reason : Option String} (waits : jr.job.status = .pendingApproval)
      (may : setting.mayDecide name jr.job.requestedBy jr.job.invokerId) :
      JobChange setting jr (decidedJob setting.now jr name reason)
  | scheduled (waits : jr.job.status = .pendingApproval) (decision : DecidedNow setting jr.job) :
      JobChange setting jr { jr with job := { jr.job with status := .scheduled } }
  | operatorHalt {detail : String} (waits : jr.job.status = .halted) :
      JobChange setting jr { jr with job := { jr.job with
        haltedReason := some .operatorHalt, haltedDetail := some detail, nextWaveAt := none } }
  | aborted {requestedBy : String} {after : JobRows} (waits : jr.job.status = .halted)
      (ended : ConfigJobs.aborted jr requestedBy = .ok after) : JobChange setting jr after
  | rejected {name : String} {reason : Option String} {after : JobRows}
      (waits : jr.job.status ∈ [JobState.pendingApproval, .scheduled])
      (ended : rejectedJob setting.now jr name reason = .ok after) : JobChange setting jr after
  | revertRefused {detail : Option String} {after : JobRows} (runs : jr.job.status = .processing)
      (revert : jr.job.onGateFailure = .revert)
      (held : halt jr .revertRefused detail = .ok after) : JobChange setting jr after
  | reverted {detail : Option String} {after : JobRows} (runs : jr.job.status = .processing)
      (revert : jr.job.onGateFailure = .revert)
      (ended : finish {
        job := { jr.job with haltedReason := some .gateFailed, haltedDetail := detail }
        rows := jr.rows.map undoneRow } = .ok after) : JobChange setting jr after

structure SameJob (job job' : WriteConfigJob) : Prop where
  jobId : job'.jobId = job.jobId
  onGateFailure : job'.onGateFailure = job.onGateFailure
  invokerId : job'.invokerId = job.invokerId
  createdAt : job'.createdAt = job.createdAt

theorem SameJob.refl (job : WriteConfigJob) : SameJob job job := ⟨rfl, rfl, rfl, rfl⟩

theorem SameJob.trans {job job' job'' : WriteConfigJob} (first : SameJob job job')
    (later : SameJob job' job'') : SameJob job job'' :=
  ⟨later.jobId.trans first.jobId, later.onGateFailure.trans first.onGateFailure,
    later.invokerId.trans first.invokerId, later.createdAt.trans first.createdAt⟩

variable {jr after : JobRows}

theorem finish_same (ended : finish jr = .ok after) :
    ∃ status, after = { jr with job := { jr.job with status, nextWaveAt := none } } := by
  obtain ⟨status, -, same⟩ := bind_ok ended
  cases same
  exact ⟨status, rfl⟩

theorem halt_same {reason : HaltedReason} {detail : Option String} {nextAt : Option Time}
    (held : halt jr reason detail nextAt = .ok after) :
    ∃ status, after = { jr with job := { jr.job with
      status, haltedReason := some reason, haltedDetail := detail, nextWaveAt := nextAt } } := by
  obtain ⟨status, -, same⟩ := bind_ok held
  cases same
  exact ⟨status, rfl⟩

theorem rejectedJob_same {now : Time} {name : String} {reason : Option String}
    (waits : jr.job.status ∈ [JobState.pendingApproval, .scheduled])
    (ended : rejectedJob now jr name reason = .ok after) : after = {
      job := { jr.job with
        status := .rejected, decidedBy := some name, decidedAt := some now
        decisionReason := reason }
      rows := jr.rows.map fun row =>
        { row with status := .rejected, rejectionReason := some "APPROVAL_REJECTED" } } := by
  obtain ⟨status, fired, same⟩ := bind_ok ended
  simp only [List.mem_cons, List.not_mem_nil, or_false] at waits
  rcases waits with waits | waits
  all_goals
    rw [waits] at fired
    cases fired
    cases same
    rfl

theorem JobChange.same {setting : Setting} (change : JobChange setting jr after) :
    SameJob jr.job after.job := by
  cases change with
  | decided | scheduled | operatorHalt => exact ⟨rfl, rfl, rfl, rfl⟩
  | aborted _ ended | reverted _ _ ended =>
    obtain ⟨status, rfl⟩ := finish_same ended
    exact ⟨rfl, rfl, rfl, rfl⟩
  | rejected waits ended =>
    obtain rfl := rejectedJob_same waits ended
    exact ⟨rfl, rfl, rfl, rfl⟩
  | revertRefused _ _ held =>
    obtain ⟨status, rfl⟩ := halt_same held
    exact ⟨rfl, rfl, rfl, rfl⟩

theorem Goes.same {setting : Setting} (goes : Goes setting jr after) :
    SameJob jr.job after.job := by
  cases goes with
  | approved | started => exact ⟨rfl, rfl, rfl, rfl⟩
  | continued _ _ _ going | swept _ _ going =>
    cases going
    exact ⟨rfl, rfl, rfl, rfl⟩

theorem Goes.runs {setting : Setting} (goes : Goes setting jr after) :
    after.job.status = .processing := by
  cases goes with
  | approved | started => rfl
  | continued _ _ _ going | swept _ _ going =>
    cases going
    rfl

section Moves

variable {σ : Type} (o1 : O1Clients σ) (setting : Setting)

variable {now : Time} {before after jr : JobRows} {new : List Dispatch}

theorem WaveRan.same {o1 : O1Clients σ} (ran : WaveRan o1 now before after new) :
    SameJob before.job after.job := by
  rw [ran.job]
  exact ⟨rfl, rfl, rfl, rfl⟩

theorem Advance.same {o1 : O1Clients σ} (advance : Advance o1 now before new after) :
    SameJob before.job after.job := by
  induction advance with
  | ended ran last finished =>
    obtain ⟨status, rfl⟩ := finish_same finished
    exact ran.same.trans ⟨rfl, rfl, rfl, rfl⟩
  | halted ran inside held =>
    obtain ⟨status, rfl⟩ := halt_same held
    exact ran.same.trans ⟨rfl, rfl, rfl, rfl⟩
  | failed ran => exact ran.same
  | next ran inside rest ih => exact ran.same.trans ih

structure SameTerms (job job' : WriteConfigJob) : Prop where
  jobId : job'.jobId = job.jobId
  requestedBy : job'.requestedBy = job.requestedBy
  invokerId : job'.invokerId = job.invokerId
  decidedBy : job'.decidedBy = job.decidedBy
  decidedAt : job'.decidedAt = job.decidedAt
  scheduledAt : job'.scheduledAt = job.scheduledAt
  windowEnd : job'.windowEnd = job.windowEnd

theorem SameTerms.trans {job job' job'' : WriteConfigJob} (first : SameTerms job job')
    (later : SameTerms job' job'') : SameTerms job job'' :=
  ⟨later.jobId.trans first.jobId, later.requestedBy.trans first.requestedBy,
    later.invokerId.trans first.invokerId, later.decidedBy.trans first.decidedBy,
    later.decidedAt.trans first.decidedAt, later.scheduledAt.trans first.scheduledAt,
    later.windowEnd.trans first.windowEnd⟩

theorem WaveRan.sameTerms {o1 : O1Clients σ} (ran : WaveRan o1 now before after new) :
    SameTerms before.job after.job := by
  rw [ran.job]
  exact ⟨rfl, rfl, rfl, rfl, rfl, rfl, rfl⟩

theorem Advance.sameTerms {o1 : O1Clients σ} (advance : Advance o1 now before new after) :
    SameTerms before.job after.job := by
  induction advance with
  | ended ran last finished =>
    obtain ⟨status, rfl⟩ := finish_same finished
    exact ran.sameTerms.trans ⟨rfl, rfl, rfl, rfl, rfl, rfl, rfl⟩
  | halted ran inside held =>
    obtain ⟨status, rfl⟩ := halt_same held
    exact ran.sameTerms.trans ⟨rfl, rfl, rfl, rfl, rfl, rfl, rfl⟩
  | failed ran => exact ran.sameTerms
  | next ran inside rest ih => exact ran.sameTerms.trans ih

theorem Goes.sameTerms {setting : Setting} (goes : Goes setting jr after) :
    SameTerms jr.job after.job := by
  cases goes with
  | approved | started => exact ⟨rfl, rfl, rfl, rfl, rfl, rfl, rfl⟩
  | continued _ _ _ going | swept _ _ going =>
    cases going
    exact ⟨rfl, rfl, rfl, rfl, rfl, rfl, rfl⟩

theorem SentFor.sameTerms {dispatch : Dispatch} (sent : SentFor now jr dispatch) :
    SameTerms jr.job dispatch.job := by
  obtain ⟨-, wave, job⟩ := sent
  rw [job]
  exact ⟨rfl, rfl, rfl, rfl, rfl, rfl, rfl⟩

inductive SetGoing (b : Board) : JobRows → Board → Prop
  | made {body : WriteConfigRequest} {origin : Origin} (free : holds body origin = false)
      (clear : Clear setting origin.invoker) :
      SetGoing b (newJob setting.now body origin b.fresh)
        ⟨b.jobs ++ [newJob setting.now body origin b.fresh], b.sent, b.fresh + 1⟩
  | goes {jr after : JobRows} (mem : jr ∈ b.jobs) (goes : Goes setting jr after) :
      SetGoing b after { b with jobs := replaceJob b.jobs after }

inductive Move : Board → Board → Prop
  | held {b : Board} {body : WriteConfigRequest} {origin : Origin}
      (held : holds body origin = true) :
      Move b ⟨b.jobs ++ [newJob setting.now body origin b.fresh], b.sent, b.fresh + 1⟩
  | changed {b : Board} {jr after : JobRows} (mem : jr ∈ b.jobs)
      (change : JobChange setting jr after) : Move b { b with jobs := replaceJob b.jobs after }
  | ran {b b' : Board} {jr after : JobRows} {new : List Dispatch}
      (going : SetGoing setting b jr b') (advance : Advance o1 setting.now jr new after) :
      Move b ⟨replaceJob b'.jobs after, b'.sent ++ new, b'.fresh⟩

abbrev Moves : Board → Board → Prop := Relation.ReflTransGen (Move o1 setting)

/-- A dispatch for a job that was set going after a commit; the clients answered only if the
job was to be undone. -/
def LostFrom (b : Board) (dispatch : Dispatch) : Prop :=
  ∃ b' b'' jr, Moves o1 setting b b' ∧ SetGoing setting b' jr b'' ∧
    SentFor setting.now jr dispatch ∧ (o1.Answers → jr.job.onGateFailure = .revert)

structure Numbered (b : Board) : Prop where
  used : ∀ jr ∈ b.jobs, jr.job.jobId < b.fresh
  sent : ∀ dispatch ∈ b.sent, dispatch.job.jobId < b.fresh
  distinct : (b.jobs.map (·.job.jobId)).Nodup

end Moves

theorem mem_replaceJob {jobs : List JobRows} :
    jr ∈ replaceJob jobs after ↔ (jr ∈ jobs ∧ jr.job.jobId ≠ after.job.jobId) ∨
      (jr = after ∧ ∃ old ∈ jobs, old.job.jobId = after.job.jobId) := by
  rw [replaceJob, List.mem_map]
  constructor
  · rintro ⟨old, mem, same⟩
    by_cases replaced : old.job.jobId = after.job.jobId
    · rw [if_pos replaced] at same
      exact .inr ⟨same.symm, old, mem, replaced⟩
    · rw [if_neg replaced] at same
      subst same
      exact .inl ⟨mem, replaced⟩
  · rintro (⟨mem, kept⟩ | ⟨rfl, old, mem, replaced⟩)
    · exact ⟨jr, mem, if_neg kept⟩
    · exact ⟨old, mem, if_pos replaced⟩

theorem replaceJob_ids (jobs : List JobRows) (after : JobRows) :
    (replaceJob jobs after).map (·.job.jobId) = jobs.map (·.job.jobId) := by
  rw [replaceJob, List.map_map]
  apply List.map_congr_left
  intro old _
  simp only [Function.comp]
  split
  next same => exact same.symm
  next => rfl

section Numbering

variable {σ : Type} {o1 : O1Clients σ} {setting : Setting} {b b' : Board}

variable {jr after : JobRows}

theorem Numbered.replace (numbered : Numbered b) {new : List Dispatch} (mem : jr ∈ b.jobs)
    (same : SameJob jr.job after.job) (sent : ∀ dispatch ∈ new, dispatch.job.jobId = jr.job.jobId) :
    Numbered ⟨replaceJob b.jobs after, b.sent ++ new, b.fresh⟩ := by
  have used := numbered.used jr mem
  refine ⟨fun other inside => ?_, fun dispatch inside => ?_, ?_⟩
  · rcases mem_replaceJob.mp inside with ⟨old, -⟩ | ⟨rfl, -⟩
    · exact numbered.used other old
    · rw [same.jobId]
      exact used
  · rcases List.mem_append.mp inside with old | fresh
    · exact numbered.sent dispatch old
    · rw [sent dispatch fresh]
      exact used
  · rw [replaceJob_ids]
    exact numbered.distinct

theorem SentFor.jobId {now : Time} {dispatch : Dispatch} (sent : SentFor now jr dispatch) :
    dispatch.job.jobId = jr.job.jobId := by
  obtain ⟨-, wave, job⟩ := sent
  rw [job]

theorem Numbered.add (numbered : Numbered b) (body : WriteConfigRequest) (origin : Origin) :
    Numbered ⟨b.jobs ++ [newJob setting.now body origin b.fresh], b.sent, b.fresh + 1⟩ := by
  refine ⟨fun jr mem => ?_, fun dispatch mem => ?_, ?_⟩
  · rcases List.mem_append.mp mem with old | new
    · exact Nat.lt_succ_of_lt (numbered.used jr old)
    · obtain rfl := List.mem_singleton.mp new
      exact Nat.lt_succ_self _
  · exact Nat.lt_succ_of_lt (numbered.sent dispatch mem)
  · rw [List.map_append, List.nodup_append]
    refine ⟨numbered.distinct, List.nodup_singleton _, fun jobId old other new => ?_⟩
    obtain ⟨jr, mem, rfl⟩ := List.mem_map.mp old
    obtain rfl := List.mem_singleton.mp new
    have used := numbered.used jr mem
    exact Nat.ne_of_lt used

theorem Numbered.change (numbered : Numbered b) (mem : jr ∈ b.jobs)
    (same : SameJob jr.job after.job) : Numbered { b with jobs := replaceJob b.jobs after } := by
  have none_ : ∀ dispatch ∈ ([] : List Dispatch), dispatch.job.jobId = jr.job.jobId :=
    fun _ inside => absurd inside List.not_mem_nil
  simpa using numbered.replace mem same none_

theorem SetGoing.numbered (going : SetGoing setting b jr b') (numbered : Numbered b) :
    Numbered b' := by
  cases going with
  | made => exact numbered.add _ _
  | goes mem goes => exact numbered.change mem goes.same

theorem SetGoing.mem (going : SetGoing setting b jr b') : jr ∈ b'.jobs := by
  cases going with
  | made => exact List.mem_append_right _ List.mem_cons_self
  | goes mem goes => exact mem_replaceJob.mpr (.inr ⟨rfl, _, mem, goes.same.jobId.symm⟩)

theorem SetGoing.runs (going : SetGoing setting b jr b') : jr.job.status = .processing := by
  cases going with
  | made free => simp only [newJob, free, Bool.false_eq_true, if_false]
  | goes mem goes => exact goes.runs

theorem SetGoing.sent (going : SetGoing setting b jr b') : b'.sent = b.sent := by
  cases going with
  | made => rfl
  | goes => rfl

theorem Move.numbered (move : Move o1 setting b b') (numbered : Numbered b) : Numbered b' := by
  cases move with
  | held => exact numbered.add _ _
  | changed mem change => exact numbered.change mem change.same
  | ran going advance =>
    exact (going.numbered numbered).replace going.mem advance.same fun dispatch inside =>
      (advance.sentFor dispatch inside).jobId

theorem Moves.numbered (moves : Moves o1 setting b b') (numbered : Numbered b) : Numbered b' := by
  induction moves with
  | refl => exact numbered
  | tail _ move ih => exact move.numbered ih

def Stays (b b' : Board) : Prop :=
  ∀ jr ∈ b.jobs, ∃ jr' ∈ b'.jobs, SameJob jr.job jr'.job

theorem Stays.trans {b'' : Board} (first : Stays b b') (later : Stays b' b'') : Stays b b'' := by
  intro jr mem
  obtain ⟨jr', mem', same⟩ := first jr mem
  obtain ⟨jr'', mem'', same'⟩ := later jr' mem'
  exact ⟨jr'', mem'', same.trans same'⟩

theorem stays_replace (numbered : Numbered b) (mem : jr ∈ b.jobs) (same : SameJob jr.job after.job)
    {sent : List Dispatch} {fresh : Nat} : Stays b ⟨replaceJob b.jobs after, sent, fresh⟩ := by
  intro other inside
  by_cases isJr : other.job.jobId = after.job.jobId
  · have is : other = jr := List.inj_on_of_nodup_map numbered.distinct inside mem
      (isJr.trans same.jobId)
    subst is
    exact ⟨after, mem_replaceJob.mpr (.inr ⟨rfl, other, inside, isJr⟩), same⟩
  · exact ⟨other, mem_replaceJob.mpr (.inl ⟨inside, isJr⟩), .refl _⟩

theorem SetGoing.stays (going : SetGoing setting b jr b') (numbered : Numbered b) : Stays b b' := by
  cases going with
  | made => exact fun other mem => ⟨other, List.mem_append_left _ mem, .refl _⟩
  | goes mem goes => exact stays_replace numbered mem goes.same

theorem Move.stays (move : Move o1 setting b b') (numbered : Numbered b) : Stays b b' := by
  cases move with
  | held => exact fun other mem => ⟨other, List.mem_append_left _ mem, .refl _⟩
  | changed mem change => exact stays_replace numbered mem change.same
  | ran going advance =>
    exact (going.stays numbered).trans
      (stays_replace (going.numbered numbered) going.mem advance.same)

theorem Moves.stays (moves : Moves o1 setting b b') (numbered : Numbered b) : Stays b b' := by
  induction moves with
  | refl => exact fun jr mem => ⟨jr, mem, .refl _⟩
  | tail earlier move ih => exact ih.trans (move.stays (Moves.numbered earlier numbered))

end Numbering

end Smo.RanNfOam.ConfigJobs
