import Smo.RanNfOam.ConfigJobs.Decisions

/-! The four-eyes rule over whole runs: held jobs that were sent were decided by an outsider,
approved rApp actions by as many as they need, as long as nobody decides alone on what they
asked for under another spelling of their name. -/
namespace Smo.RanNfOam.ConfigJobs

open Transaction Runs

def waitingStates : List JobState := [.pendingApproval, .scheduled]

abbrev Deciders := (name requestedBy : String) → (invokerId : Option String) → Prop

def Heard (may : Deciders) (job : WriteConfigJob) : Prop :=
  ∀ name ∈ job.decidedBy, may name job.requestedBy job.invokerId

/-- The jobs and what was sent for them: a decision that was not a withdrawal is of someone
who may, and a job that was held is only sent once decided. -/
structure Decided (may : Deciders) (held : Nat → Prop) (b : Board) : Prop where
  heard : ∀ jr ∈ b.jobs, jr.job.status = .rejected ∨ Heard may jr.job
  scheduled : ∀ jr ∈ b.jobs, jr.job.status = .scheduled → jr.job.decidedBy.isSome
  heldJobs : ∀ jr ∈ b.jobs, held jr.job.jobId →
    jr.job.status = .pendingApproval ∨ jr.job.status = .rejected ∨ jr.job.decidedBy.isSome
  sentHeard : ∀ dispatch ∈ b.sent, Heard may dispatch.job
  sentHeld : ∀ dispatch ∈ b.sent, held dispatch.job.jobId → dispatch.job.decidedBy.isSome
  sentWaiting : ∀ dispatch ∈ b.sent, ∀ jr ∈ b.jobs, jr.job.jobId = dispatch.job.jobId →
    jr.job.status ∈ waitingStates → dispatch.job.decidedBy.isSome
  known : ∀ jobId, held jobId → jobId < b.fresh

section Boards

variable {σ : Type} {o1 : O1Clients σ} {may : Deciders} {setting : Setting} {held : Nat → Prop}
  {b b' : Board} {jr after : JobRows}

theorem SameTerms.heard {job job' : WriteConfigJob} (same : SameTerms job job')
    (heard : Heard may job) : Heard may job' := by
  obtain ⟨-, requestedBy, invokerId, decidedBy, -⟩ := same
  rw [Heard, requestedBy, invokerId, decidedBy]
  exact heard

theorem newJob_heard (now : Time) (body : WriteConfigRequest) (origin : Origin) (jobId : Nat) :
    Heard may (newJob now body origin jobId).job := by
  rintro name ⟨⟩

theorem Decided.add (decided : Decided may held b) (numbered : Numbered b)
    (body : WriteConfigRequest) (origin : Origin) : Decided may held
      ⟨b.jobs ++ [newJob setting.now body origin b.fresh], b.sent, b.fresh + 1⟩ := by
  have new : ∀ {p : JobRows → Prop}, (∀ jr ∈ b.jobs, p jr) →
      p (newJob setting.now body origin b.fresh) →
      ∀ jr ∈ b.jobs ++ [newJob setting.now body origin b.fresh], p jr := by
    intro p old made jr mem
    rcases List.mem_append.mp mem with inOld | isNew
    · exact old jr inOld
    · obtain rfl := List.mem_singleton.mp isNew
      exact made
  refine ⟨new decided.heard (.inr (newJob_heard _ _ _ _)), new decided.scheduled fun status => ?_,
    new decided.heldJobs fun isHeld => absurd (decided.known _ isHeld) (Nat.lt_irrefl _),
    decided.sentHeard, decided.sentHeld, fun dispatch mem => new (decided.sentWaiting dispatch mem)
      fun same => ?_, fun jobId isHeld => Nat.lt_succ_of_lt (decided.known jobId isHeld)⟩
  · unfold newJob at status
    dsimp only at status
    split at status <;> cases status
  · have used := numbered.sent dispatch mem
    exact absurd same.symm (Nat.ne_of_lt used)

structure Moved (may : Deciders) (held : Nat → Prop) (jr after : JobRows) : Prop where
  same : SameJob jr.job after.job
  heard : after.job.status = .rejected ∨ Heard may after.job
  scheduled : after.job.status = .scheduled → after.job.decidedBy.isSome
  heldJob : held after.job.jobId →
    after.job.status = .pendingApproval ∨ after.job.status = .rejected ∨ after.job.decidedBy.isSome
  waits : after.job.status ∈ waitingStates → jr.job.status ∈ waitingStates

theorem Decided.change (decided : Decided may held b) (mem : jr ∈ b.jobs)
    (change : Moved may held jr after) :
    Decided may held { b with jobs := replaceJob b.jobs after } := by
  have changed : ∀ {p : JobRows → Prop}, (∀ jr ∈ b.jobs, p jr) → p after →
      ∀ jr ∈ replaceJob b.jobs after, p jr := by
    intro p old now jr inside
    rcases mem_replaceJob.mp inside with ⟨inOld, -⟩ | ⟨rfl, -⟩
    · exact old jr inOld
    · exact now
  refine ⟨changed decided.heard change.heard, changed decided.scheduled change.scheduled,
    changed decided.heldJobs change.heldJob, decided.sentHeard, decided.sentHeld,
    fun dispatch inside => changed (decided.sentWaiting dispatch inside) fun same waits => ?_,
    decided.known⟩
  exact decided.sentWaiting dispatch inside jr mem (change.same.jobId.symm.trans same)
    (change.waits waits)

theorem DecidedNow.heard (only : setting.mayDecide ≤ may) {job : WriteConfigJob}
    (decision : DecidedNow setting job) : Heard may job ∧ job.decidedBy.isSome := by
  obtain ⟨-, name, decided, decides⟩ := decision
  refine ⟨fun other isDecider => ?_, Option.isSome_iff_exists.mpr ⟨name, decided⟩⟩
  cases (Option.mem_def.mp decided).symm.trans isDecider
  exact only _ _ _ decides

theorem Decided.began (decided : Decided may held b) (mem : jr ∈ b.jobs)
    (began : jr.job.status = .processing ∨ jr.job.status = .halted) :
    Heard may jr.job ∧ (held jr.job.jobId → jr.job.decidedBy.isSome) := by
  refine ⟨(decided.heard jr mem).resolve_left ?_, fun isHeld => ?_⟩
  · rintro rejected
    rcases began with began | began <;> rw [rejected] at began <;> cases began
  · rcases decided.heldJobs jr mem isHeld with status | status | decidedBy
    · rcases began with began | began <;> rw [status] at began <;> cases began
    · rcases began with began | began <;> rw [status] at began <;> cases began
    · exact decidedBy

theorem Decided.later (decided : Decided may held b) (mem : jr ∈ b.jobs)
    (began : jr.job.status = .processing ∨ jr.job.status = .halted)
    (same : SameTerms jr.job after.job) (sameJob : SameJob jr.job after.job)
    (stopped : after.job.status ∉ waitingStates) : Moved may held jr after := by
  obtain ⟨heard, decidedBy⟩ := decided.began mem began
  have stillDecided : held after.job.jobId → after.job.decidedBy.isSome := by
    rw [same.jobId, same.decidedBy]
    exact decidedBy
  refine ⟨sameJob, .inr (same.heard heard), fun status => ?_, fun isHeld =>
    .inr (.inr (stillDecided isHeld)), fun waits => absurd waits stopped⟩
  rw [status] at stopped
  have waits : JobState.scheduled ∈ waitingStates := by decide
  exact absurd waits stopped

theorem finish_stopped (began : jr.job.status = .processing ∨ jr.job.status = .halted)
    (ended : finish jr = .ok after) : after.job.status ∉ waitingStates := by
  have final := finish_status began ended
  intro waits
  simp only [waitingStates, List.mem_cons, List.not_mem_nil, or_false] at waits final
  rcases waits with waits | waits <;> rw [waits] at final <;> simp at final

theorem JobChange.moved (only : setting.mayDecide ≤ may) (decided : Decided may held b)
    (mem : jr ∈ b.jobs) (change : JobChange setting jr after) : Moved may held jr after := by
  have sameJob := change.same
  cases change with
  | @decided name reason waits decides =>
    have allowed := only _ _ _ decides
    refine ⟨sameJob, .inr ?_, fun _ => rfl, fun _ => .inr (.inr rfl), fun waits => waits⟩
    rintro _ ⟨⟩
    exact allowed
  | scheduled waits decision =>
    obtain ⟨heard, decidedBy⟩ := decision.heard only
    refine ⟨sameJob, .inr heard, fun _ => decidedBy, fun _ => .inr (.inr decidedBy), fun _ => ?_⟩
    rw [waits]
    decide
  | operatorHalt waits =>
    have stopped : jr.job.status ∉ waitingStates := by
      rw [waits]
      decide
    exact decided.later mem (.inr waits) ⟨rfl, rfl, rfl, rfl, rfl, rfl, rfl⟩ sameJob stopped
  | aborted waits ended =>
    have stopped : after.job.status ∉ waitingStates := by
      refine finish_stopped ?_ ended
      exact .inr waits
    obtain ⟨status, rfl⟩ := finish_same ended
    exact decided.later mem (.inr waits) ⟨rfl, rfl, rfl, rfl, rfl, rfl, rfl⟩ sameJob stopped
  | rejected waits ended =>
    obtain rfl := rejectedJob_same waits ended
    refine ⟨sameJob, .inl rfl, nofun, fun _ => .inr (.inl rfl), fun rejected => ?_⟩
    have not : JobState.rejected ∉ waitingStates := by decide
    exact absurd rejected not
  | revertRefused runs revert held =>
    have status := halt_status runs held
    have stopped : after.job.status ∉ waitingStates := by
      rw [status]
      decide
    obtain ⟨state, rfl⟩ := halt_same held
    exact decided.later mem (.inl runs) ⟨rfl, rfl, rfl, rfl, rfl, rfl, rfl⟩ sameJob stopped
  | reverted runs revert ended =>
    have stopped : after.job.status ∉ waitingStates := by
      refine finish_stopped ?_ ended
      exact .inl runs
    obtain ⟨status, rfl⟩ := finish_same ended
    exact decided.later mem (.inl runs) ⟨rfl, rfl, rfl, rfl, rfl, rfl, rfl⟩ sameJob stopped

theorem Goes.moved (only : setting.mayDecide ≤ may) (decided : Decided may held b)
    (mem : jr ∈ b.jobs) (goes : Goes setting jr after) :
    Moved may held jr after ∧ Heard may after.job ∧
      (held after.job.jobId → after.job.decidedBy.isSome) := by
  have sameJob := goes.same
  have same := goes.sameTerms
  have stopped : after.job.status ∉ waitingStates := by
    rw [goes.runs]
    decide
  have facts : Heard may jr.job ∧ (held jr.job.jobId → jr.job.decidedBy.isSome) := by
    cases goes with
    | approved waits decision =>
      obtain ⟨heard, decidedBy⟩ := decision.heard only
      exact ⟨heard, fun _ => decidedBy⟩
    | started waits =>
      refine ⟨(decided.heard jr mem).resolve_left ?_, fun _ => decided.scheduled jr mem waits⟩
      rw [waits]
      decide
    | continued waits | swept waits => exact decided.began mem (.inr waits)
  have heard := same.heard facts.1
  have decidedBy : held after.job.jobId → after.job.decidedBy.isSome := by
    rw [same.jobId, same.decidedBy]
    exact facts.2
  refine ⟨⟨sameJob, .inr heard, fun status => ?_, fun isHeld => .inr (.inr (decidedBy isHeld)),
    fun waits => absurd waits stopped⟩, heard, decidedBy⟩
  rw [goes.runs] at status
  cases status

theorem SetGoing.decided (only : setting.mayDecide ≤ may) (going : SetGoing setting b jr b')
    (numbered : Numbered b) (decided : Decided may held b) :
    Decided may held b' ∧ Heard may jr.job ∧
      (held jr.job.jobId → jr.job.decidedBy.isSome) := by
  cases going with
  | made free clear =>
    refine ⟨decided.add numbered _ _, newJob_heard _ _ _ _, fun isHeld => ?_⟩
    exact absurd (decided.known _ isHeld) (Nat.lt_irrefl _)
  | goes mem goes =>
    obtain ⟨moved, facts⟩ := goes.moved only decided mem
    exact ⟨decided.change mem moved, facts⟩

theorem Advance.stopped {now : Time} {new : List Dispatch}
    (advance : Advance o1 now jr new after) (runs : jr.job.status = .processing) :
    after.job.status ∉ waitingStates := by
  induction advance with
  | ended ran last finished => exact finish_stopped (.inl (ran.runs runs)) finished
  | halted ran inside held =>
    rw [halt_status (ran.runs runs) held]
    decide
  | failed ran =>
    rw [ran.runs runs]
    decide
  | next ran inside rest ih => exact ih (ran.runs runs)

theorem Decided.sends (decided : Decided may held b) {new : List Dispatch}
    (sent : ∀ dispatch ∈ new, Heard may dispatch.job ∧
      (held dispatch.job.jobId → dispatch.job.decidedBy.isSome) ∧
      ∀ jr ∈ b.jobs, jr.job.jobId = dispatch.job.jobId →
        jr.job.status ∈ waitingStates → dispatch.job.decidedBy.isSome) :
    Decided may held { b with sent := b.sent ++ new } := by
  have all : ∀ {p : Dispatch → Prop}, (∀ dispatch ∈ b.sent, p dispatch) →
      (∀ dispatch ∈ new, p dispatch) → ∀ dispatch ∈ b.sent ++ new, p dispatch := by
    intro p old fresh dispatch mem
    rcases List.mem_append.mp mem with inOld | isNew
    · exact old dispatch inOld
    · exact fresh dispatch isNew
  exact ⟨decided.heard, decided.scheduled, decided.heldJobs,
    all decided.sentHeard fun dispatch mem => (sent dispatch mem).1,
    all decided.sentHeld fun dispatch mem => (sent dispatch mem).2.1,
    all decided.sentWaiting fun dispatch mem => (sent dispatch mem).2.2, decided.known⟩

theorem Move.decided (only : setting.mayDecide ≤ may) (move : Move o1 setting b b')
    (numbered : Numbered b) (decided : Decided may held b) : Decided may held b' := by
  cases move with
  | held => exact decided.add numbered _ _
  | changed mem change => exact decided.change mem (change.moved only decided mem)
  | @ran b₁ jr after new going advance =>
    obtain ⟨decided₁, heard, decidedBy⟩ := going.decided only numbered decided
    have known := going.numbered numbered
    have same := advance.sameTerms
    have stopped := advance.stopped going.runs
    have moved : Moved may held jr after := by
      refine ⟨advance.same, .inr (same.heard heard), fun status => ?_, fun isHeld => ?_,
        fun waits => absurd waits stopped⟩
      · rw [status] at stopped
        have waits : JobState.scheduled ∈ waitingStates := by decide
        exact absurd waits stopped
      · rw [same.jobId] at isHeld
        rw [same.decidedBy]
        exact .inr (.inr (decidedBy isHeld))
    have replaced := decided₁.change going.mem moved
    refine replaced.sends fun dispatch mem => ?_
    have sentFor := advance.sentFor dispatch mem
    have terms := sentFor.sameTerms
    refine ⟨terms.heard heard, fun isHeld => ?_, fun other inside isSame waits => ?_⟩
    · rw [terms.jobId] at isHeld
      rw [terms.decidedBy]
      exact decidedBy isHeld
    · rcases mem_replaceJob.mp inside with ⟨-, another⟩ | ⟨rfl, -⟩
      · exact absurd (isSame.trans (terms.jobId.trans same.jobId.symm)) another
      · exact absurd waits stopped

theorem Moves.decided (only : setting.mayDecide ≤ may) (moves : Moves o1 setting b b')
    (numbered : Numbered b) (decided : Decided may held b) : Decided may held b' := by
  induction moves with
  | refl => exact decided
  | tail earlier move ih => exact move.decided only (Moves.numbered earlier numbered) ih

def alsoHeld (held : Nat → Prop) (b : Board) (jobId : Nat) : Prop :=
  held jobId ∨ ∃ jr ∈ b.jobs, jr.job.jobId = jobId ∧ jr.job.status ∈ waitingStates

theorem Decided.alsoHeld (decided : Decided may held b) (numbered : Numbered b) :
    Decided may (alsoHeld held b) b := by
  refine ⟨decided.heard, decided.scheduled, fun jr mem => ?_, decided.sentHeard,
    fun dispatch mem => ?_, decided.sentWaiting, fun jobId => ?_⟩
  · rintro (isHeld | ⟨waiting, inside, same, waits⟩)
    · exact decided.heldJobs jr mem isHeld
    · have is := List.inj_on_of_nodup_map numbered.distinct inside mem same
      subst is
      simp only [waitingStates, List.mem_cons, List.not_mem_nil, or_false] at waits
      rcases waits with status | status
      · exact .inl status
      · exact .inr (.inr (decided.scheduled _ mem status))
  · rintro (isHeld | ⟨waiting, inside, same, waits⟩)
    · exact decided.sentHeld dispatch mem isHeld
    · exact decided.sentWaiting dispatch mem waiting inside same waits
  · rintro (isHeld | ⟨waiting, inside, same, -⟩)
    · exact decided.known jobId isHeld
    · rw [← same]
      exact numbered.used waiting inside

theorem Decided.lose (only : setting.mayDecide ≤ may) (numbered : Numbered b)
    (decided : Decided may held b) {lost : List Dispatch}
    (all : ∀ dispatch ∈ lost, LostFrom o1 setting b dispatch) :
    Decided may held { b with sent := b.sent ++ lost } := by
  refine decided.sends fun dispatch mem => ?_
  obtain ⟨b₁, b₂, jr, moves, going, sentFor, -⟩ := all dispatch mem
  have terms := sentFor.sameTerms
  have ahead := Moves.decided only moves numbered (decided.alsoHeld numbered)
  obtain ⟨-, heard, decidedBy⟩ := going.decided only (Moves.numbered moves numbered) ahead
  have known : ConfigJobs.alsoHeld held b dispatch.job.jobId → dispatch.job.decidedBy.isSome := by
    rw [terms.jobId, terms.decidedBy]
    exact decidedBy
  exact ⟨terms.heard heard, fun isHeld => known (.inl isHeld),
    fun waiting inside same waits => known (.inr ⟨waiting, inside, same, waits⟩)⟩

theorem Decided.forget (decided : Decided may held b) {may' : Deciders} {held' : Nat → Prop}
    (more : may ≤ may') (fewer : ∀ jobId, held' jobId → held jobId) : Decided may' held' b := by
  have heard : ∀ {job : WriteConfigJob}, Heard may job → Heard may' job :=
    fun known name isDecider => more _ _ _ (known name isDecider)
  exact ⟨fun jr mem => (decided.heard jr mem).imp id heard, decided.scheduled,
    fun jr mem isHeld => decided.heldJobs jr mem (fewer _ isHeld),
    fun dispatch mem => heard (decided.sentHeard dispatch mem),
    fun dispatch mem isHeld => decided.sentHeld dispatch mem (fewer _ isHeld),
    decided.sentWaiting, fun jobId isHeld => decided.known jobId (fewer _ isHeld)⟩

end Boards

section Casefold

variable {site site' : Site}

theorem outsider_casefold (same : site'.casefold = site.casefold) :
    Outsider site' = Outsider site := by
  funext name requestedBy invokerId
  simp only [Outsider, samePerson, same]

theorem Independent.casefold (same : site'.casefold = site.casefold) {required : Nat}
    {names : List String} {requestedBy invokerId : String}
    (independent : Independent site required names requestedBy invokerId) :
    Independent site' required names requestedBy invokerId := by
  obtain ⟨different, neutral⟩ := independent
  refine ⟨?_, fun name mem => ?_⟩
  · simpa only [samePerson, same] using different
  · obtain ⟨requester, invoker, outsider⟩ := neutral name mem
    refine ⟨requester, invoker, ?_⟩
    rw [outsider_casefold same]
    exact outsider

theorem Ballots.casefold (same : site'.casefold = site.casefold)
    {asked rows : List RAppActionApproval} (ballots : Ballots site asked rows) :
    Ballots site' asked rows := by
  refine ⟨ballots.numbered, fun row mem => ?_, ballots.kept⟩
  obtain ⟨votes, enough, job⟩ := ballots.fourEyes row mem
  exact ⟨votes.casefold same, fun approved => ⟨(enough approved).1, (enough approved).2.casefold same⟩,
    job⟩

end Casefold

namespace World

variable {σ : Type} {o1 : O1Clients σ} {start world world' : World σ} {operation : Operation σ}
  {trace : List (Runs.Step (World σ) (Operation σ))}

theorem ballots_of_keeps {asked : List RAppActionApproval} {x : Db σ Unit}
    (ends : Ensures (· = ⟨world.store, world.store, world.wire⟩) x
      (fun _ => Polled world.site asked) (Polled world.site asked)) :
    Ballots world.site asked (run x world.store world.wire).2.1.approvals := by
  have kept : Ensures (· = ⟨world.store, world.store, world.wire⟩) x
      (fun _ s => Ballots world.site asked s.committed.approvals)
      (fun s => Ballots world.site asked s.committed.approvals) :=
    ends.weaken (fun _ same => same) (fun _ _ polled => polled.committed)
      fun _ polled => polled.committed
  exact @Ensures.run _ _ _ _ _ _ (fun (store : Store) _ => Ballots world.site asked store.approvals)
    kept _ _ rfl

theorem keeps_discard {α : Type} {site : Site} {asked : List RAppActionApproval} {x : Db σ α}
    (keeps : Keeps site asked x) : Keeps site asked (discard x) :=
  keeps.bind fun _ => keeps_pure _

theorem perform_ballots (operation : Operation σ)
    (ballots : Ballots world.site world.store.approvals world.store.approvals) :
    Ballots world.site world.store.approvals (world.perform o1 operation).store.approvals := by
  have polled : Polled world.site world.store.approvals
    ⟨world.store, world.store, world.wire⟩ := ⟨ballots, ballots⟩
  have keeps : ∀ {x : Db σ Unit}, Keeps world.site world.store.approvals x →
      Ballots world.site world.store.approvals (run x world.store world.wire).2.1.approvals :=
    fun keeps => ballots_of_keeps (keeps.of_pre fun _ same => same ▸ polled)
  cases operation with
  | write request body => exact keeps (keeps_discard (keeps_write _ _))
  | goOn request jobId body => exact keeps (keeps_discard (keeps_continue _ _ _))
  | halt request jobId body => exact keeps (keeps_discard (keeps_halt _ _ _))
  | abort request jobId body => exact keeps (keeps_discard (keeps_abort _ _ _))
  | approve request jobId body => exact keeps (keeps_discard (keeps_approve _ _ _))
  | reject request jobId body => exact keeps (keeps_discard (keeps_reject _ _ _))
  | rollback request jobId body =>
    exact keeps (keeps_discard ((keeps_jobInReach _ _ _).bind fun _ => keeps_undoJob _ _ _ _))
  | kpiCheck request jobId body => exact keeps (keeps_kpiCheck _ _ _)
  | advanceDue =>
    exact keeps (keeps_discard (keeps_database.bind fun _ => keeps_resumeAll _))
  | approveAction request approvalId body =>
    exact ballots_of_keeps (keeps_approveAction polled rfl request approvalId body)
  | rejectAction request approvalId body =>
    exact ballots_of_keeps (keeps_rejectAction polled request approvalId body)
  | readApproval request approvalId => exact keeps (keeps_discard (keeps_readApproval _ _))
  | lapseDue => exact keeps (keeps_database.bind fun _ => keeps_lapseEach _)
  | kill invokerId requestedBy reason =>
    refine keeps (Keeps.bind (keeps_update fun store => ?_) fun _ => keeps_commit)
    split <;> rfl
  | liftKill invokerId =>
    refine keeps (keeps_database.bind fun store => ?_)
    split
    next => exact keeps_throw _
    next => exact Keeps.bind (keeps_update fun _ => rfl) fun _ => keeps_commit
  | surroundings site network elapsed => exact ballots

theorem perform_casefold (operation : Operation σ) :
    (world.perform o1 operation).site.casefold = world.site.casefold := by
  cases operation <;> rfl

theorem perform_decided {may : Deciders} (only : world.MayDecide operation ≤ may)
    (numbered : Numbered world.board) {held : Nat → Prop} (decided : Decided may held world.board) :
    Decided may (alsoHeld held world.board) (world.perform o1 operation).board := by
  obtain ⟨b, lost, moves, jobs, sent, fresh, all⟩ := @perform_leaves σ o1 world numbered operation
  have ahead := Moves.decided only moves numbered (decided.alsoHeld numbered)
  have whole := ahead.lose only (Moves.numbered moves numbered) fun dispatch mem =>
    (all dispatch mem).1
  have same : (world.perform o1 operation).board =
      ⟨b.jobs, b.sent ++ lost, (world.perform o1 operation).wire.fresh⟩ := by
    rw [← jobs, ← sent]
    rfl
  rw [same]
  exact ⟨whole.heard, whole.scheduled, whole.heldJobs, whole.sentHeard, whole.sentHeld,
    whole.sentWaiting, fun jobId isHeld => Nat.lt_of_lt_of_le (whole.known jobId isHeld) fresh⟩

def WasHeld (trace : List (Runs.Step (World σ) (Operation σ))) (jobId : Nat) : Prop :=
  ∃ t ∈ trace, ∃ jr ∈ t.before.store.jobs, jr.job.jobId = jobId ∧ jr.job.status ∈ waitingStates

/-- The decision was made in the run, on an rApp's action that needs one approval, where
only the spelling of the name counts. -/
def DecidedAlone (trace : List (Runs.Step (World σ) (Operation σ))) (name requestedBy : String)
    (invokerId : Option String) : Prop :=
  name ≠ requestedBy ∧ some name ≠ invokerId ∧
    ∃ t ∈ trace, ∃ request approvalId body, t.label = .approveAction request approvalId body ∧
      ∃ row, t.before.store.approval? approvalId = some row ∧ row.requiredApprovals ≤ 1 ∧
        Deciding t.before.site request body.decidedBy row name ∧
        requestedBy = row.requestedBy ∧ invokerId = some row.invokerId

def deciders (site : Site) (trace : List (Runs.Step (World σ) (Operation σ))) : Deciders :=
  fun name requestedBy invokerId =>
    Outsider site name requestedBy invokerId ∨ DecidedAlone trace name requestedBy invokerId

theorem deciders_later {site site' : Site} (same : site'.casefold = site.casefold)
    (t : Runs.Step (World σ) (Operation σ)) :
    deciders site trace ≤ deciders site' (trace ++ [t]) := by
  rintro name requestedBy invokerId (outsider | ⟨requester, invoker, earlier, mem, alone⟩)
  · refine .inl ?_
    rw [outsider_casefold same]
    exact outsider
  · exact .inr ⟨requester, invoker, earlier, List.mem_append_left _ mem, alone⟩

theorem mayDecide_deciders {site' : Site} (same : site'.casefold = world.site.casefold) :
    world.MayDecide operation ≤ deciders site' (trace ++ [⟨world, operation, world'⟩]) := by
  intro name requestedBy invokerId may
  rw [deciders, outsider_casefold same]
  cases operation with
  | approveAction request approvalId body =>
    obtain ⟨row, found, deciding, rfl, rfl⟩ := may
    obtain ⟨requester, invoker, outsider⟩ := deciding.neutral
    by_cases two : 1 < row.requiredApprovals
    · exact .inl (outsider two)
    · refine .inr ⟨requester, fun is => invoker (Option.some.inj is), _,
        List.mem_append_right _ (List.mem_singleton.mpr rfl), request, approvalId, body, rfl, row,
        found, Nat.le_of_not_lt two, deciding, rfl, rfl⟩
  | _ => exact .inl may

structure UnderFourEyes (trace : List (Runs.Step (World σ) (Operation σ))) (world : World σ) :
    Prop where
  numbered : Numbered world.board
  ballots : Ballots world.site world.store.approvals world.store.approvals
  decided : Decided (deciders world.site trace) (WasHeld trace) world.board

theorem Initial.underFourEyes (initial : Initial world) : UnderFourEyes [] world := by
  have numbered := initial.numbered
  obtain ⟨store, sent⟩ := initial
  have noJobs : world.board.jobs = [] := by rw [board, boardOf, store]
  have noneSent : world.board.sent = [] := sent
  refine ⟨numbered, ?_, ?_⟩
  · rw [store]
    exact ⟨rfl, fun _ mem => absurd mem List.not_mem_nil, fun _ mem => absurd mem List.not_mem_nil⟩
  · constructor
    case known =>
      rintro jobId ⟨t, mem, -⟩
      cases mem
    all_goals simp [noJobs, noneSent]

theorem UnderFourEyes.step (eyes : UnderFourEyes trace world) (step : Step o1 world operation world') :
    UnderFourEyes (trace ++ [⟨world, operation, world'⟩]) world' := by
  obtain rfl : world' = world.perform o1 operation := step
  have same := @perform_casefold σ o1 world operation
  have ballots := (@perform_ballots σ o1 world operation eyes.ballots).casefold same
  refine ⟨perform_numbered eyes.numbered operation,
    ⟨ballots.numbered, ballots.fourEyes, fun row mem => ⟨row, mem, .refl row⟩⟩, ?_⟩
  have known := eyes.decided.forget
    (deciders_later same ⟨world, operation, world.perform o1 operation⟩) fun _ isHeld => isHeld
  refine (perform_decided (mayDecide_deciders same) eyes.numbered known).forget le_rfl ?_
  rintro jobId ⟨t, mem, jr, inside, isJob, waits⟩
  rcases List.mem_append.mp mem with earlier | last
  · exact .inl ⟨t, earlier, jr, inside, isJob, waits⟩
  · obtain rfl := List.mem_singleton.mp last
    exact .inr ⟨jr, inside, isJob, waits⟩

theorem underFourEyes (initial : Initial start) (run : Run (Step o1) start trace world) :
    UnderFourEyes trace world :=
  run.invariant_of_history UnderFourEyes initial.underFourEyes fun _ _ _ _ eyes step => eyes.step step

/-- In every reachable state the votes on an action are of different people who did not ask
for it, an approved one has as many as were asked for when it was parked, and what was sent for
a job that was held was sent after a decision of someone who did not ask for it. -/
theorem four_eyes (initial : Initial start) (run : Run (Step o1) start trace world) :
    (∀ row ∈ world.store.approvals,
      Independent world.site row.requiredApprovals (row.approvals.map (·.decidedBy))
        row.requestedBy row.invokerId ∧
      (row.status = .approved ∨ row.jobId.isSome →
        row.requiredApprovals ≤ (approvers row).length ∧
        Independent world.site row.requiredApprovals (approvers row) row.requestedBy
          row.invokerId)) ∧
    (∀ dispatch ∈ world.wire.sent, Heard (deciders world.site trace) dispatch.job ∧
      (WasHeld trace dispatch.job.jobId → dispatch.job.decidedBy.isSome)) ∧
    ∀ t ∈ trace, ∀ row ∈ t.before.store.approvals, ∃ row' ∈ t.after.store.approvals,
      SameAsk row row' := by
  have eyes := underFourEyes initial run
  refine ⟨fun row mem => ?_, fun dispatch mem => ?_, fun t mem row inside => ?_⟩
  · obtain ⟨votes, enough, job⟩ := eyes.ballots.fourEyes row mem
    refine ⟨votes, ?_⟩
    rintro (approved | made)
    · exact enough approved
    · exact enough (job made)
  · exact ⟨eyes.decided.sentHeard dispatch mem, eyes.decided.sentHeld dispatch mem⟩
  · obtain ⟨earlier, later, rfl⟩ := List.append_of_mem mem
    obtain ⟨before, step⟩ := run.split rfl
    have kept := (@perform_ballots σ o1 t.before t.label (underFourEyes initial before).ballots).kept
    rw [step]
    exact kept row inside

/-- Two elements whose operator has asked to approve what `rapp-1` does, `required` times. -/
def supervised (required : Nat) : Site :=
  { twoElements with policies := [
      { invokerId := "rapp-1", timeoutSeconds := 3600, onTimeout := .expire
        requiredApprovals := required }] }

/-- `rapp-1` asks for a change on behalf of `ana`, and people approve. -/
def asksFor (names : List String) : List (Operation Unit) :=
  .write { role := .rapp, invoker := some "rapp-1" }
    { requestedBy := "ana", accessScope := "cell"
      changes := [⟨"gnb-1", none, [("power", .number "1")], "merge"⟩] } ::
    names.map fun name => .approveAction {} 0 { decidedBy := some name }

def supervisedWorld (required : Nat) : World Unit :=
  { site := supervised required, wire := { network := () } }

def afterApprovals (required : Nat) (names : List String) : World Unit :=
  (asksFor names).foldl (perform applying) (supervisedWorld required)

/-- Two approve, one of them twice. -/
theorem approved_by_two :
    (afterApprovals 2 ["bob", " Bob", "carl"]).store.approvals.any (·.jobId.isSome) = true ∧
    ∀ row ∈ (afterApprovals 2 ["bob", " Bob", "carl"]).store.approvals,
      2 ≤ (approvers row).length := by
  refine ⟨by decide +kernel, fun row mem => ?_⟩
  have eyes := (four_eyes ⟨rfl, rfl⟩ (run_all (supervisedWorld 2)
    (asksFor ["bob", " Bob", "carl"]))).1 row mem
  have two : ∀ row ∈ (afterApprovals 2 ["bob", " Bob", "carl"]).store.approvals,
      row.requiredApprovals = 2 ∧ row.status = .approved := by decide +kernel
  obtain ⟨required, approved⟩ := two row mem
  rw [← required]
  exact (eyes.2 (.inl approved)).1

/-- One who asked approves alone, in capitals. -/
theorem approved_by_requester : ∃ (start world : World Unit)
    (trace : List (Runs.Step (World Unit) (Operation Unit))),
    Initial start ∧ Run (Step applying) start trace world ∧
      ∃ row ∈ world.store.approvals, row.status = .approved ∧ row.jobId.isSome ∧
        ∃ name ∈ approvers row, samePerson world.site name row.requestedBy = true := by
  refine ⟨_, _, _, ⟨rfl, rfl⟩, run_all (supervisedWorld 1) (asksFor ["ANA"]), ?_⟩
  have approves : (afterApprovals 1 ["ANA"]).store.approvals.any (fun row =>
      row.status = .approved && row.jobId.isSome && (approvers row).any fun name =>
        samePerson (afterApprovals 1 ["ANA"]).site name row.requestedBy) = true := by
    decide +kernel
  obtain ⟨row, mem, all⟩ := List.any_eq_true.mp approves
  simp only [Bool.and_eq_true, decide_eq_true_eq] at all
  obtain ⟨⟨approved, made⟩, any⟩ := all
  exact ⟨row, mem, approved, made, List.any_eq_true.mp any⟩

end World

end Smo.RanNfOam.ConfigJobs
