import Smo.RanNfOam.ConfigJobs.Performed

/-! What a change window holds back: the approval and the start are kept to it in every run,
the end only as long as no halted job goes on after it. -/
namespace Smo.RanNfOam.ConfigJobs

open Runs

def Windowed (job : WriteConfigJob) : Prop := job.scheduledAt.isSome ∨ job.windowEnd.isSome

def ApprovedBefore (now : Time) (job : WriteConfigJob) : Prop :=
  ∃ name ∈ job.decidedBy, name ≠ job.requestedBy ∧ ∃ moment ∈ job.decidedAt, moment ≤ now

def Opened (now : Time) (forced : Nat → Prop) (job : WriteConfigJob) : Prop :=
  (∀ opens ∈ job.scheduledAt, opens ≤ now) ∨ forced job.jobId

structure Admitted (now : Time) (forced : Nat → Prop) (job : WriteConfigJob) : Prop where
  approved : Windowed job → ApprovedBefore now job
  opened : Opened now forced job

/-- What is known of a job in any state: it waits for the approval, for the window to open,
or was admitted. -/
def Vetted (now : Time) (forced : Nat → Prop) (job : WriteConfigJob) : Prop :=
  job.status ∈ [JobState.pendingApproval, .rejected] ∨
    (job.status = .scheduled ∧ (Windowed job → ApprovedBefore now job)) ∨ Admitted now forced job

variable {now now' : Time} {forced' : Nat → Prop} {job : WriteConfigJob}

theorem Admitted.weaken {forced : Nat → Prop} (admitted : Admitted now forced job)
    (later : now ≤ now') (more : ∀ jobId, forced jobId → forced' jobId) :
    Admitted now' forced' job := by
  refine ⟨fun windowed => ?_, ?_⟩
  · obtain ⟨name, decided, other, moment, at_, before⟩ := admitted.approved windowed
    exact ⟨name, decided, other, moment, at_, before.trans later⟩
  · rcases admitted.opened with opened | forcedNow
    · exact .inl fun opens mem => (opened opens mem).trans later
    · exact .inr (more _ forcedNow)

theorem Vetted.weaken {forced : Nat → Prop} (vetted : Vetted now forced job) (later : now ≤ now')
    (more : ∀ jobId, forced jobId → forced' jobId) : Vetted now' forced' job := by
  rcases vetted with waits | ⟨scheduled, approved⟩ | admitted
  · exact .inl waits
  · refine .inr (.inl ⟨scheduled, fun windowed => ?_⟩)
    obtain ⟨name, decided, other, moment, at_, before⟩ := approved windowed
    exact ⟨name, decided, other, moment, at_, before.trans later⟩
  · exact .inr (.inr (admitted.weaken later more))

theorem SameTerms.admitted {forced : Nat → Prop} {job' : WriteConfigJob} (same : SameTerms job job')
    (admitted : Admitted now forced job) : Admitted now forced job' := by
  obtain ⟨jobId, requestedBy, -, decidedBy, decidedAt, scheduledAt, windowEnd⟩ := same
  obtain ⟨approved, opened⟩ := admitted
  refine ⟨?_, ?_⟩
  · rw [Windowed, ApprovedBefore, scheduledAt, windowEnd, decidedBy, decidedAt, requestedBy]
    exact approved
  · rw [Opened, scheduledAt, jobId]
    exact opened

section Moves

variable {σ : Type} {o1 : O1Clients σ} {setting : Setting} {forced : Nat → Prop} {b b' : Board}

/-- A request under which nobody decides on their own job, and force is remembered. -/
structure Honest (setting : Setting) (forced : Nat → Prop) : Prop where
  other : ∀ name requestedBy invokerId, setting.mayDecide name requestedBy invokerId →
    name ≠ requestedBy
  force : ∀ jobId, setting.forced jobId → forced jobId

variable {job : WriteConfigJob} {jr after : JobRows} {body : WriteConfigRequest} {origin : Origin}
  {jobId : Nat}

theorem DecidedNow.approved (honest : Honest setting forced) (decision : DecidedNow setting job) :
    ApprovedBefore setting.now job := by
  obtain ⟨at_, name, decided, may⟩ := decision
  exact ⟨name, decided, honest.other _ _ _ may, setting.now, at_, Nat.le_refl _⟩

theorem Vetted.admitted (vetted : Vetted setting.now forced job)
    (began : job.status = .halted ∨ job.status = .processing) :
    Admitted setting.now forced job := by
  rcases vetted with status | ⟨status, -⟩ | admitted
  · rcases began with began | began <;> rw [began] at status <;> exact absurd status (by decide)
  · rcases began with began | began <;> rw [began] at status <;> cases status
  · exact admitted

theorem Goes.admitted (honest : Honest setting forced) (goes : Goes setting jr after)
    (vetted : Vetted setting.now forced jr.job) : Admitted setting.now forced after.job := by
  apply goes.sameTerms.admitted
  cases goes with
  | approved waits decision before opened clear =>
    exact ⟨fun _ => decision.approved honest, .inl opened⟩
  | started waits before opened clear =>
    refine ⟨?_, opened.imp_right (honest.force _)⟩
    rcases vetted with status | ⟨-, approved⟩ | admitted
    · rw [waits] at status
      exact absurd status (by decide)
    · exact approved
    · exact admitted.approved
  | continued waits | swept waits => exact vetted.admitted (.inl waits)

theorem newJob_free (now : Time) (jobId : Nat) (free : holds body origin = false) :
    (newJob now body origin jobId).job.scheduledAt = none ∧
      (newJob now body origin jobId).job.windowEnd = none := by
  have noWindow : windowOf body origin = none := by
    unfold holds at free
    cases undoes : origin.rollbackOf with
    | some earlier => simp only [windowOf, undoes, Option.isNone_some, Bool.false_eq_true, if_false]
    | none =>
      rw [undoes] at free
      simp only [Option.isNone_none, Bool.true_and, Bool.or_eq_false_iff] at free
      simpa using free.1
  simp only [newJob, noWindow, Option.bind_none, and_self]

theorem newJob_admitted (free : holds body origin = false) :
    Admitted setting.now forced (newJob setting.now body origin jobId).job := by
  obtain ⟨start, close⟩ := newJob_free setting.now jobId free
  refine ⟨fun windowed => ?_, .inl ?_⟩
  · rw [Windowed, start, close] at windowed
    simp at windowed
  · rw [start]
    exact nofun

theorem newJob_held (held : holds body origin = true) :
    Vetted setting.now forced (newJob setting.now body origin jobId).job := by
  have waits : (newJob setting.now body origin jobId).job.status = .pendingApproval := by
    simp only [newJob, held, if_true]
  rw [Vetted, waits]
  exact .inl List.mem_cons_self

theorem JobChange.vetted (honest : Honest setting forced) (change : JobChange setting jr after)
    (vetted : Vetted setting.now forced jr.job) : Vetted setting.now forced after.job := by
  cases change with
  | decided waits may =>
    refine .inl ?_
    rw [show (decidedJob setting.now jr _ _).job.status = jr.job.status from rfl, waits]
    exact List.mem_cons_self
  | scheduled waits decision => exact .inr (.inl ⟨rfl, fun _ => decision.approved honest⟩)
  | operatorHalt waits =>
    obtain ⟨approved, opened⟩ := vetted.admitted (.inl waits)
    exact .inr (.inr ⟨approved, opened⟩)
  | aborted waits ended =>
    obtain ⟨status, rfl⟩ := finish_same ended
    obtain ⟨approved, opened⟩ := vetted.admitted (.inl waits)
    exact .inr (.inr ⟨approved, opened⟩)
  | rejected waits ended =>
    obtain rfl := rejectedJob_same waits ended
    exact .inl (List.mem_cons_of_mem _ List.mem_cons_self)
  | revertRefused runs revert held =>
    obtain ⟨status, rfl⟩ := halt_same held
    obtain ⟨approved, opened⟩ := vetted.admitted (.inr runs)
    exact .inr (.inr ⟨approved, opened⟩)
  | reverted runs revert ended =>
    obtain ⟨status, rfl⟩ := finish_same ended
    obtain ⟨approved, opened⟩ := vetted.admitted (.inr runs)
    exact .inr (.inr ⟨approved, opened⟩)

def AllVetted (now : Time) (forced : Nat → Prop) (b : Board) : Prop :=
  ∀ jr ∈ b.jobs, Vetted now forced jr.job

theorem AllVetted.replace (all : AllVetted setting.now forced b)
    (vetted : Vetted setting.now forced after.job) :
    ∀ jr ∈ replaceJob b.jobs after, Vetted setting.now forced jr.job := by
  intro jr mem
  rcases mem_replaceJob.mp mem with ⟨old, -⟩ | ⟨rfl, -⟩
  · exact all jr old
  · exact vetted

theorem AllVetted.add (all : AllVetted setting.now forced b) {made : JobRows}
    (vetted : Vetted setting.now forced made.job) :
    ∀ jr ∈ b.jobs ++ [made], Vetted setting.now forced jr.job := by
  intro jr mem
  rcases List.mem_append.mp mem with old | new
  · exact all jr old
  · obtain rfl := List.mem_singleton.mp new
    exact vetted

theorem SetGoing.admitted (honest : Honest setting forced) (going : SetGoing setting b jr b')
    (all : AllVetted setting.now forced b) :
    Admitted setting.now forced jr.job ∧ AllVetted setting.now forced b' := by
  cases going with
  | made free =>
    exact ⟨newJob_admitted free, all.add (.inr (.inr (newJob_admitted free)))⟩
  | goes mem goes =>
    have admitted := goes.admitted honest (all _ mem)
    exact ⟨admitted, all.replace (.inr (.inr admitted))⟩

theorem Move.vetted (honest : Honest setting forced) (move : Move o1 setting b b')
    (all : AllVetted setting.now forced b) : AllVetted setting.now forced b' := by
  cases move with
  | held held => exact all.add (newJob_held held)
  | changed mem change => exact all.replace (change.vetted honest (all _ mem))
  | ran going advance =>
    obtain ⟨admitted, all'⟩ := going.admitted honest all
    exact all'.replace (.inr (.inr (advance.sameTerms.admitted admitted)))

theorem Moves.vetted (honest : Honest setting forced) (moves : Moves o1 setting b b')
    (all : AllVetted setting.now forced b) : AllVetted setting.now forced b' := by
  induction moves with
  | refl => exact all
  | tail _ move ih => exact move.vetted honest ih

theorem SetGoing.before_close (going : SetGoing setting b jr b')
    (kept : ∀ jr, setting.named jr ∨ setting.listed jr → jr.job.status = .halted →
      windowOver setting.now jr.job.windowEnd = false) :
    windowOver setting.now jr.job.windowEnd = false := by
  cases going with
  | made free =>
    rw [(newJob_free _ _ free).2]
    rfl
  | goes mem goes =>
    rw [goes.sameTerms.windowEnd]
    cases goes with
    | approved _ _ before | started _ before => exact before
    | continued waits named => exact kept _ (.inl named) waits
    | swept waits listed => exact kept _ (.inr listed) waits

end Moves

namespace World

variable {σ : Type} {o1 : O1Clients σ} {start world world' : World σ} {operation : Operation σ}
  {trace : List (Runs.Step (World σ) (Operation σ))}

def Forced (trace : List (Runs.Step (World σ) (Operation σ))) (jobId : Nat) : Prop :=
  ∃ t ∈ trace, ∃ request body, t.label = .goOn request jobId body ∧ body.force = true

/-- No halted job is continued, by hand or by the sweep, once its window has closed. -/
def ContinuesInWindow (world : World σ) (operation : Operation σ) : Prop :=
  ∀ jr, (world.setting operation).named jr ∨ (world.setting operation).listed jr →
    jr.job.status = .halted → windowOver world.now jr.job.windowEnd = false

theorem samePerson_self (site : Site) (name : String) : samePerson site name name = true :=
  decide_eq_true rfl

variable {name requestedBy : String} {invokerId : Option String}

theorem outsider_other {site : Site} (outsider : Outsider site name requestedBy invokerId) :
    name ≠ requestedBy := by
  rintro rfl
  have same := outsider.1
  rw [samePerson_self] at same
  cases same

theorem mayDecide_other (may : world.MayDecide operation name requestedBy invokerId) :
    name ≠ requestedBy := by
  cases operation with
  | approveAction request approvalId body =>
    obtain ⟨row, -, decidable, rfl, -⟩ := may
    have other := decidable.other
    simp only [decidesOwn, Bool.or_eq_false_iff, decide_eq_false_iff_not] at other
    exact other.1.1.2
  | _ => exact outsider_other may

theorem honest (operation : Operation σ) :
    Honest (world.setting operation) (Forced (trace ++ [⟨world, operation, world'⟩])) := by
  refine ⟨fun _ _ _ => mayDecide_other, ?_⟩
  rintro jobId ⟨request, body, label, force⟩
  exact ⟨_, List.mem_append_right _ (List.mem_singleton.mpr rfl), request, body, label, force⟩

theorem perform_now (operation : Operation σ) : world.now ≤ (world.perform o1 operation).now := by
  cases operation with
  | surroundings site network elapsed => exact Nat.le_add_right _ _
  | _ => exact Nat.le_refl _

theorem run_vetted (initial : Initial start) (run : Run (Step o1) start trace world) :
    Numbered world.board ∧ AllVetted world.now (Forced trace) world.board := by
  refine run.invariant_of_history (fun trace world =>
    Numbered world.board ∧ AllVetted world.now (Forced trace) world.board) ⟨initial.numbered, ?_⟩ ?_
  · intro jr mem
    rw [board, boardOf, initial.store] at mem
    cases mem
  · rintro trace world operation _ ⟨numbered, all⟩ rfl
    refine ⟨perform_numbered numbered operation, ?_⟩
    obtain ⟨b, lost, moves, jobs, -⟩ := @perform_leaves σ o1 world numbered operation
    have remembered : ∀ jobId, Forced trace jobId →
        Forced (trace ++ [⟨world, operation, world.perform o1 operation⟩]) jobId := by
      rintro jobId ⟨t, mem, forced⟩
      exact ⟨t, List.mem_append_left _ mem, forced⟩
    have ended := Moves.vetted (honest operation) moves fun jr mem =>
      (all jr mem).weaken (Nat.le_refl _) remembered
    intro jr mem
    rw [board, boardOf, jobs] at mem
    exact (ended jr mem).weaken (perform_now operation) fun _ forced => forced

structure InWindow (forced : Nat → Prop) (dispatch : Dispatch) : Prop where
  approved : Windowed dispatch.job → ApprovedBefore dispatch.moment dispatch.job
  opened : Opened dispatch.moment forced dispatch.job
  before : ∀ close ∈ dispatch.job.windowEnd, dispatch.moment < close

theorem step_inWindow (initial : Initial start) (run : Run (Step o1) start trace world)
    (guard : world.ContinuesInWindow operation) (step : Step o1 world operation world') :
    ∀ dispatch ∈ dispatched world world',
      InWindow (Forced (trace ++ [⟨world, operation, world'⟩])) dispatch := by
  subst step
  obtain ⟨numbered, all⟩ := run_vetted initial run
  intro dispatch mem
  obtain ⟨b, jr, b', moves, going, sentFor⟩ := dispatched_sentBy numbered operation dispatch mem
  have moment := sentFor.1
  have remembered : ∀ jobId, Forced trace jobId →
      Forced (trace ++ [⟨world, operation, world.perform o1 operation⟩]) jobId := by
    rintro jobId ⟨t, mem, forced⟩
    exact ⟨t, List.mem_append_left _ mem, forced⟩
  have known := Moves.vetted (honest operation) moves fun jr mem =>
    (all jr mem).weaken (Nat.le_refl _) remembered
  have admitted := (going.admitted (honest operation) known).1
  have same := sentFor.sameTerms
  obtain ⟨approved, opened⟩ := same.admitted admitted
  refine ⟨?_, ?_, fun close isClose => ?_⟩
  · rw [moment]
    exact approved
  · rw [moment]
    exact opened
  · have before := going.before_close guard
    rw [same.windowEnd] at isClose
    rw [moment]
    simpa [windowOver, Option.mem_def.mp isClose] using before

/-- A staged job with a window from 10 s to 100 s is approved at 20 s, pauses after its first
wave, and time goes by. -/
def pausedInWindow (elapsed : Time) : List (Operation Unit) := [
  .write { invoker := some "rapp-1" }
    { requestedBy := "rapp-1", accessScope := "cell"
      waveSize := some ⟨1, Nat.one_pos⟩, wavePauseSeconds := 60
      changes := [⟨"gnb-1", none, [("power", .number "1")], "merge"⟩,
        ⟨"gnb-2", none, [("power", .number "1")], "merge"⟩]
      changeWindow := some {
        start := some (seconds 10), close := some (seconds 100), bounded := .inl rfl
        ordered := by
          rintro _ ⟨⟩ _ ⟨⟩
          decide } },
  .surroundings twoElements () (seconds 20),
  .approve {} 0 { decidedBy := some "operator" },
  .surroundings twoElements () elapsed]

def afterPause (elapsed : Time) : World Unit :=
  (pausedInWindow elapsed).foldl (perform applying) twoElementWorld

end World

end Smo.RanNfOam.ConfigJobs
