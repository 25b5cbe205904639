import Smo.Aimgf.UpdateBooks

/-! The start of runs, the updates that are made and modified, and what holds of the books of the
updates after any sequence of transactions. -/
namespace Smo.Aimgf

open Table

namespace Books

variable {b b' : Books} {db : Database} {p : Nat} {update : MLUpdate} {id : JobId}
  {job : TrainingJob} {m : ModelId}

section Starts

variable {o : Outside} {db' : Database} {body : TrainingRequest} {processId : Option Nat}

theorem supersede_cases (db : Database) (m : ModelId) : db.supersede m = db ∨
    ∃ existing orphaned, (db.lifecycle m).trainingJobId = some existing ∧
      db.trainingJobs[existing]? = some orphaned ∧ orphaned.status = .inProgress ∧
      db.supersede m = db.setTraining existing (orphaned.close .cancelled) := by
  unfold Database.supersede
  split
  · exact .inl rfl
  next existing is =>
  split
  · exact .inl rfl
  next orphaned found =>
  split
  · next runs => exact .inr ⟨existing, orphaned, is, found, runs, rfl⟩
  · exact .inl rfl

theorem startTraining_made (started : db.startTraining o body processId = .ok db') :
    ∃ job : TrainingJob, job.status = .inProgress ∧ job.mlUpdateProcessId = processId ∧
      (body.modelId = none ∧ db' = db.addTraining job ∨
       ∃ m fired, body.modelId = some m ∧ fired.state m = .training ∧
        (∀ n, n ≠ m → fired.lifecycle n = db.lifecycle n) ∧
        (Quiet (db.addTraining job) fired ∧ fired.trainingJobs = (db.addTraining job).trainingJobs ∧
            db.state m ≠ .training ∨
          db.state m = .training ∧ fired = (db.addTraining job).supersede m) ∧
        db' = fired.setLifecycle m
          { fired.lifecycle m with trainingJobId := some db.trainingJobs.length }) := by
  unfold Database.startTraining at started
  split at started
  · next group =>
    cases started
    exact ⟨_, rfl, rfl, .inl ⟨group, rfl⟩⟩
  next m its =>
  obtain ⟨-, -, started⟩ := bind_ok started
  dsimp only at started
  split at started
  · cases started
  split at started
  · cases started
  obtain ⟨fired, how, started⟩ := bind_ok started
  cases started
  generalize body.mlTrainingType.getD _ = mlTrainingType at how
  refine ⟨db.newTraining o body mlTrainingType processId, rfl, rfl,
    .inr ⟨m, fired, its, ?_, ?_, ?_, rfl⟩⟩ <;>
    split at how
  · next training =>
    cases how
    rw [Database.state, supersede_lifecycle]
    exact training
  · obtain ⟨-, -, -, fires⟩ := fireModelEvent_frame how
    exact (training_of_fire fires).1.mpr rfl
  · cases how
    intro n _
    rw [supersede_lifecycle]
    rfl
  · exact (fireModelEvent_frame how).2.1
  · next training =>
    cases how
    exact .inr ⟨training, rfl⟩
  · next elsewhere =>
    exact .inl ⟨fireModelEvent_quiet how, (fireModelEvent_frame how).1, elsewhere⟩

/-- The run that a new run of the model would supersede is not the last one of its update. -/
def Spared (b : Books) (m : ModelId) : Prop := b.db.state m = .training →
  ∀ existing job, (b.db.lifecycle m).trainingJobId = some existing →
    b.db.trainingJobs[existing]? = some job → job.status = .inProgress →
    ∀ p, job.mlUpdateProcessId = some p → ∃ (j : JobId) (other : TrainingJob), j ≠ existing ∧
      b.db.trainingJobs[j]? = some other ∧ other.mlUpdateProcessId = some p ∧
      other.status.ended = false

theorem progress_add (job : TrainingJob) :
    (db.addTraining job).progress = db.progress ++ [job.progress] := by
  simp [Database.progress, Database.addTraining]

theorem live_of_not_ended (begun : job.progress.outcome ≠ some .notStarted)
    (live : job.status.ended = false) : job.progress.outcome = none := by
  have iff := ended_iff begun
  rw [live] at iff
  simpa using iff

theorem live_of_starts (starts : job.status = .inProgress) : job.progress.outcome = none := by
  simp [TrainingJob.progress, starts, TrainingStatus.active]

theorem Sound.addsRun (sound : b.Sound) (starts : job.status = .inProgress)
    (group : job.mlUpdateProcessId = none) : Sound { b with db := b.db.addTraining job } := by
  refine sound.adds (progress_add job) group (live_of_starts starts) rfl fun n i is => ?_
  rw [progress_add, List.length_append]
  exact Nat.lt_of_lt_of_le (sound.current n i is) (Nat.le_add_right _ _)

theorem progress_setLifecycle (row : ModelLifecycle) :
    (db.setLifecycle m row).progress = db.progress := rfl

theorem length_supersede (db : Database) (m : ModelId) :
    (db.supersede m).progress.length = db.progress.length := by
  rcases supersede_cases db m with same | ⟨existing, orphaned, -, -, -, same⟩
  · rw [same]
  · rw [same, progress_set, List.length_set]

theorem Sound.supersedes (sound : b.Sound) (training : b.db.state m = .training)
    (spared : b.Spared m) (job : TrainingJob) (starts : job.status = .inProgress)
    (group : job.mlUpdateProcessId = none) :
    Sound { b with db := (b.db.addTraining job).supersede m } := by
  have added := sound.addsRun starts group
  rcases supersede_cases (b.db.addTraining job) m with
    same | ⟨existing, orphaned, is, found, runs, same⟩
  · rw [same]
    exact added
  rw [same]
  have within : existing < b.db.trainingJobs.length := by
    simpa [Database.progress] using sound.current m existing is
  have was : b.db.trainingJobs[existing]? = some orphaned := by
    rwa [Database.addTraining, List.getElem?_append_left within] at found
  refine added.endsOne (progress_get found) ?_ (progress_set _) rfl ?_ rfl ?_ ?_
  · simp [TrainingJob.progress, runs, TrainingStatus.active]
  · simp [TrainingJob.progress, TrainingJob.close, TrainingStatus.active]
  · intro n i current
    rw [progress_set, List.length_set]
    exact added.current n i current
  · intro p its
    obtain ⟨j, other, apart, at_, names, lives⟩ :=
      spared training existing orphaned is was runs p its
    have row : other.progress ∈ b.db.progress :=
      List.mem_map_of_mem (List.mem_of_getElem? at_)
    refine ⟨other.progress, List.mem_filter.mpr ⟨?_, decide_eq_true names⟩,
      live_of_not_ended (sound.begun _ row) lives⟩
    have inside : j < b.db.trainingJobs.length := (List.getElem?_eq_some_iff.mp at_).1
    refine List.mem_map_of_mem (List.mem_of_getElem? (i := j) ?_)
    rw [Database.setTraining, List.getElem?_set_ne (Ne.symm apart), Database.addTraining,
      List.getElem?_append_left inside, at_]

theorem Sound.starts (sound : b.Sound) (spared : ∀ m, body.modelId = some m → b.Spared m)
    (started : b.db.startTraining o body none = .ok db') : Sound { b with db := db' } := by
  obtain ⟨job, starts, group, ⟨-, rfl⟩ | ⟨m, fired, its, -, others, how, rfl⟩⟩ :=
    startTraining_made started
  · exact sound.addsRun starts group
  · have grown : (b.db.addTraining job).progress.length = b.db.trainingJobs.length + 1 := by
      rw [progress_add, List.length_append]
      simp [Database.progress]
    have middle : Sound { b with db := fired } ∧
        fired.progress.length = b.db.trainingJobs.length + 1 := by
      rcases how with ⟨quiet, -, -⟩ | ⟨training, rfl⟩
      · exact ⟨(sound.addsRun starts group).quiet quiet, quiet.progress ▸ grown⟩
      · exact ⟨sound.supersedes training (spared m its) job starts group,
          (length_supersede _ m).trans grown⟩
    obtain ⟨fires, length⟩ := middle
    refine fires.of_same rfl rfl fun n i is => ?_
    rw [progress_setLifecycle, length]
    by_cases own : n = m
    · subst own
      rw [lifecycle_setLifecycle_self] at is
      cases is
      exact Nat.lt_succ_self _
    · rw [lifecycle_setLifecycle_of_ne _ own] at is
      exact length ▸ fires.current n i is

theorem Sound.reportBreach {propagation : Str} {members : List ModelId} (sound : b.Sound)
    (reported : b.db.reportBreach o propagation members = .ok db') :
    Sound { b with db := db' } := by
  unfold Database.reportBreach at reported
  split at reported
  · next triggers =>
    clear triggers
    unfold Database.triggerGroupRetrain at reported
    generalize is : b.db = db at reported
    have start : Sound { b with db } := is ▸ sound
    clear is
    induction members generalizing db with
    | nil =>
      cases reported
      exact start
    | cons member members ih =>
      rw [List.foldlM_cons] at reported
      obtain ⟨between, first, rest⟩ := bind_ok reported
      refine ih between rest ?_
      split at first
      · cases first
        exact start
      split at first
      · cases first
        exact start
      · next unpromoted promoted =>
        refine Sound.starts (b := { b with db }) start (fun m its training => ?_) first
        cases its
        have promoted : db.state member = .promoted := not_not.mp promoted
        cases promoted.symm.trans training
  · cases reported
    exact sound
  · cases reported
    exact sound

structure Starting (b : Books) (models : List ModelId) (db : Database) : Prop where
  runs : ∀ p, p ≠ b.db.updates.length →
    db.progress.filter (·.mlUpdateProcessId = some p) = b.runs p
  begun : ∀ run ∈ db.progress, run.outcome ≠ some .notStarted
  within : ∀ run ∈ db.progress, ∀ p, run.mlUpdateProcessId = some p → p < b.db.updates.length + 1
  current : ∀ m i, (db.lifecycle m).trainingJobId = some i → i < db.progress.length
  updates : db.updates = b.db.updates ++ [{ mlModelRefs := models }]
  own : ∀ m ∈ models, db.state m = .training → ∀ i, (db.lifecycle m).trainingJobId = some i →
    ∃ run, db.progress[i]? = some run ∧ run.mlUpdateProcessId = some b.db.updates.length

structure Started (n : Nat) (rows rows' : List Progress) : Prop where
  length : rows'.length = rows.length
  others : ∀ p, p ≠ n → rows'.filter (·.mlUpdateProcessId = some p) =
    rows.filter (·.mlUpdateProcessId = some p)
  mem : ∀ run ∈ rows', run ∈ rows ∨
    run.outcome ≠ some .notStarted ∧ run.mlUpdateProcessId = some n
  same : ∀ (i : Nat) (run : Progress), rows[i]? = some run →
    ∃ run', rows'[i]? = some run' ∧ run'.mlUpdateProcessId = run.mlUpdateProcessId

theorem Started.refl {n : Nat} {rows : List Progress} : Started n rows rows :=
  ⟨rfl, fun _ _ => rfl, fun _ mem => .inl mem, fun _ run found => ⟨run, found, rfl⟩⟩

theorem Started.set {n i : Nat} {rows : List Progress} {run next : Progress}
    (found : rows[i]? = some run) (its : run.mlUpdateProcessId = some n)
    (same : next.mlUpdateProcessId = run.mlUpdateProcessId)
    (begun : next.outcome ≠ some .notStarted) : Started n rows (rows.set i next) := by
  refine ⟨List.length_set, fun p apart => ?_, fun other mem => ?_, fun j other at_ => ?_⟩
  · refine filter_set found ?_ ?_ <;> simp [same, its, Ne.symm apart]
  · rcases List.mem_or_eq_of_mem_set mem with before | rfl
    · exact .inl before
    · exact .inr ⟨begun, same.trans its⟩
  · by_cases own : i = j
    · subst own
      obtain rfl := Option.some.inj (found.symm.trans at_)
      exact ⟨next, List.getElem?_set_self (List.getElem?_eq_some_iff.mp at_).1, same⟩
    · exact ⟨other, (List.getElem?_set_ne own).trans at_, rfl⟩

theorem Starting.rows {models : List ModelId} {fired : Database} (starting : Starting b models db)
    (mem : m ∈ models)
    (how : Quiet (db.addTraining job) fired ∧
        fired.trainingJobs = (db.addTraining job).trainingJobs ∧ db.state m ≠ .training ∨
      db.state m = .training ∧ fired = (db.addTraining job).supersede m) :
    fired.updates = db.updates ∧ ∃ rows, fired.progress = rows ++ [job.progress] ∧
      Started b.db.updates.length db.progress rows := by
  rcases how with ⟨quiet, -, -⟩ | ⟨training, rfl⟩
  · exact ⟨quiet.updates, _, quiet.progress.trans (progress_add job), .refl⟩
  rcases supersede_cases (db.addTraining job) m with same | ⟨existing, orphaned, is, found, -, same⟩
  · rw [same]
    exact ⟨rfl, _, progress_add job, .refl⟩
  rw [same]
  obtain ⟨run, at_, its⟩ := starting.own m mem training existing is
  have within := (List.getElem?_eq_some_iff.mp at_).1
  have row := progress_get found
  rw [progress_add, List.getElem?_append_left within, at_] at row
  obtain rfl := Option.some.inj row
  refine ⟨rfl, db.progress.set existing (orphaned.close .cancelled).progress, ?_,
    .set at_ its rfl ?_⟩
  · rw [progress_set, progress_add, List.set_append_left _ _ within]
  · simp [TrainingJob.progress, TrainingJob.close, TrainingStatus.active]

theorem Starting.start {models : List ModelId} (starting : Starting b models db)
    (mem : m ∈ models) (names : body.modelId = some m)
    (started : db.startTraining o body (some b.db.updates.length) = .ok db') :
    Starting b models db' ∧ ∃ run ∈ db'.progress,
      run.mlUpdateProcessId = some b.db.updates.length ∧ run.outcome = none := by
  obtain ⟨job, starts, its, ⟨group, -⟩ | ⟨n, fired, names', training, others, how, rfl⟩⟩ :=
    startTraining_made started
  · cases names.symm.trans group
  obtain rfl := Option.some.inj (names.symm.trans names')
  obtain ⟨updates, rows, progress, step⟩ := starting.rows mem how
  have live := live_of_starts starts
  have length : fired.progress.length = db.progress.length + 1 := by
    rw [progress, List.length_append, step.length, List.length_singleton]
  have count : db.progress.length = db.trainingJobs.length := List.length_map _
  have new : fired.progress[db.trainingJobs.length]? = some job.progress := by
    rw [progress, ← count, ← step.length, List.getElem?_concat_length]
  refine ⟨⟨fun p apart => ?_, fun run mem' => ?_, fun run mem' p is => ?_, fun n i is => ?_,
    updates.trans starting.updates, fun n its' trains i is => ?_⟩,
    job.progress, List.mem_of_getElem? new, its, live⟩
  · rw [progress_setLifecycle, progress, List.filter_append, step.others p apart,
      starting.runs p apart]
    have other : ¬ job.progress.mlUpdateProcessId = some p := by
      rw [show job.progress.mlUpdateProcessId = some b.db.updates.length from its]
      simpa using Ne.symm apart
    simp [other]
  · rw [progress_setLifecycle, progress, List.mem_append, List.mem_singleton] at mem'
    rcases mem' with before | rfl
    · rcases step.mem run before with was | ⟨begun, -⟩
      · exact starting.begun run was
      · exact begun
    · simp [live]
  · rw [progress_setLifecycle, progress, List.mem_append, List.mem_singleton] at mem'
    have own : ∀ {q}, run.mlUpdateProcessId = some q → q = b.db.updates.length →
        p < b.db.updates.length + 1 := by
      intro q same bound
      obtain rfl := Option.some.inj (same.symm.trans is)
      omega
    rcases mem' with before | rfl
    · rcases step.mem run before with was | ⟨-, mine⟩
      · exact starting.within run was p is
      · exact own mine rfl
    · exact own its rfl
  · rw [progress_setLifecycle, length]
    by_cases own : n = m
    · subst own
      rw [lifecycle_setLifecycle_self] at is
      cases is
      exact count ▸ Nat.lt_succ_self _
    · rw [lifecycle_setLifecycle_of_ne _ own, others n own] at is
      exact Nat.lt_succ_of_lt (starting.current n i is)
  · rw [progress_setLifecycle]
    by_cases own : n = m
    · subst own
      rw [lifecycle_setLifecycle_self] at is
      cases is
      exact ⟨job.progress, new, its⟩
    · rw [Database.state, lifecycle_setLifecycle_of_ne _ own, others n own] at trains
      rw [lifecycle_setLifecycle_of_ne _ own, others n own] at is
      obtain ⟨run, at_, mine⟩ := starting.own n its' trains i is
      obtain ⟨run', at', same⟩ := step.same i run at_
      refine ⟨run', ?_, same.trans mine⟩
      rw [progress, List.getElem?_append_left (List.getElem?_eq_some_iff.mp at').1, at']

theorem Starting.all {models later : List ModelId} {source : Str} (starting : Starting b models db)
    (mem : ∀ m ∈ later, m ∈ models)
    (started : db.startUpdates o source b.db.updates.length later = .ok db') :
    Starting b models db' ∧ (later ≠ [] → ∃ run ∈ db'.progress,
      run.mlUpdateProcessId = some b.db.updates.length ∧ run.outcome = none) := by
  unfold Database.startUpdates at started
  induction later generalizing db with
  | nil =>
    cases started
    exact ⟨starting, fun nonempty => absurd rfl nonempty⟩
  | cons m later ih =>
    rw [List.foldlM_cons] at started
    obtain ⟨between, first, rest⟩ := bind_ok started
    obtain ⟨next, live⟩ := starting.start (mem m List.mem_cons_self) rfl first
    obtain ⟨last, lives⟩ := ih next (fun n its => mem n (List.mem_cons_of_mem _ its)) rest
    refine ⟨last, fun _ => ?_⟩
    by_cases isOver : later = []
    · subst isOver
      cases rest
      exact live
    · exact lives isOver

theorem Sound.createMlUpdateRequest {source : Str} {models : List ModelId} {ref : Option Nat}
    (sound : b.Sound) (created : b.createMlUpdateRequest o source models ref = .ok b') :
    b'.Sound := by
  unfold Books.createMlUpdateRequest at created
  split at created
  · cases created
  next nonempty =>
  obtain ⟨⟨⟩, checks, created⟩ := bind_ok created
  obtain ⟨db, makes, made⟩ := bind_ok created
  cases made
  unfold Database.createMlUpdateRequest at makes
  rw [if_neg nonempty] at makes
  obtain ⟨passed, updatable, starts⟩ := bind_ok makes
  have first : Starting b models
      { b.db with updates := b.db.updates ++ [{ mlModelRefs := models }] } := by
    refine ⟨fun p _ => rfl, sound.begun, fun run mem p is => ?_, sound.current, rfl,
      fun m mem training => ?_⟩
    · exact Nat.lt_succ_of_lt (sound.within run mem p is)
    · obtain ⟨result, -, allowed⟩ := mapM_ok_mem updatable mem
      unfold Database.updatable at allowed
      obtain ⟨-, -, allowed⟩ := bind_ok allowed
      dsimp only at allowed
      split at allowed
      · cases allowed
      · next idle => exact absurd training fun is => idle (.inr is)
  obtain ⟨starting, lives⟩ := first.all (fun _ => id) starts
  obtain ⟨live, mem, mine, none⟩ := lives nonempty
  have length : db.updates.length = b.db.updates.length + 1 := by
    rw [starting.updates, List.length_append, List.length_singleton]
  have reports : b.reportsOf b.db.updates.length = [] := by
    refine List.filter_eq_nil_iff.mpr fun report its is => ?_
    exact absurd (of_decide_eq_true is) (Nat.ne_of_lt (sound.reported report its))
  refine ⟨fun p update found => ?_, starting.begun, fun run mem p is => ?_, fun report mem => ?_,
    starting.current, ?_, fun p function names => ?_, fun function row is m => ?_⟩
  · rw [starting.updates] at found
    rcases append_cases found with ⟨rfl, rfl⟩ | was
    · have here : live ∈ runs { b with db, functionRefs := b.functionRefs ++ [ref] }
          b.db.updates.length := List.mem_filter.mpr ⟨mem, decide_eq_true mine⟩
      refine ⟨⟨fun isOver => ?_, fun ended => ?_⟩, ⟨fun finished => ?_, fun ended => ?_⟩, rfl,
        reports⟩
      · cases isOver
      · have ends := ended live here
        simp [none] at ends
      · cases finished
      · cases none.symm.trans (ended live here)
    · have apart : p ≠ b.db.updates.length := Nat.ne_of_lt (List.getElem?_eq_some_iff.mp was).1
      exact (sound.kept p update was).congr (starting.runs p apart) rfl
  · exact length ▸ starting.within run mem p is
  · exact length ▸ Nat.lt_succ_of_lt (sound.reported report mem)
  · rw [length, List.length_append, sound.refs, List.length_singleton]
  · rcases append_cases names with ⟨-, is⟩ | was
    · subst is
      unfold checkFunction at checks
      dsimp only at checks
      split at checks
      · cases checks
      · next there =>
        obtain ⟨row, is⟩ := Option.ne_none_iff_exists'.mp there
        exact (List.getElem?_eq_some_iff.mp (Option.join_eq_some_iff.mp is)).1
    · exact sound.named p function was
  · refine (sound.gained function row is m).trans (or_congr_right ⟨?_, ?_⟩)
    · rintro ⟨p, update, found, closed, names, updated⟩
      have within := (List.getElem?_eq_some_iff.mp found).1
      have same : runs { b with db, functionRefs := b.functionRefs ++ [ref] } p = b.runs p :=
        starting.runs p (Nat.ne_of_lt within)
      refine ⟨p, update, ?_, closed, ?_, ?_⟩
      · rw [starting.updates, List.getElem?_append_left within, found]
      · rw [List.getElem?_append_left (sound.refs ▸ within), names]
      · unfold Updated at updated ⊢
        rwa [same]
    · rintro ⟨p, update, found, closed, names, updated⟩
      rw [starting.updates] at found
      rcases append_cases found with ⟨-, rfl⟩ | was
      · cases closed
      · have within := (List.getElem?_eq_some_iff.mp was).1
        rw [List.getElem?_append_left (sound.refs ▸ within)] at names
        have same : runs { b with db, functionRefs := b.functionRefs ++ [ref] } p = b.runs p :=
          starting.runs p (Nat.ne_of_lt within)
        refine ⟨p, update, was, closed, names, ?_⟩
        unfold Updated at updated ⊢
        rwa [← same]

def cancelled (run : Progress) : Progress :=
  { run with outcome := some (run.outcome.getD .cancelled) }

theorem cancelOfUpdate_frame (db : Database) (id : JobId) :
    (db.cancelOfUpdate id).updates = db.updates ∧
    (∀ m, ((db.cancelOfUpdate id).lifecycle m).trainingJobId = (db.lifecycle m).trainingJobId) ∧
    ∀ i : Nat, (db.cancelOfUpdate id).progress[i]? =
      if i = id then db.progress[i]?.map cancelled else db.progress[i]? := by
  have same : ∀ run, db.progress[id]? = run →
      (∀ run', run = some run' → run'.outcome.isSome = true) → ∀ i : Nat, db.progress[i]? =
        if i = id then db.progress[i]?.map cancelled else db.progress[i]? := by
    intro run is ended i
    split
    · next own =>
      subst own
      rw [is]
      cases run with
      | none => rfl
      | some run =>
        obtain ⟨status, ends⟩ := Option.isSome_iff_exists.mp (ended run rfl)
        have kept : cancelled run = run := by
          unfold cancelled
          rw [ends, Option.getD_some, ← ends]
        rw [Option.map_some, kept]
    · rfl
  unfold Database.cancelOfUpdate
  split
  · next absent =>
    refine ⟨rfl, fun _ => rfl, same none ?_ fun _ none => by cases none⟩
    rw [Database.progress, List.getElem?_map, absent, Option.map_none]
  next job found =>
  split
  · next active =>
    have quiet : Quiet (db.setTraining id { job.close .cancelled with cancelRequest := true })
        (db.closeCancelled id job) := releaseTrainingModel_quiet
    refine ⟨quiet.updates, quiet.current, fun i => ?_⟩
    rw [quiet.progress, progress_set, List.getElem?_set]
    have was := progress_get found
    split
    · next own =>
      subst own
      have live : job.progress.outcome = none := if_pos active
      rw [if_pos (List.getElem?_eq_some_iff.mp was).1, if_pos rfl, was, Option.map_some, cancelled,
        live]
      rfl
    · next apart => rw [if_neg (Ne.symm apart)]
  · next inactive =>
    refine ⟨rfl, fun _ => rfl, same _ (progress_get found) fun run is => ?_⟩
    cases is
    simp [TrainingJob.progress, inactive]

theorem cancelAll_frame (ids : List JobId) (db : Database) :
    (ids.foldl Database.cancelOfUpdate db).updates = db.updates ∧
    (∀ m, ((ids.foldl Database.cancelOfUpdate db).lifecycle m).trainingJobId =
      (db.lifecycle m).trainingJobId) ∧
    ∀ i : Nat, (ids.foldl Database.cancelOfUpdate db).progress[i]? =
      if i ∈ ids then db.progress[i]?.map cancelled else db.progress[i]? := by
  induction ids generalizing db with
  | nil => exact ⟨rfl, fun _ => rfl, fun _ => rfl⟩
  | cons id ids ih =>
    obtain ⟨updates, current, progress⟩ := ih (db.cancelOfUpdate id)
    obtain ⟨updates', current', progress'⟩ := cancelOfUpdate_frame db id
    refine ⟨updates.trans updates', fun m => (current m).trans (current' m), fun i => ?_⟩
    rw [List.foldl_cons, progress i, progress' i]
    by_cases own : i = id
    · have twice : cancelled ∘ cancelled = cancelled := by
        funext run
        simp [cancelled]
      simp [own, Option.map_map, twice]
    · simp [own]

theorem mem_updateJobs {i : JobId} : i ∈ db.updateJobs p ↔
    ∃ run, db.progress[i]? = some run ∧ run.mlUpdateProcessId = some p := by
  unfold Database.updateJobs Database.progress
  rw [List.mem_filter, List.mem_range, List.getElem?_map]
  constructor
  · rintro ⟨-, its⟩
    obtain ⟨job, found, names⟩ := (Option.any_eq_true _ _).mp its
    exact ⟨job.progress, by rw [found, Option.map_some], of_decide_eq_true names⟩
  · rintro ⟨run, found, names⟩
    obtain ⟨job, at_, rfl⟩ := Option.map_eq_some_iff.mp found
    refine ⟨(List.getElem?_eq_some_iff.mp at_).1, ?_⟩
    rw [at_, Option.any_some]
    exact decide_eq_true names

theorem Sound.cancelsUpdate (sound : b.Sound) (found : b.db.updates[p]? = some update)
    (goes : update.processStatus.over = false) (opened : update.closed = false)
    {next : MLUpdate} (process : next.processStatus = .cancelled)
    (request : next.requestStatus = .cancelled) (updates : db.updates = b.db.updates.set p next)
    (current : ∀ m, (db.lifecycle m).trainingJobId = (b.db.lifecycle m).trainingJobId)
    (progress : ∀ i : Nat, db.progress[i]? = if i ∈ b.db.updateJobs p
      then b.db.progress[i]?.map cancelled else b.db.progress[i]?) : Sound { b with db } := by
  have rows : db.progress = b.db.progress.map fun run =>
      if run.mlUpdateProcessId = some p then cancelled run else run := by
    refine List.ext_getElem? fun i => ?_
    rw [progress i, List.getElem?_map]
    cases at_ : b.db.progress[i]? with
    | none => simp
    | some run =>
      have iff : i ∈ b.db.updateJobs p ↔ run.mlUpdateProcessId = some p := by
        rw [mem_updateJobs, at_]
        simp
      by_cases its : run.mlUpdateProcessId = some p
      · simp [iff, its]
      · simp [iff, its]
  have closed : next.closed = false := by simp [MLUpdate.closed, process]
  have length : db.updates.length = b.db.updates.length := by rw [updates, List.length_set]
  have apart : ∀ q, q ≠ p → runs { b with db } q = b.runs q := by
    intro q differs
    unfold runs
    rw [rows, List.filter_map]
    have same : (fun run : Progress => decide (run.mlUpdateProcessId = some q)) ∘
        (fun run => if run.mlUpdateProcessId = some p then cancelled run else run) =
          fun run => decide (run.mlUpdateProcessId = some q) := by
      funext run
      simp only [Function.comp]
      split <;> rfl
    rw [same]
    refine (List.map_congr_left fun run mem => ?_).trans (List.map_id' _)
    have its : run.mlUpdateProcessId = some q := of_decide_eq_true (List.mem_filter.mp mem).2
    rw [if_neg]
    rintro is
    exact differs (Option.some.inj (its.symm.trans is))
  have mine : ∀ run, run ∈ b.runs p → cancelled run ∈ runs { b with db } p := by
    intro run mem
    obtain ⟨there, its⟩ := List.mem_filter.mp mem
    refine List.mem_filter.mpr ⟨?_, its⟩
    rw [rows]
    exact List.mem_map.mpr ⟨run, there, if_pos (of_decide_eq_true its)⟩
  have ended : ∀ run ∈ runs { b with db } p, run.outcome.isSome = true := by
    intro run mem
    obtain ⟨there, its⟩ := List.mem_filter.mp mem
    rw [rows] at there
    obtain ⟨before, -, is⟩ := List.mem_map.mp there
    split at is
    · rw [← is]
      rfl
    · next other =>
      subst is
      exact absurd (of_decide_eq_true its) other
  have kept := sound.kept p update found
  refine ⟨fun q other found' => ?_, fun run mem => ?_, fun run mem q its => ?_,
    fun report mem => ?_, fun m i is => ?_, sound.refs.trans length.symm, sound.named,
    fun function row is => ?_⟩
  · rw [updates] at found'
    rcases set_cases found' with ⟨rfl, rfl⟩ | ⟨differs, was⟩
    · refine ⟨⟨fun _ => ended, fun _ => ?_⟩, ⟨fun finished => ?_, fun all => ?_⟩, ?_, ?_⟩
      · rw [process]
        rfl
      · rw [process] at finished
        cases finished
      · obtain ⟨run, mem, live⟩ : ∃ run ∈ b.runs q, run.outcome = none := by
          by_contra absent
          push Not at absent
          rw [kept.isOver.mpr fun run mem => Option.isSome_iff_ne_none.mpr (absent run mem)] at goes
          cases goes
        have finished := all _ (mine run mem)
        rw [cancelled, live] at finished
        cases finished
      · rw [if_neg (by simp [closed]), request, process]
      · have report := kept.report
        rw [if_neg (by simp [opened])] at report
        rw [if_neg (by simp [closed])]
        exact report
    · exact (sound.kept q other was).congr (apart q differs) rfl
  · rw [rows] at mem
    obtain ⟨before, there, is⟩ := List.mem_map.mp mem
    have begun := sound.begun before there
    split at is <;> subst is
    · unfold cancelled
      cases outcome : before.outcome <;> simp_all
    · exact begun
  · rw [length]
    rw [rows] at mem
    obtain ⟨before, there, is⟩ := List.mem_map.mp mem
    split at is <;> subst is <;> exact sound.within before there q its
  · exact length ▸ sound.reported report mem
  · rw [rows, List.length_map]
    rw [current] at is
    exact sound.current m i is
  · exact (sound.gained function row is).opened found opened closed updates rfl apart

theorem suspendAll_quiet {suspend : Bool} {ids : List JobId}
    (flagged : ids.foldlM (Database.suspendOfUpdate o suspend) db = .ok db') : Quiet db db' := by
  induction ids generalizing db with
  | nil =>
    cases flagged
    exact .refl
  | cons id ids ih =>
    rw [List.foldlM_cons] at flagged
    obtain ⟨between, first, rest⟩ := bind_ok flagged
    refine Quiet.trans ?_ (ih rest)
    unfold Database.suspendOfUpdate at first
    split at first
    · cases first
      exact .refl
    · next job found => exact applyTrainingFlags_quiet (by simp) found first

theorem Sound.modifyMlUpdateRequest {cancel suspend : Option Bool} (sound : b.Sound)
    (modified : b.db.modifyMlUpdateRequest o p cancel suspend = .ok db') :
    Sound { b with db := db' } := by
  unfold Database.modifyMlUpdateRequest at modified
  split at modified
  · cases modified
  next update found =>
  split at modified
  · cases modified
  next unfinished =>
  split at modified
  · cases modified
  next uncancelled =>
  have kept := sound.kept p update found
  have request := kept.request
  have opened : update.closed = false := by
    by_contra closed
    rw [Bool.not_eq_false] at closed
    rw [if_pos closed] at request
    exact unfinished request
  rw [if_neg (by simp [opened])] at request
  have goes : update.processStatus.over = false := by
    unfold MLUpdate.closed at opened
    rw [request] at uncancelled
    cases is : update.processStatus <;> simp_all [UpdateStatus.over]
  split at modified
  · cases modified
    obtain ⟨updates, current, progress⟩ := cancelAll_frame (b.db.updateJobs p)
      (b.db.setUpdate p { update with requestStatus := .cancelled, processStatus := .cancelled })
    exact sound.cancelsUpdate found goes opened rfl rfl updates current progress
  split at modified
  · cases modified
    exact sound
  · next suspend =>
    obtain ⟨flagged, flags, made⟩ := bind_ok modified
    cases made
    have quiet := suspendAll_quiet flags
    refine Sound.pauseUpdate (b := { b with db := flagged }) (sound.quiet quiet)
      (quiet.updates ▸ found) goes ?_ rfl
    cases suspend <;> rfl

end Starts

def superseded (b : Books) (o : Outside) (body : TrainingRequest) :
    Option (JobId × TrainingJob) := do
  let m ← body.modelId
  if body.modelCoordinationGroupId = none ∧ o.known m = true ∧ b.db.state m = .training ∧
      body.mlTrainingType ≠ some initialTraining then
    let existing ← (b.db.lifecycle m).trainingJobId
    let job ← b.db.trainingJobs[existing]?
    if job.status = .inProgress then some (existing, job) else none
  else none

def last (b : Books) (existing : JobId) (p : Nat) : Bool :=
  (List.range b.db.trainingJobs.length).all fun j => j = existing ||
    b.db.trainingJobs[j]?.all fun other => other.mlUpdateProcessId ≠ some p || other.status.ended

def strands (b : Books) : Act → Bool
  | .transaction { outside := o, call := .startTraining body, interrupted := false } _ =>
    (b.superseded o body).any fun (existing, job) => job.mlUpdateProcessId.any (b.last existing)
  | _ => false

theorem not_last {existing : JobId} (spare : b.last existing p = false) :
    ∃ (j : JobId) (other : TrainingJob), j ≠ existing ∧ b.db.trainingJobs[j]? = some other ∧
      other.mlUpdateProcessId = some p ∧ other.status.ended = false := by
  obtain ⟨j, mem, lives⟩ := List.all_eq_false.mp spare
  have found := List.getElem?_eq_getElem (List.mem_range.mp mem)
  rw [found] at lives
  simp only [Option.all_some, Bool.or_eq_true, decide_eq_true_eq, not_or, not_not,
    Bool.not_eq_true] at lives
  exact ⟨j, _, lives.1, found, lives.2.1, lives.2.2⟩

theorem Sound.requestTraining {o : Outside} {body : TrainingRequest} (sound : b.Sound)
    {ref : Option Nat}
    (spare : b.strands (.transaction ⟨o, .startTraining body, false⟩ ref) = false)
    (requested : Aimgf.requestTraining o b.db body = .ok db) : Sound { b with db } := by
  unfold Aimgf.requestTraining at requested
  split at requested
  · cases requested
  next one =>
  refine sound.starts (fun m names training existing job is found runs p its => not_last ?_)
    requested
  have known : o.known m = true := by
    unfold Database.startTraining at requested
    rw [names] at requested
    obtain ⟨⟨⟩, passes, -⟩ := bind_ok requested
    unfold getModel at passes
    split at passes
    · assumption
    · cases passes
  have type : body.mlTrainingType ≠ some initialTraining := by
    rintro first
    unfold Database.startTraining at requested
    rw [names] at requested
    obtain ⟨-, -, requested⟩ := bind_ok requested
    dsimp only at requested
    rw [if_pos (⟨first, by rw [training]; decide⟩ : _ ∧ _)] at requested
    split at requested <;> cases requested
  have group : body.modelCoordinationGroupId = none := by
    rw [names] at one
    simpa using one
  have is' : b.superseded o body = some (existing, job) := by
    simp [superseded, names, group, known, training, type, is, found, runs]
  simpa [strands, is', its] using spare

theorem Sound.run {o : Outside} {ref : Option Nat} {call : Call} (sound : b.Sound)
    (spare : b.strands (.transaction ⟨o, call, false⟩ ref) = false)
    (ran : b.run o ref call = .ok b') : b'.Sound := by
  cases call
  case sweep =>
    cases ran
    exact sound.expireOverdueJobs
  case completeTraining id succeeded => exact sound.completeTraining ran
  case cancelTraining id => exact sound.cancelTraining ran
  case deleteMlTrainingRequest id =>
    cases ran
    exact sound.deleteMlTrainingRequest
  case modifyMlTrainingRequest id cancel suspend => exact sound.modifyMlTrainingRequest ran
  case createMlUpdateRequest source models => exact sound.createMlUpdateRequest ran
  -- The others write the database alone.
  all_goals
    obtain ⟨db, made, same⟩ := bind_ok ran
    cases same
  case startTraining body => exact sound.requestTraining spare made
  case suspendTraining id => exact sound.quiet (suspendTraining_quiet made)
  case resumeTraining id => exact sound.quiet (resumeTraining_quiet made)
  case reportBreach propagation members => exact sound.reportBreach made
  case modifyMlUpdateRequest p cancel suspend => exact sound.modifyMlUpdateRequest made
  case startValidation body => exact sound.quiet (startValidation_quiet made)
  case completeValidation id succeeded => exact sound.quiet (completeValidation_quiet made)
  case modifyMlTestingRequest id cancel suspend =>
    exact sound.quiet (modifyMlTestingRequest_quiet made)
  case requestEmulation body => exact sound.quiet (requestEmulation_quiet made)
  case completeEmulation id succeeded => exact sound.quiet (completeEmulation_quiet made)
  case advance rapp m event decidedBy rationale =>
    exact sound.quiet (advanceModelLifecycle_quiet made)
  case deployRuntime m =>
    obtain ⟨-, -, moved⟩ := bind_ok made
    exact sound.quiet (moveRuntime_quiet (fun _ _ => deployRuntime_current) moved)
  case activateRuntime m =>
    exact sound.quiet (moveRuntime_quiet (fun _ _ => activateRuntime_current) made)
  case scaleRuntime m =>
    exact sound.quiet (moveRuntime_quiet (fun _ _ => scaleRuntime_current) made)
  case terminateRuntime m =>
    exact sound.quiet (moveRuntime_quiet (fun _ _ => terminateRuntime_current) made)

theorem Sound.createFunction (sound : b.Sound) (models : List ModelId) :
    (b.serve (.createFunction models)).Sound := by
  refine ⟨fun p update found => (sound.kept p update found).congr rfl rfl, sound.begun,
    sound.within, sound.reported, sound.current, sound.refs,
    fun p function names => ?_, fun function row is m => ?_⟩
  · have within := sound.named p function names
    simp only [serve, List.length_append]
    omega
  · rcases append_cases is with ⟨rfl, new⟩ | was
    · cases new
      refine ⟨.inl, fun gained => gained.elim id fun ⟨p, _, _, _, names, _⟩ => ?_⟩
      exact absurd (sound.named p _ names) (Nat.lt_irrefl _)
    · exact sound.gained function row was m

theorem Sound.deleteFunction (sound : b.Sound) (deleted : Nat) :
    (b.serve (.deleteFunction deleted)).Sound := by
  refine ⟨fun p update found => (sound.kept p update found).congr rfl rfl, sound.begun,
    sound.within, sound.reported, sound.current, sound.refs,
    fun p function names => ?_, fun function row is m => ?_⟩
  · have within := sound.named p function names
    simpa [serve] using within
  · rcases set_cases is with ⟨-, none⟩ | ⟨-, was⟩
    · cases none
    · exact sound.gained function row was m

theorem Sound.act {act : Act} (sound : b.Sound) (spare : b.strands act = false)
    (step : Step b act b') : b'.Sound := by
  cases step
  cases act with
  | createFunction models => exact sound.createFunction models
  | deleteFunction function => exact sound.deleteFunction function
  | transaction t ref =>
    obtain ⟨o, call, interrupted⟩ := t
    unfold serve
    cases interrupted with
    | true => exact sound
    | false =>
      dsimp only
      split
      · next done => cases done
      · split
        · next committed ran => exact sound.run spare ran
        · exact sound

theorem Sound.start : Sound {} := by
  refine ⟨fun p update found => ?_, fun run mem => ?_, fun run mem => ?_, fun report mem => ?_,
    fun m i is => ?_, rfl, fun p function names => ?_, fun function row is => ?_⟩ <;>
    first | cases found | cases mem | cases is | cases names

/-- The books of the updates are right: when a process is over and how, what becomes of its request
then, its report, and the models that the functions have gained. -/
structure Accounts (b : Books) : Prop where
  isOver : ∀ (p : Nat) (update : MLUpdate), b.db.updates[p]? = some update →
    (update.processStatus.over = true ↔ update.processStatus = .cancelled ∨
      ∀ job ∈ b.runsOf p, job.status.ended = true)
  finished : ∀ (p : Nat) (update : MLUpdate), b.db.updates[p]? = some update →
    (update.processStatus = .finished ↔ ∀ job ∈ b.runsOf p, job.status = .finished)
  request : ∀ (p : Nat) (update : MLUpdate), b.db.updates[p]? = some update →
    update.closed = true → update.requestStatus = .finished
  report : ∀ (p : Nat) (update : MLUpdate), b.db.updates[p]? = some update →
    update.closed = true → ∃ report, b.reportsOf p = [report] ∧ ∀ m, m ∈ report.mlModelRefs ↔
      ∃ job ∈ b.runsOf p, job.status = .finished ∧ job.modelId = some m
  unreported : ∀ (p : Nat) (update : MLUpdate), b.db.updates[p]? = some update →
    update.closed = false → b.reportsOf p = []
  gained : ∀ (function : Nat) (row : MLUpdateFunction),
    b.updateFunctions[function]? = some (some row) → ∀ m, m ∈ row.mlModelRefs ↔
      m ∈ row.made ∨ ∃ p update, b.db.updates[p]? = some update ∧ update.closed = true ∧
        b.functionRefs[p]? = some (some function) ∧
        ∃ job ∈ b.runsOf p, job.status = .finished ∧ job.modelId = some m

theorem updated_iff : b.Updated p m ↔
    ∃ job ∈ b.runsOf p, job.status = .finished ∧ job.modelId = some m := by
  unfold Updated
  rw [runs_eq]
  constructor
  · rintro ⟨_, mem, finished, names⟩
    obtain ⟨job, its, rfl⟩ := List.mem_map.mp mem
    exact ⟨job, its, finished_iff.mpr finished, names⟩
  · rintro ⟨job, its, finished, names⟩
    exact ⟨job.progress, List.mem_map_of_mem its, finished_iff.mp finished, names⟩

theorem Sound.accounts (sound : b.Sound) : b.Accounts where
  isOver p update found := by
    have kept := sound.kept p update found
    have ends := all_ended (p := p) sound.begun
    rw [List.all_eq_true] at ends
    rw [kept.isOver, ← ends]
    refine ⟨.inr, fun either => either.elim (fun cancelled => ends.mpr (kept.isOver.mp ?_)) id⟩
    rw [cancelled]
    rfl
  finished p update found := by
    rw [(sound.kept p update found).finished, ← all_finished, List.all_eq_true]
    simp only [decide_eq_true_eq]
  request p update found closed := by
    have request := (sound.kept p update found).request
    rwa [if_pos closed] at request
  report p update found closed := by
    have report := (sound.kept p update found).report
    rw [if_pos closed] at report
    simpa only [updated_iff] using report
  unreported p update found opened := by
    have report := (sound.kept p update found).report
    rwa [if_neg (by simp [opened])] at report
  gained function row is m := by
    have gained := sound.gained function row is m
    simpa only [updated_iff] using gained

/-- In a run in which no start supersedes the last live run of an update, the books of the updates
are right in every state. -/
theorem accounts_kept {trace : List (Runs.Step Books Act)} (run : Runs.Run Step {} trace b)
    (spare : ∀ t ∈ trace, t.before.strands t.label = false) : b.Accounts :=
  (run.invariant_of_guarded Sound (·.strands · = false) .start
    (fun _ _ _ sound spare step => sound.act spare step) spare).accounts

def transacts (call : Call) (ref : Option Nat := none) : Act :=
  .transaction ⟨known, call, false⟩ ref

def updates : List Act :=
  [.createFunction [7], transacts (.createMlUpdateRequest "nrm".toList [0, 0, 1]) (some 0),
    transacts (.modifyMlUpdateRequest 0 none (some true)), transacts (.suspendTraining 0),
    transacts (.modifyMlUpdateRequest 0 none (some false)), transacts (.completeTraining 1 true),
    transacts (.completeTraining 2 false)]

theorem updates_accounted : (updates.foldl serve {}).Accounts ∧
    (updates.foldl serve {}).reports = [⟨0, [0]⟩] :=
  ⟨accounts_kept (Runs.run_follow fun _ _ _ => rfl) (by decide +kernel), by decide +kernel⟩

def supersedes : List Act :=
  [transacts (.createMlUpdateRequest "nrm".toList [0]),
    transacts (.startTraining { modelId := some 0, producerId := "nrm".toList })]

theorem update_stranded : ¬ ∀ (trace : List (Runs.Step Books Act)) (b : Books),
    Runs.Run Step {} trace b → b.Accounts := by
  intro always
  have run : Runs.Run Step {} (Runs.stepsOf serve {} supersedes) (supersedes.foldl serve {}) :=
    Runs.run_follow fun _ _ _ => rfl
  have accounts := always _ _ run
  have state : ∃ update, (supersedes.foldl serve {}).db.updates[0]? = some update ∧
      update.processStatus = .running ∧
      ∀ job ∈ (supersedes.foldl serve {}).runsOf 0, job.status.ended = true := by
    decide +kernel
  obtain ⟨update, found, runs, ended⟩ := state
  have isOver := (accounts.isOver 0 update found).mpr (.inr ended)
  rw [runs] at isOver
  cases isOver

end Books

end Smo.Aimgf
