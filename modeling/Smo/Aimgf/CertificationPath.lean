import Smo.Aimgf.LiveRun
import Smo.Lib.Since

/-! The path to certification: whenever a model is certified or promoted, the transitions since its
last CREATE_TRAINING are those of a model that was trained, tested and approved. -/
namespace Smo.Aimgf

def Database.history (db : Database) (m : ModelId) : List LifecycleTransition :=
  db.transitions.filter (·.modelId = m)

def SinceTraining (db : Database) (m : ModelId) (later : List LifecycleTransition) : Prop :=
  Since (·.event = .createTraining) (db.history m) later

/-- What a transition rests on: a governance event on a certification record with a decider, the
completion of a stage on a run of the model that ended so. -/
structure LifecycleTransition.Backed (t : LifecycleTransition) (db : Database) : Prop where
  decided : t.event.governance = true → ∃ record, t.record = some record ∧
    record.modelId = t.modelId ∧ record.decision = t.event ∧ record.decidedBy.isSome = true
  trained : t.event = .trainingComplete → ∃ id job, t.run = some (.training id) ∧
    db.trainingJobs[id]? = some job ∧ job.modelId = some t.modelId ∧ job.status = .finished
  validated : t.event = .validationComplete → ∃ id job, t.run = some (.validation id) ∧
    db.validationJobs[id]? = some job ∧ job.modelId = some t.modelId ∧ job.status = .completed
  emulated : t.event = .emulationComplete → ∃ id job, t.run = some (.emulation id) ∧
    db.emulationJobs[id]? = some job ∧ job.modelId = t.modelId ∧ job.status = .completed

def certificationPath : List ModelLifecycleEvent :=
  [.trainingComplete, .approveTraining, .validationComplete, .approveValidation,
   .emulationComplete, .submitForApproval, .approve, .certify]

/-- Since the latest CREATE_TRAINING of the model, the run that its row names ended FINISHED and
fired TRAINING_COMPLETE, and the path was taken in its order, each event backed. -/
def Certified (db : Database) (m : ModelId) : Prop :=
  ∃ later, SinceTraining db m later ∧
    (∃ passed : List LifecycleTransition, passed.Sublist later ∧ passed.map (·.event) = certificationPath ∧
      ∀ t ∈ passed, t.modelId = m ∧ t.Backed db) ∧
    ∃ id job, (db.lifecycle m).trainingJobId = some id ∧ db.trainingJobs[id]? = some job ∧
      job.status = .finished ∧
      ∀ t ∈ later, t.event = .trainingComplete → t.run = some (.training id)

def Fresh (db : Database) (m : ModelId) (event : ModelLifecycleEvent) : Prop :=
  ∃ later, SinceTraining db m later ∧ ∃ t ∈ later, t.event = event ∧ t.Backed db

structure CertificationPath (db : Database) : Prop where
  certified : ∀ m : ModelId, (db.state m).cleared = true → Certified db m
  training : ∀ m : ModelId, (db.lifecycle m).trainingApproved = true → Fresh db m .approveTraining
  validation : ∀ m : ModelId, (db.lifecycle m).validationApproved = true →
    Fresh db m .approveValidation

/-- The part of the path that a model in its state, with its flags, has behind it. -/
def behind (state : ModelLifecycleState) (trainingApproved validationApproved : Bool) :
    List ModelLifecycleEvent :=
  match state with
  | .trained => certificationPath.take (if trainingApproved then 2 else 1)
  | .validating => certificationPath.take 2
  | .validated => certificationPath.take (if validationApproved then 4 else 3)
  | .emulating => certificationPath.take 4
  | .emulated => certificationPath.take 5
  | .pendingApproval => certificationPath.take 6
  | .approved => certificationPath.take 7
  | .certified | .promoted => certificationPath
  | .registered | .training | .deprecated | .retired | .failed => []

def ModelLifecycle.behind (row : ModelLifecycle) : List ModelLifecycleEvent :=
  Aimgf.behind row.modelLifecycleState row.trainingApproved row.validationApproved

def begun (state : ModelLifecycleState) (trainingApproved validationApproved : Bool) : Bool :=
  state = .training || behind state trainingApproved validationApproved ≠ [] ||
    trainingApproved || validationApproved

def unset (state : ModelLifecycleState) (trainingApproved validationApproved : Bool) : Bool :=
  match state with
  | .training => !trainingApproved && !validationApproved
  | .trained | .validating => !validationApproved
  | _ => true

/-- What a row says of the transitions of its model since the latest CREATE_TRAINING. -/
structure Cycle (row : ModelLifecycle) (history : List LifecycleTransition) : Prop where
  begun : begun row.modelLifecycleState row.trainingApproved row.validationApproved = true →
    ∃ later, Since (·.event = .createTraining) history later
  behind : ∀ later, Since (·.event = .createTraining) history later →
    row.behind.Sublist (later.map (·.event))
  fresh : row.modelLifecycleState = .training → ∀ later,
    Since (·.event = .createTraining) history later → later = []
  training : row.trainingApproved = true → ∀ later,
    Since (·.event = .createTraining) history later → .approveTraining ∈ later.map (·.event)
  validation : row.validationApproved = true → ∀ later,
    Since (·.event = .createTraining) history later → .approveValidation ∈ later.map (·.event)
  unset : unset row.modelLifecycleState row.trainingApproved row.validationApproved = true
  current : ∀ later, Since (·.event = .createTraining) history later → ∀ t ∈ later,
    t.event = .trainingComplete → ∃ id, t.run = some (.training id) ∧ row.trainingJobId = some id

structure Path (db : Database) : Prop where
  cycle : ∀ m, Cycle (db.lifecycle m) (db.history m)
  backed : ∀ t ∈ db.transitions, t.Backed db

section Rows

def flagged (event : ModelLifecycleEvent) (trainingApproved validationApproved : Bool) :
    Bool × Bool :=
  match event with
  | .approveTraining => (true, validationApproved)
  | .approveValidation => (trainingApproved, true)
  | .createTraining => (false, false)
  | _ => (trainingApproved, validationApproved)

theorem flagged_training (row : ModelLifecycle) (event : ModelLifecycleEvent) :
    (row.flagged event).trainingApproved =
      (flagged event row.trainingApproved row.validationApproved).1 := by
  cases event <;> rfl

theorem flagged_validation (row : ModelLifecycle) (event : ModelLifecycleEvent) :
    (row.flagged event).validationApproved =
      (flagged event row.trainingApproved row.validationApproved).2 := by
  cases event <;> rfl

/-- What an edge of the table keeps: the path behind the row grows by the event at most. -/
def KeepsPath (edge : Transition ModelLifecycleState ModelLifecycleEvent) (t v : Bool) : Prop :=
  let flags := flagged edge.event t v
  edge.event ≠ .createTraining →
    (edge.event = .createValidation → t = true) → (edge.event = .createEmulation → v = true) →
    unset edge.fromState t v = true →
    (behind edge.toState flags.1 flags.2).Sublist (behind edge.fromState t v ++ [edge.event]) ∧
    (begun edge.toState flags.1 flags.2 = true → begun edge.fromState t v = true) ∧
    unset edge.toState flags.1 flags.2 = true

instance (edge : Transition ModelLifecycleState ModelLifecycleEvent) (t v : Bool) :
    Decidable (KeepsPath edge t v) :=
  inferInstanceAs (Decidable (edge.event ≠ .createTraining → _))

theorem edges_keep_path : ∀ edge ∈ modelLifecycleFsm.transitions, ∀ t v, KeepsPath edge t v := by
  decide

variable {row : ModelLifecycle} {event : ModelLifecycleEvent} {next : ModelLifecycleState}
variable {history : List LifecycleTransition} {t : LifecycleTransition}

theorem Cycle.start : Cycle {} [] where
  begun is := by cases is
  behind _ since := absurd since Since.not_nil
  fresh _ _ since := absurd since Since.not_nil
  training is := by cases is
  validation is := by cases is
  unset := rfl
  current _ since := absurd since Since.not_nil

theorem Cycle.create (is : t.event = .createTraining) :
    Cycle ({ row with modelLifecycleState := .training }.flagged .createTraining)
      (history ++ [t]) := by
  have empty : ∀ later, Since (·.event = .createTraining) (history ++ [t]) later → later = [] := by
    intro later since
    rcases since.of_snoc with ⟨-, empty⟩ | ⟨other, -⟩
    · exact empty
    · exact absurd is other
  constructor
  · exact fun _ => ⟨[], Since.last is⟩
  · exact fun later since => List.nil_sublist _
  · exact fun _ => empty
  · intro flag
    cases flag
  · intro flag
    cases flag
  · rfl
  · intro later since one mem
    rw [empty later since] at mem
    cases mem

theorem Cycle.fire (cycle : Cycle row history)
    (fires : modelLifecycleFsm.fire row.modelLifecycleState event = .ok next)
    (is : t.event = event) (other : event ≠ .createTraining)
    (approved : event = .createValidation → row.trainingApproved = true)
    (approved' : event = .createEmulation → row.validationApproved = true)
    (current : event = .trainingComplete →
      ∃ id, t.run = some (.training id) ∧ row.trainingJobId = some id) :
    Cycle ({ row with modelLifecycleState := next }.flagged event) (history ++ [t]) := by
  obtain ⟨grows, begins, keeps⟩ :=
    edges_keep_path _ (edge_of_fire fires) _ _ other approved approved' cycle.unset
  have trainingFlag := flagged_training { row with modelLifecycleState := next } event
  have validationFlag := flagged_validation { row with modelLifecycleState := next } event
  rw [← trainingFlag, ← validationFlag] at grows begins keeps
  have goesOn : ∀ later, Since (·.event = .createTraining) (history ++ [t]) later →
      ∃ old, later = old ++ [t] ∧ Since (·.event = .createTraining) history old := by
    intro later since
    rcases since.of_snoc with ⟨creates, -⟩ | ⟨-, old⟩
    · exact absurd (is.symm.trans creates) other
    · exact old
  have mapped : ∀ old : List LifecycleTransition,
      (old ++ [t]).map (·.event) = old.map (·.event) ++ [event] := by simp [is]
  constructor
  · intro began
    rw [flagged_state] at began
    obtain ⟨old, since⟩ := cycle.begun (begins began)
    exact ⟨old ++ [t], since.snoc (is ▸ other)⟩
  · intro later since
    obtain ⟨old, rfl, was⟩ := goesOn later since
    rw [mapped, ModelLifecycle.behind, flagged_state]
    exact grows.trans ((cycle.behind old was).append (List.Sublist.refl _))
  · intro training
    rw [flagged_state] at training
    exact absurd ((training_of_fire fires).1.mp training) other
  · intro flag later since
    obtain ⟨old, rfl, was⟩ := goesOn later since
    rw [mapped]
    by_cases now : event = .approveTraining
    · simp [now]
    · refine List.mem_append_left _ (cycle.training ?_ old was)
      rw [trainingFlag] at flag
      cases event <;> simp_all [flagged]
  · intro flag later since
    obtain ⟨old, rfl, was⟩ := goesOn later since
    rw [mapped]
    by_cases now : event = .approveValidation
    · simp [now]
    · refine List.mem_append_left _ (cycle.validation ?_ old was)
      rw [validationFlag] at flag
      cases event <;> simp_all [flagged]
  · rw [flagged_state]
    exact keeps
  · intro later since one mem completes
    obtain ⟨old, rfl, was⟩ := goesOn later since
    rw [flagged_current]
    rcases List.mem_append.mp mem with earlier | last
    · exact cycle.current old was one earlier completes
    · obtain rfl := List.mem_singleton.mp last
      exact current (is.symm.trans completes)

theorem Cycle.rename (cycle : Cycle row history) (training : row.modelLifecycleState = .training)
    (id : Option JobId) : Cycle { row with trainingJobId := id } history where
  begun := cycle.begun
  behind := cycle.behind
  fresh := cycle.fresh
  training := cycle.training
  validation := cycle.validation
  unset := cycle.unset
  current later since t mem := by
    rw [cycle.fresh training later since] at mem
    cases mem

theorem Cycle.of_certifies {row' : ModelLifecycle} (cycle : Cycle row history)
    (same : Certifies row row') : Cycle row' history := by
  obtain ⟨state, current, training, validation⟩ := same
  constructor
  · rw [state, training, validation]
    exact cycle.begun
  · rw [ModelLifecycle.behind, state, training, validation]
    exact cycle.behind
  · rw [state]
    exact cycle.fresh
  · rw [training]
    exact cycle.training
  · rw [validation]
    exact cycle.validation
  · rw [state, training, validation]
    exact cycle.unset
  · rw [current]
    exact cycle.current

end Rows

section Effects

variable {o : Outside} {db db' : Database} {m : ModelId}

structure Kept (db db' : Database) : Prop where
  training : ∀ (id : Nat) (job : TrainingJob), db.trainingJobs[id]? = some job →
    job.status = .finished → db'.trainingJobs[id]? = some job
  validation : ∀ (id : Nat) (job : ValidationJob), db.validationJobs[id]? = some job →
    job.status = .completed → db'.validationJobs[id]? = some job
  emulation : ∀ (id : Nat) (job : EmulationJob), db.emulationJobs[id]? = some job →
    job.status = .completed → db'.emulationJobs[id]? = some job

theorem LifecycleTransition.Backed.kept {t : LifecycleTransition} (backed : t.Backed db)
    (kept : Kept db db') : t.Backed db' where
  decided := backed.decided
  trained is := by
    obtain ⟨id, job, run, found, its, done⟩ := backed.trained is
    exact ⟨id, job, run, kept.training id job found done, its, done⟩
  validated is := by
    obtain ⟨id, job, run, found, its, done⟩ := backed.validated is
    exact ⟨id, job, run, kept.validation id job found done, its, done⟩
  emulated is := by
    obtain ⟨id, job, run, found, its, done⟩ := backed.emulated is
    exact ⟨id, job, run, kept.emulation id job found done, its, done⟩

theorem Path.start : Path {} where
  cycle _ := Cycle.start
  backed _ mem := absurd mem List.not_mem_nil

theorem Path.of_same (path : Path db) (transitions : db'.transitions = db.transitions)
    (rows : ∀ m, Certifies (db.lifecycle m) (db'.lifecycle m)) (kept : Kept db db') : Path db' where
  cycle m := by
    rw [Database.history, transitions]
    exact (path.cycle m).of_certifies (rows m)
  backed t mem := (path.backed t (transitions ▸ mem)).kept kept

theorem certifies_refl (row : ModelLifecycle) : Certifies row row := ⟨rfl, rfl, rfl, rfl⟩

theorem kept_setTraining {id : JobId} {job : TrainingJob} (next : TrainingJob)
    (found : db.trainingJobs[id]? = some job) (live : job.status.active = true) :
    Kept db (db.setTraining id next) where
  training := by
    refine kept_set found ?_
    intro done
    rw [done] at live
    cases live
  validation _ _ found _ := found
  emulation _ _ found _ := found

theorem Path.fires (path : Path db) {event : ModelLifecycleEvent}
    {decidedBy rationale : Option Str} {run : Option Run}
    (fired : db.fireModelEvent m event decidedBy rationale run = .ok db')
    (cycle : ∀ next t, modelLifecycleFsm.fire (db.state m) event = .ok next → t.event = event →
      t.run = run → Cycle ({ db.lifecycle m with modelLifecycleState := next }.flagged event)
        (db.history m ++ [t]))
    (trained : event = .trainingComplete → ∃ id job, run = some (.training id) ∧
      db.trainingJobs[id]? = some job ∧ job.modelId = some m ∧ job.status = .finished)
    (validated : event = .validationComplete → ∃ id job, run = some (.validation id) ∧
      db.validationJobs[id]? = some job ∧ job.modelId = some m ∧ job.status = .completed)
    (emulated : event = .emulationComplete → ∃ id job, run = some (.emulation id) ∧
      db.emulationJobs[id]? = some job ∧ job.modelId = m ∧ job.status = .completed) : Path db' := by
  obtain ⟨decided, next, fires, rfl⟩ := fireModelEvent_ok fired
  constructor
  · intro n
    simp only [Database.history, List.filter_append]
    by_cases own : n = m
    · subst own
      simpa [Database.setLifecycle, Database.history] using cycle next _ fires rfl rfl
    · simpa [Database.setLifecycle, Database.history, own, Ne.symm own] using path.cycle n
  · intro t mem
    rcases List.mem_append.mp mem with old | new
    · exact (path.backed t old).kept ⟨fun _ _ at_ _ => at_, fun _ _ at_ _ => at_, fun _ _ at_ _ => at_⟩
    · cases List.mem_singleton.mp new
      refine ⟨fun governs => ?_, trained, validated, emulated⟩
      exact ⟨_, if_pos governs, rfl, rfl, decided governs⟩

theorem Path.fire (path : Path db) {event : ModelLifecycleEvent}
    {decidedBy rationale : Option Str} {run : Option Run} (justified : Justified db m run event)
    (fired : db.fireModelEvent m event decidedBy rationale run = .ok db') : Path db' := by
  refine path.fires fired (fun next t fires is _ => ?_) ?_ ?_ ?_
  · refine (path.cycle m).fire fires is ?_ ?_ ?_ ?_
    all_goals
      rintro rfl
      first | exact justified | exact justified.elim
  · rintro rfl
    exact justified.elim
  · rintro rfl
    obtain ⟨id, job, ran, found, done, its⟩ := justified
    exact ⟨id, job, ran, found, its, done⟩
  · rintro rfl
    obtain ⟨id, job, ran, found, done, its⟩ := justified
    exact ⟨id, job, ran, found, its, done⟩

theorem Path.endRun (path : Path db) (live : Live db) {id : JobId} {job next : TrainingJob}
    {event : ModelLifecycleEvent} (found : db.trainingJobs[id]? = some job)
    (active : job.status.active = true) (same : next.modelId = job.modelId)
    (its : job.modelId = some m)
    (how : event = .trainingFailed ∨ event = .trainingComplete ∧ next.status = .finished)
    (fired : (db.setTraining id next).fireModelEvent m event none none
      (some (.training id)) = .ok db') : Path db' := by
  have ended : Path (db.setTraining id next) :=
    path.of_same rfl (fun _ => certifies_refl _) (kept_setTraining next found active)
  have here : id < db.trainingJobs.length := (List.getElem?_eq_some_iff.mp found).1
  refine ended.fires fired (fun state t fires is ran => ?_) (fun is => ?_) ?_ ?_
  · refine (ended.cycle m).fire fires is ?_ ?_ ?_ ?_
    · rcases how with rfl | ⟨rfl, -⟩ <;> exact nofun
    · rcases how with rfl | ⟨rfl, -⟩ <;> exact nofun
    · rcases how with rfl | ⟨rfl, -⟩ <;> exact nofun
    · exact fun _ => ⟨id, ran, (live.alone m id job found its active).2⟩
  · rcases how with rfl | ⟨-, done⟩
    · cases is
    · exact ⟨id, next, rfl, List.getElem?_set_self here, same.trans its, done⟩
  · rcases how with rfl | ⟨rfl, -⟩ <;> exact nofun
  · rcases how with rfl | ⟨rfl, -⟩ <;> exact nofun

theorem kept_addTraining (job : TrainingJob) : Kept db (db.addTraining job) where
  training _ _ found _ := by
    rw [← found]
    exact List.getElem?_append_left (List.getElem?_eq_some_iff.mp found).1
  validation _ _ found _ := found
  emulation _ _ found _ := found

theorem kept_supersede : Kept db (db.supersede m) := by
  have same : Kept db db := ⟨fun _ _ at_ _ => at_, fun _ _ at_ _ => at_, fun _ _ at_ _ => at_⟩
  unfold Database.supersede
  split
  · exact same
  · split
    · exact same
    · next found =>
      split
      · next running => exact kept_setTraining _ found (by rw [running]; rfl)
      · exact same

theorem Path.rename (path : Path db) (training : db.state m = .training) (id : Option JobId) :
    Path (db.setLifecycle m { db.lifecycle m with trainingJobId := id }) where
  cycle n := by
    by_cases own : n = m
    · subst own
      rw [lifecycle_setLifecycle_self]
      exact (path.cycle n).rename training id
    · rw [lifecycle_setLifecycle_of_ne _ own]
      exact path.cycle n
  backed t mem := (path.backed t mem).kept
    ⟨fun _ _ at_ _ => at_, fun _ _ at_ _ => at_, fun _ _ at_ _ => at_⟩

theorem Path.effect (path : Path db) (live : Live db) (effect : Effect db db') : Path db' := by
  have same : Kept db db := ⟨fun _ _ at_ _ => at_, fun _ _ at_ _ => at_, fun _ _ at_ _ => at_⟩
  cases effect with
  | updates => exact path.of_same rfl (fun _ => certifies_refl _) ⟨same.1, same.2, same.3⟩
  | runtime modelId row state current training validation =>
    refine path.of_same rfl (fun n => ?_) ⟨same.1, same.2, same.3⟩
    by_cases own : n = modelId
    · subst own
      rw [lifecycle_setLifecycle_self]
      exact ⟨state, current, training, validation⟩
    · rw [lifecycle_setLifecycle_of_ne _ own]
      exact certifies_refl _
  | validations jobs kept =>
    exact path.of_same rfl (fun _ => certifies_refl _) ⟨same.1, kept, same.3⟩
  | emulations jobs kept =>
    exact path.of_same rfl (fun _ => certifies_refl _) ⟨same.1, same.2, kept⟩
  | fire justified fired => exact path.fire justified fired
  | pause next found active =>
    exact path.of_same rfl (fun _ => certifies_refl _) (kept_setTraining next found active)
  | endGroup next found active =>
    exact path.of_same rfl (fun _ => certifies_refl _) (kept_setTraining next found active)
  | endRun next found active ended tornDown sameModel its how fired =>
    exact path.endRun live found active sameModel its how fired
  | startGroup job => exact path.of_same rfl (fun _ => certifies_refl _) (kept_addTraining job)
  | @start fired modelId job starts its unsuspended how =>
    have added : Path (db.addTraining job) :=
      path.of_same rfl (fun _ => certifies_refl _) (kept_addTraining job)
    rcases how with ⟨training, rfl⟩ | creates
    · have superseded : Path ((db.addTraining job).supersede modelId) := by
        refine added.of_same ?_ (fun n => ?_) kept_supersede
        · unfold Database.supersede
          split
          · rfl
          · split
            · rfl
            · split <;> rfl
        · rw [supersede_lifecycle]
          exact certifies_refl _
      refine superseded.rename ?_ _
      rw [Database.state, supersede_lifecycle]
      exact training
    · have began : Path fired := by
        refine added.fires creates (fun next t fires is _ => ?_) (fun other => ?_) (fun other => ?_)
          (fun other => ?_)
        rotate_left
        · cases other
        · cases other
        · cases other
        have training := (training_of_fire fires).1.mpr rfl
        subst training
        exact Cycle.create is
      refine began.rename ?_ _
      exact (training_of_fire (fireModelEvent_frame creates).2.2.2).1.mpr rfl

theorem Path.effects (path : Path db) (live : Live db) (effects : Effects db db') : Path db' := by
  induction effects with
  | refl => exact path
  | tail earlier effect ih => exact ih.effect (live.effects earlier) effect

end Effects

theorem sublist_of_events {later : List LifecycleTransition} {events : List ModelLifecycleEvent}
    (passed : events.Sublist (later.map (·.event))) :
    ∃ items : List LifecycleTransition, items.Sublist later ∧ items.map (·.event) = events := by
  obtain ⟨items, sub, is⟩ := List.sublist_map_iff.mp passed
  exact ⟨items, sub, is.symm⟩

theorem Path.certificationPath {db : Database} (path : Path db) : CertificationPath db := by
  have mine : ∀ {m later t}, SinceTraining db m later → t ∈ later →
      t.modelId = m ∧ t.Backed db := by
    rintro m later t ⟨earlier, first, same, -⟩ mem
    have there : t ∈ db.history m := by
      rw [same]
      exact List.mem_append_right _ (List.mem_cons_of_mem _ mem)
    obtain ⟨there, its⟩ := List.mem_filter.mp there
    exact ⟨by simpa using its, path.backed t there⟩
  have fresh : ∀ {m event}, begun (db.state m) (db.lifecycle m).trainingApproved
      (db.lifecycle m).validationApproved = true →
      (∀ later, SinceTraining db m later → event ∈ later.map (·.event)) → Fresh db m event := by
    intro m event began passed
    obtain ⟨later, since⟩ := (path.cycle m).begun began
    obtain ⟨t, mem, is⟩ := List.mem_map.mp (passed later since)
    exact ⟨later, since, t, mem, is, (mine since mem).2⟩
  constructor
  · intro m cleared
    have whole : (db.lifecycle m).behind = Aimgf.certificationPath := by
      have cases : db.state m = .certified ∨ db.state m = .promoted := by
        simpa [ModelLifecycleState.cleared] using cleared
      unfold Database.state at cases
      rcases cases with is | is <;> simp [ModelLifecycle.behind, behind, is]
    have began : begun (db.state m) (db.lifecycle m).trainingApproved
        (db.lifecycle m).validationApproved = true := by
      have nonempty : (db.lifecycle m).behind ≠ [] := by
        rw [whole]
        decide
      simp only [begun, Bool.or_eq_true, decide_eq_true_eq]
      exact .inl (.inl (.inr nonempty))
    obtain ⟨later, since⟩ := (path.cycle m).begun began
    obtain ⟨passed, sub, events⟩ := sublist_of_events (whole ▸ (path.cycle m).behind later since)
    have completed : ∃ t ∈ passed, t.event = .trainingComplete := by
      have first : ModelLifecycleEvent.trainingComplete ∈ passed.map (·.event) := by
        rw [events]
        decide
      obtain ⟨t, mem, is⟩ := List.mem_map.mp first
      exact ⟨t, mem, is⟩
    obtain ⟨t, mem, is⟩ := completed
    obtain ⟨id, ran, names⟩ := (path.cycle m).current later since t (sub.subset mem) is
    obtain ⟨id', job, ran', found, -, done⟩ := (mine since (sub.subset mem)).2.trained is
    cases ran.symm.trans ran'
    refine ⟨later, since, ⟨passed, sub, events, fun t mem => mine since (sub.subset mem)⟩,
      id, job, names, found, done, fun t mem is => ?_⟩
    obtain ⟨other, ran, names'⟩ := (path.cycle m).current later since t mem is
    cases names.symm.trans names'
    exact ran
  · exact fun m flag => fresh (by simp [begun, flag]) ((path.cycle m).training flag)
  · exact fun m flag => fresh (by simp [begun, flag]) ((path.cycle m).validation flag)

/-- In every run in which no run is asked for a model whose current run is suspended, a certified
model was trained, tested and approved in the cycle that it is in. -/
theorem certification_path {trace : List (Runs.Step Database Transaction)} {db : Database}
    (run : Runs.Run Step {} trace db) (resumed : ∀ t ∈ trace, Resumed t.before t.label) :
    CertificationPath db := by
  have both := run.invariant_of_guarded (fun db => Live db ∧ Path db) Resumed
    ⟨Live.start, Path.start⟩
    (fun db t db' ⟨live, path⟩ resumed taken => by
      subst taken
      have effects := live.serve_effects resumed
      exact ⟨live.effects effects, path.effects live effects⟩)
    resumed
  exact both.2.certificationPath

def operator (event : ModelLifecycleEvent) : Transaction :=
  ⟨known, .advance false 1 event (some "operator".toList) none, false⟩

def tested : List Transaction :=
  [operator .approveTraining,
   ⟨known, .startValidation { modelId := some 1, producerId := "rapp-1".toList }, false⟩,
   ⟨known, .completeValidation 0 true, false⟩, operator .approveValidation,
   ⟨known, .requestEmulation { modelId := 1, producerId := "rapp-1".toList }, false⟩,
   ⟨known, .completeEmulation 0 true, false⟩, operator .submitForApproval, operator .approve,
   operator .certify]

def certifies : List Transaction :=
  [⟨known, trainModel, false⟩, ⟨known, trainModel, false⟩, ⟨known, .completeTraining 1 true, false⟩] ++
    tested

theorem certifies_path : CertificationPath (certifies.foldl serve {}) :=
  certification_path (Runs.run_follow fun _ _ _ => rfl) (by decide)

/-- A suspended run that was superseded is resumed and completed while the other is the current. -/
def certifiesStale : List Transaction :=
  supersededSuspended ++ [⟨known, .resumeTraining 0, false⟩, ⟨known, .completeTraining 0 true, false⟩] ++
    tested

/-- The model is certified on the result of a run that its row does not name, and the run that it
names goes on. -/
theorem stale_run_certifies : ¬ ∀ (trace : List (Runs.Step Database Transaction)) (db : Database),
    Runs.Run Step {} trace db → CertificationPath db := by
  intro always
  have path := always _ _ (@Runs.run_follow _ _ Step serve {} certifiesStale fun _ _ _ => rfl)
  obtain ⟨later, since, passed, id, job, names, found, done, -⟩ := path.certified 1 (by decide)
  cases names
  cases found
  cases done

end Smo.Aimgf
