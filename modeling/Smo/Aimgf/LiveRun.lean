import Smo.Aimgf.Effects
import Smo.Lib.Runs
import Smo.Lib.Table

/-! One live training run for each model: a model is in training exactly while the run that its row
names is live, and none of its other runs is. -/
namespace Smo.Aimgf

open Relation (ReflTransGen)
open Table (set_cases append_cases)

structure Live (db : Database) : Prop where
  named : ∀ (m : ModelId) (id : JobId), (db.lifecycle m).trainingJobId = some id →
    ∃ job, db.trainingJobs[id]? = some job ∧ job.modelId = some m
  current : ∀ m : ModelId, db.state m = .training → ∃ id job,
    (db.lifecycle m).trainingJobId = some id ∧ db.trainingJobs[id]? = some job ∧
      job.status.active = true
  alone : ∀ (m : ModelId) (id : JobId) (job : TrainingJob), db.trainingJobs[id]? = some job →
    job.modelId = some m → job.status.active = true →
      db.state m = .training ∧ (db.lifecycle m).trainingJobId = some id
  tornDown : ∀ job ∈ db.trainingJobs, job.status.ended = true → job.nfDeploymentId = none

section Effects

variable {o : Outside} {db db' : Database} {id : JobId} {job next : TrainingJob} {m : ModelId}

variable {status : TrainingStatus} {n : ModelId} {event : ModelLifecycleEvent}
  {decidedBy rationale : Option Str} {run : Option Run} {cancel suspend : Option Bool} {α : Type}
  {body : TrainingRequest} {processId : Option Nat} {source : Str} {modelIds : List ModelId}

theorem TrainingStatus.not_ended (active : status.active = true) : status.ended = false := by
  cases status <;> first | rfl | cases active

theorem TrainingStatus.not_active (ended : status.ended = true) : status.active = false := by
  cases status <;> first | rfl | cases ended

theorem Live.start : Live {} where
  named _ _ is := by cases is
  current _ is := by cases is
  alone _ _ _ found := by simp at found
  tornDown _ mem := absurd mem List.not_mem_nil

theorem Live.of_same (live : Live db) (jobs : db'.trainingJobs = db.trainingJobs)
    (state : ∀ m, db'.state m = .training ↔ db.state m = .training)
    (current : ∀ m, (db'.lifecycle m).trainingJobId = (db.lifecycle m).trainingJobId) :
    Live db' where
  named m id is := by
    rw [jobs]
    exact live.named m id (current m ▸ is)
  current m is := by
    rw [jobs, current]
    exact live.current m ((state m).mp is)
  alone m id job found its active := by
    rw [jobs] at found
    rw [current, state]
    exact live.alone m id job found its active
  tornDown job mem := live.tornDown job (jobs ▸ mem)

theorem Live.pause (live : Live db) (found : db.trainingJobs[id]? = some job)
    (active : job.status.active = true) (lives : next.status.active = true)
    (same : next.modelId = job.modelId) : Live (db.setTraining id next) := by
  have here : id < db.trainingJobs.length := (List.getElem?_eq_some_iff.mp found).1
  have mine : (db.trainingJobs.set id next)[id]? = some next := List.getElem?_set_self here
  have others : ∀ other, other ≠ id → (db.trainingJobs.set id next)[other]? = db.trainingJobs[other]? :=
    fun other differs => List.getElem?_set_ne differs.symm
  constructor
  · intro m other is
    obtain ⟨old, at_, its⟩ := live.named m other is
    by_cases differs : other = id
    · subst differs
      cases found.symm.trans at_
      exact ⟨next, mine, same.trans its⟩
    · exact ⟨old, (others other differs).trans at_, its⟩
  · intro m is
    obtain ⟨other, old, names, at_, activeOld⟩ := live.current m is
    by_cases differs : other = id
    · subst differs
      exact ⟨other, next, names, mine, lives⟩
    · exact ⟨other, old, names, (others other differs).trans at_, activeOld⟩
  · intro m other row at_ its activeRow
    rcases set_cases at_ with ⟨rfl, rfl⟩ | ⟨-, was⟩
    · exact live.alone m other job found (same ▸ its) active
    · exact live.alone m other row was its activeRow
  · intro row mem ended
    rcases Table.mem_set_cases mem with rfl | ⟨other, -, at_⟩
    · rw [TrainingStatus.not_ended lives] at ended
      cases ended
    · exact live.tornDown row (List.mem_of_getElem? at_) ended

theorem Live.ends (live : Live db) (found : db.trainingJobs[id]? = some job)
    (active : job.status.active = true) (ended : next.status.ended = true)
    (tornDown : next.nfDeploymentId = none) (same : next.modelId = job.modelId)
    (jobs : db'.trainingJobs = db.trainingJobs.set id next)
    (left : ∀ m, job.modelId = some m → db'.state m ≠ .training)
    (other : ∀ m, job.modelId ≠ some m → db'.state m = db.state m)
    (current : ∀ m, (db'.lifecycle m).trainingJobId = (db.lifecycle m).trainingJobId) :
    Live db' := by
  have here : id < db.trainingJobs.length := (List.getElem?_eq_some_iff.mp found).1
  have mine : (db.trainingJobs.set id next)[id]? = some next := List.getElem?_set_self here
  have others : ∀ j, j ≠ id → (db.trainingJobs.set id next)[j]? = db.trainingJobs[j]? :=
    fun j differs => List.getElem?_set_ne differs.symm
  constructor
  · intro m j is
    obtain ⟨old, at_, its⟩ := live.named m j (current m ▸ is)
    rw [jobs]
    by_cases differs : j = id
    · subst differs
      cases found.symm.trans at_
      exact ⟨next, mine, same.trans its⟩
    · exact ⟨old, (others j differs).trans at_, its⟩
  · intro m is
    by_cases its : job.modelId = some m
    · exact absurd is (left m its)
    · rw [other m its] at is
      obtain ⟨j, old, names, at_, activeOld⟩ := live.current m is
      rw [jobs, current]
      refine ⟨j, old, names, ?_, activeOld⟩
      rw [others j, at_]
      rintro rfl
      obtain ⟨row, at_', its'⟩ := live.named m j names
      cases found.symm.trans at_'
      exact its its'
  · intro m j row at_ its activeRow
    rw [jobs] at at_
    rcases set_cases at_ with ⟨rfl, rfl⟩ | ⟨differs, was⟩
    · rw [TrainingStatus.not_active ended] at activeRow
      cases activeRow
    · obtain ⟨training, names⟩ := live.alone m j row was its activeRow
      have apart : job.modelId ≠ some m := by
        intro its'
        have names' := (live.alone m id job found its' active).2
        exact differs (Option.some.inj (names.symm.trans names'))
      rw [other m apart, current]
      exact ⟨training, names⟩
  · intro row mem rowEnded
    rw [jobs] at mem
    rcases Table.mem_set_cases mem with rfl | ⟨j, -, at_⟩
    · exact tornDown
    · exact live.tornDown row (List.mem_of_getElem? at_) rowEnded

theorem Live.begins (live : Live db) (old : List TrainingJob)
    (jobs : db'.trainingJobs = old ++ [job]) (length : old.length = db.trainingJobs.length)
    (rows : ∀ (id : Nat) (row : TrainingJob), old[id]? = some row →
      db.trainingJobs[id]? = some row ∨ row.status.ended = true ∧ row.nfDeploymentId = none)
    (kept : ∀ (id : Nat) (was : TrainingJob), db.trainingJobs[id]? = some was →
      ∃ row, old[id]? = some row ∧ row.modelId = was.modelId ∧ (was.modelId ≠ some m → row = was))
    (idle : ∀ (id : Nat) (row : TrainingJob), old[id]? = some row → row.modelId = some m →
      row.status.active = false)
    (its : job.modelId = some m) (active : job.status.active = true)
    (training : db'.state m = .training)
    (names : (db'.lifecycle m).trainingJobId = some db.trainingJobs.length)
    (others : ∀ n, n ≠ m → db'.lifecycle n = db.lifecycle n) : Live db' := by
  have mine : (old ++ [job])[db.trainingJobs.length]? = some job := by simp [← length]
  have early : ∀ {id : Nat} {row : TrainingJob}, old[id]? = some row →
      (old ++ [job])[id]? = some row := fun {id row} at_ => by
    rw [List.getElem?_append_left (List.getElem?_eq_some_iff.mp at_).1, at_]
  constructor
  · intro n id is
    rw [jobs]
    by_cases own : n = m
    · subst own
      obtain rfl := Option.some.inj (names.symm.trans is)
      exact ⟨job, mine, its⟩
    · rw [others n own] at is
      obtain ⟨was, at_, owner⟩ := live.named n id is
      obtain ⟨row, at_, same, -⟩ := kept id was at_
      exact ⟨row, early at_, same.trans owner⟩
  · intro n is
    rw [jobs]
    by_cases own : n = m
    · subst own
      exact ⟨_, job, names, mine, active⟩
    · rw [Database.state, others n own] at is
      obtain ⟨id, was, name, at_, activeWas⟩ := live.current n is
      obtain ⟨named, at_', owner⟩ := live.named n id name
      cases at_.symm.trans at_'
      obtain ⟨row, stays, same, whole⟩ := kept id was at_
      obtain rfl := whole (by rw [owner]; exact fun is => own (Option.some.inj is))
      rw [others n own]
      exact ⟨id, row, name, early stays, activeWas⟩
  · intro n id row at_ owner activeRow
    rw [jobs] at at_
    rcases append_cases at_ with ⟨rfl, rfl⟩ | was
    · obtain rfl := Option.some.inj (its.symm.trans owner)
      exact ⟨training, names.trans (by rw [length])⟩
    · have apart : n ≠ m := by
        rintro rfl
        rw [idle id row was owner] at activeRow
        cases activeRow
      rcases rows id row was with same | ⟨ended, -⟩
      · rw [Database.state, others n apart]
        exact live.alone n id row same owner activeRow
      · rw [TrainingStatus.not_active ended] at activeRow
        cases activeRow
  · intro row mem ended
    rw [jobs] at mem
    rcases List.mem_append.mp mem with old | new
    · obtain ⟨id, at_⟩ := List.mem_iff_getElem?.mp old
      rcases rows id row at_ with same | ⟨-, tornDown⟩
      · exact live.tornDown row (List.mem_of_getElem? same) ended
      · exact tornDown
    · cases List.mem_singleton.mp new
      rw [TrainingStatus.not_ended active] at ended
      cases ended

theorem Live.startGroup (live : Live db) (active : job.status.active = true)
    (group : job.modelId = none) : Live (db.addTraining job) := by
  have early : ∀ {id : Nat} {row : TrainingJob}, db.trainingJobs[id]? = some row →
      (db.trainingJobs ++ [job])[id]? = some row := fun {id row} at_ => by
    rw [List.getElem?_append_left (List.getElem?_eq_some_iff.mp at_).1, at_]
  constructor
  · intro m id is
    obtain ⟨row, at_, its⟩ := live.named m id is
    exact ⟨row, early at_, its⟩
  · intro m is
    obtain ⟨id, row, names, at_, activeRow⟩ := live.current m is
    exact ⟨id, row, names, early at_, activeRow⟩
  · intro m id row at_ its activeRow
    rcases append_cases at_ with ⟨-, rfl⟩ | was
    · cases group.symm.trans its
    · exact live.alone m id row was its activeRow
  · intro row mem ended
    rcases List.mem_append.mp mem with old | new
    · exact live.tornDown row old ended
    · cases List.mem_singleton.mp new
      rw [TrainingStatus.not_ended active] at ended
      cases ended

@[simp] theorem lifecycle_setLifecycle_self (row : ModelLifecycle) :
    (db.setLifecycle m row).lifecycle m = row := Function.update_self ..

theorem lifecycle_setLifecycle_of_ne (row : ModelLifecycle) (apart : n ≠ m) :
    (db.setLifecycle m row).lifecycle n = db.lifecycle n := Function.update_of_ne apart ..

@[simp] theorem flagged_state (row : ModelLifecycle) (event : ModelLifecycleEvent) :
    (row.flagged event).modelLifecycleState = row.modelLifecycleState := by cases event <;> rfl

@[simp] theorem flagged_current (row : ModelLifecycle) (event : ModelLifecycleEvent) :
    (row.flagged event).trainingJobId = row.trainingJobId := by cases event <;> rfl

theorem fireModelEvent_frame (fired : db.fireModelEvent m event decidedBy rationale run = .ok db') :
    db'.trainingJobs = db.trainingJobs ∧ (∀ n, n ≠ m → db'.lifecycle n = db.lifecycle n) ∧
      (db'.lifecycle m).trainingJobId = (db.lifecycle m).trainingJobId ∧
      modelLifecycleFsm.fire (db.state m) event = .ok (db'.state m) := by
  obtain ⟨-, next, fires, rfl⟩ := fireModelEvent_ok fired
  refine ⟨rfl, fun n apart => lifecycle_setLifecycle_of_ne _ apart, ?_, ?_⟩
  · simp [Database.setLifecycle]
  · simpa [Database.state, Database.setLifecycle] using fires

theorem Live.fire (live : Live db) (justified : Justified db m run event)
    (fired : db.fireModelEvent m event decidedBy rationale run = .ok db') : Live db' := by
  obtain ⟨jobs, others, names, fires⟩ := fireModelEvent_frame fired
  obtain ⟨enters, leaves⟩ := training_of_fire fires
  refine live.of_same jobs (fun n => ?_) fun n => ?_
  · by_cases own : n = m
    · subst own
      rw [enters, leaves]
      cases event <;> simp [Justified] at justified ⊢
    · rw [Database.state, others n own, Database.state]
  · by_cases own : n = m
    · exact own ▸ names
    · rw [others n own]

theorem Live.endRun (live : Live db) (found : db.trainingJobs[id]? = some job)
    (active : job.status.active = true) (ended : next.status.ended = true)
    (tornDown : next.nfDeploymentId = none) (same : next.modelId = job.modelId)
    (its : job.modelId = some m)
    (how : event = .trainingFailed ∨ event = .trainingComplete ∧ next.status = .finished)
    (fired : (db.setTraining id next).fireModelEvent m event none none
      (some (.training id)) = .ok db') : Live db' := by
  obtain ⟨jobs, others, names, fires⟩ := fireModelEvent_frame fired
  have enters := (training_of_fire fires).1
  refine live.ends found active ended tornDown same jobs (fun n own => ?_) (fun n apart => ?_)
    fun n => ?_
  · obtain rfl := Option.some.inj (its.symm.trans own)
    rw [Ne, enters]
    rcases how with rfl | ⟨rfl, -⟩ <;> exact nofun
  · rw [Database.state, others n (fun is => apart (is ▸ its))]
    rfl
  · by_cases own : n = m
    · exact own ▸ names
    · rw [others n own]
      rfl

theorem Live.idle (live : Live db) (elsewhere : db.state m ≠ .training)
    (found : db.trainingJobs[id]? = some job) (its : job.modelId = some m) :
    job.status.active = false := by
  by_contra active
  exact elsewhere (live.alone m id job found its (by simpa using active)).1

theorem Live.supersedes (live : Live db) (active : job.status.active = true)
    (its : job.modelId = some m) (unsuspended : Unsuspended db m) (training : db.state m = .training) :
    Live (((db.addTraining job).supersede m).setLifecycle m
      { ((db.addTraining job).supersede m).lifecycle m with
        trainingJobId := some db.trainingJobs.length }) := by
  obtain ⟨current, was, names, found, activeWas⟩ := live.current m training
  have here : current < db.trainingJobs.length := (List.getElem?_eq_some_iff.mp found).1
  have running : was.status = .inProgress := by
    have := unsuspended training current names was found
    cases is : was.status <;> simp_all [TrainingStatus.active]
  have owner : was.modelId = some m := by
    obtain ⟨row, at_, owner⟩ := live.named m current names
    cases found.symm.trans at_
    exact owner
  have superseded : (db.addTraining job).supersede m =
      { db with trainingJobs := db.trainingJobs.set current (was.close .cancelled) ++ [job] } := by
    have at_ : (db.trainingJobs ++ [job])[current]? = some was := by
      rw [List.getElem?_append_left here, found]
    have lifecycle : (db.addTraining job).lifecycle m = db.lifecycle m := rfl
    have jobs : (db.addTraining job).trainingJobs = db.trainingJobs ++ [job] := rfl
    simp only [Database.supersede, lifecycle, names, jobs, at_, running, if_true]
    simp only [Database.setTraining, Database.addTraining, List.set_append_left _ _ here]
  rw [superseded]
  refine live.begins (db.trainingJobs.set current (was.close .cancelled)) rfl
    List.length_set (fun id row at_ => ?_) (fun id row at_ => ?_) (fun id row at_ owned => ?_)
    its active ?_ ?_ ?_
  · rcases set_cases at_ with ⟨-, rfl⟩ | ⟨-, old⟩
    · exact .inr ⟨rfl, rfl⟩
    · exact .inl old
  · by_cases own : id = current
    · subst own
      cases found.symm.trans at_
      refine ⟨_, List.getElem?_set_self here, rfl, fun apart => absurd owner apart⟩
    · exact ⟨row, by rw [List.getElem?_set_ne (Ne.symm own), at_], rfl, fun _ => rfl⟩
  · rcases set_cases at_ with ⟨-, rfl⟩ | ⟨differs, old⟩
    · rfl
    · by_contra activeRow
      have names' := (live.alone m id row old owned (by simpa using activeRow)).2
      exact differs (Option.some.inj (names'.symm.trans names))
  · simpa [Database.state] using training
  · simp
  · exact fun n apart => lifecycle_setLifecycle_of_ne _ apart

theorem Live.creates (live : Live db) {fired : Database} (active : job.status.active = true)
    (its : job.modelId = some m)
    (creates : (db.addTraining job).fireModelEvent m .createTraining none none none = .ok fired) :
    Live (fired.setLifecycle m
      { fired.lifecycle m with trainingJobId := some db.trainingJobs.length }) := by
  obtain ⟨jobs, others, -, fires⟩ := fireModelEvent_frame creates
  obtain ⟨enters, leaves⟩ := training_of_fire fires
  have elsewhere : db.state m ≠ .training := fun training => by simpa using leaves.mp training
  refine live.begins db.trainingJobs jobs rfl (fun _ _ at_ => .inl at_)
    (fun id row at_ => ⟨row, at_, rfl, fun _ => rfl⟩)
    (fun id row at_ owned => live.idle elsewhere at_ owned) its active ?_ ?_ ?_
  · have training : fired.state m = .training := enters.mpr rfl
    simpa [Database.state] using training
  · simp
  · intro n apart
    rw [lifecycle_setLifecycle_of_ne _ apart, others n apart]
    rfl

theorem Live.effect (live : Live db) (effect : Effect db db') : Live db' := by
  cases effect with
  | updates | validations | emulations =>
    exact live.of_same rfl (fun _ => Iff.rfl) fun _ => rfl
  | runtime modelId row state current =>
    refine live.of_same rfl (fun n => ?_) fun n => ?_
    · by_cases own : n = modelId
      · subst own
        simp [Database.state] at state ⊢
        rw [state]
      · rw [Database.state, lifecycle_setLifecycle_of_ne _ own, Database.state]
    · by_cases own : n = modelId
      · subst own
        simpa using current
      · rw [lifecycle_setLifecycle_of_ne _ own]
  | fire justified fired => exact live.fire justified fired
  | pause next found active lives same => exact live.pause found active lives same
  | endGroup next found active ended tornDown same group =>
    refine live.ends found active ended tornDown same rfl (fun m its => ?_) (fun _ _ => rfl)
      fun _ => rfl
    cases group.symm.trans its
  | endRun next found active ended tornDown same its how fired =>
    exact live.endRun found active ended tornDown same its how fired
  | startGroup job starts group => exact live.startGroup (by rw [starts]; rfl) group
  | start job starts its unsuspended how =>
    have active : job.status.active = true := by rw [starts]; rfl
    rcases how with ⟨training, rfl⟩ | creates
    · exact live.supersedes active its unsuspended training
    · exact live.creates active its creates

theorem Live.effects (live : Live db) (effects : Effects db db') : Live db' := by
  induction effects with
  | refl => exact live
  | tail _ effect ih => exact ih.effect effect

theorem trainingFailed_fires (training : db.state m = .training) (run : Option Run) :
    ∃ fired, db.fireModelEvent m .trainingFailed none none run = .ok fired := by
  have fires : modelLifecycleFsm.fire (db.state m) .trainingFailed = .ok .failed := by
    rw [training]
    rfl
  simp only [Database.fireModelEvent, ModelLifecycle.fireModel, Database.state] at fires ⊢
  rw [fires]
  exact ⟨_, rfl⟩

theorem Live.close_effects (live : Live db) (next : TrainingJob)
    (found : db.trainingJobs[id]? = some job)
    (active : job.status.active = true) (ended : next.status.ended = true)
    (tornDown : next.nfDeploymentId = none) (same : next.modelId = job.modelId) :
    Effects db ((db.setTraining id next).fireIfLegal job.modelId .trainingFailed (.training id)) := by
  unfold Database.fireIfLegal
  split
  · next group => exact .single (.endGroup next found active ended tornDown same group)
  · next modelId its =>
    have training : (db.setTraining id next).state modelId = .training :=
      (live.alone modelId id job found its active).1
    obtain ⟨fired, fires⟩ := trainingFailed_fires training (some (.training id))
    rw [fires]
    exact .single (.endRun next found active ended tornDown same its (.inl rfl) fires)

theorem Live.closeCancelled_effects (live : Live db) (found : db.trainingJobs[id]? = some job)
    (active : job.status.active = true) : Effects db (db.closeCancelled id job) := by
  have close := live.close_effects { job.close .cancelled with cancelRequest := true } found active
    rfl rfl rfl
  unfold Database.closeCancelled Database.releaseTrainingModel
  cases its : job.modelId with
  | none => simpa only [its, Database.fireIfLegal] using close
  | some modelId =>
    have names : ((db.setTraining id { job.close .cancelled with
        cancelRequest := true }).lifecycle modelId).trainingJobId = some id :=
      (live.alone modelId id job found its active).2
    simpa only [its, names, if_true] using close

theorem Live.cancelTrainingJob_effects (live : Live db) (found : db.trainingJobs[id]? = some job)
    (active : job.status.active = true) : Effects db (db.cancelTrainingJob id job) :=
  (live.closeCancelled_effects found active).trans (advanceUpdateOf_effects job)

theorem completeTraining_effects {succeeded : Bool}
    (completed : db.completeTraining id succeeded = .ok db') : Effects db db' := by
  unfold Database.completeTraining at completed
  split at completed
  · cases completed
  · next job found =>
    split at completed
    · cases completed
    · next live =>
      have active : job.status.active = true := by simpa using live
      obtain ⟨fired, fires, completed⟩ := bind_ok completed
      cases completed
      have ended : (if succeeded then TrainingStatus.finished else .failed).ended = true := by
        cases succeeded <;> rfl
      refine ReflTransGen.trans ?_ (advanceUpdateOf_effects job)
      split at fires
      · next group =>
        cases fires
        exact .single (.endGroup _ found active ended rfl rfl group)
      · next modelId its =>
        refine .single (.endRun (job.close _) found active ended rfl rfl its ?_ fires)
        cases succeeded
        · exact .inl rfl
        · exact .inr ⟨rfl, rfl⟩

theorem suspendTrainingJob_effects (found : db.trainingJobs[id]? = some job)
    (running : job.status = .inProgress) : Effects db (db.suspendTrainingJob id job) :=
  .single (.pause _ found (by rw [running]; rfl) rfl rfl)

theorem resumeTrainingJob_effects (found : db.trainingJobs[id]? = some job)
    (suspended : job.status = .suspended) : Effects db (db.resumeTrainingJob o id job) :=
  .single (.pause _ found (by rw [suspended]; rfl) rfl rfl)

theorem Live.cancelTraining_effects (live : Live db)
    (cancelled : db.cancelTraining id = .ok db') : Effects db db' := by
  unfold Database.cancelTraining at cancelled
  split at cancelled
  · cases cancelled
    exact .refl
  · next job found =>
    split at cancelled
    · cases cancelled
      exact .refl
    · split at cancelled
      · cases cancelled
      · next active =>
        cases cancelled
        exact live.cancelTrainingJob_effects found (by simpa using active)

theorem Live.deleteMlTrainingRequest_effects (live : Live db) :
    Effects db (db.deleteMlTrainingRequest id) := by
  unfold Database.deleteMlTrainingRequest
  split
  · exact .refl
  · next job found =>
    split
    · next active => exact live.cancelTrainingJob_effects found active
    · exact .refl

theorem suspendTraining_effects (suspended : db.suspendTraining id = .ok db') : Effects db db' := by
  unfold Database.suspendTraining at suspended
  split at suspended
  · cases suspended
  · next job found =>
    split at suspended <;> cases suspended
    next running => exact suspendTrainingJob_effects found running

theorem resumeTraining_effects (resumed : db.resumeTraining o id = .ok db') : Effects db db' := by
  unfold Database.resumeTraining at resumed
  split at resumed
  · cases resumed
  · next job found =>
    split at resumed <;> cases resumed
    next suspended => exact resumeTrainingJob_effects found suspended

theorem Live.applyTrainingFlags_effects (live : Live db) (found : db.trainingJobs[id]? = some job)
    (applied : db.applyTrainingFlags o id job cancel suspend = .ok db') : Effects db db' := by
  unfold Database.applyTrainingFlags at applied
  split at applied
  · split at applied
    · cases applied
    · next active =>
      cases applied
      exact live.cancelTrainingJob_effects found (by simpa using active)
  · split at applied
    · split at applied <;> cases applied
      next running => exact suspendTrainingJob_effects found running
    · split at applied <;> cases applied
      · next resumed => exact resumeTrainingJob_effects found resumed.2
      · exact .refl

theorem Live.modifyMlTrainingRequest_effects (live : Live db)
    (modified : db.modifyMlTrainingRequest o id cancel suspend = .ok db') : Effects db db' := by
  unfold Database.modifyMlTrainingRequest at modified
  split at modified
  · cases modified
  · next job found => exact live.applyTrainingFlags_effects found modified

theorem Live.expireTraining_effects (live : Live db) : Effects db (db.expireTraining o id) := by
  unfold Database.expireTraining
  split
  · exact .refl
  · next job found =>
    split
    · next late =>
      have active : job.status.active = true := by rw [late.1]; rfl
      have close := live.close_effects (job.close .failed) found active rfl rfl rfl
      exact close.trans (advanceUpdateOf_effects job)
    · exact .refl

theorem Live.foldl_effects {act : Database → α → Database} (live : Live db) (items : List α)
    (each : ∀ db item, Live db → Effects db (act db item)) : Effects db (items.foldl act db) := by
  induction items generalizing db with
  | nil => exact .refl
  | cons item items ih =>
    have first := each db item live
    exact first.trans (ih (live.effects first))

theorem Live.foldlM_effects {act : Database → α → Answer Database} (live : Live db) (items : List α)
    (each : ∀ db item db', Live db → act db item = .ok db' → Effects db db')
    (done : items.foldlM act db = .ok db') : Effects db db' := by
  induction items generalizing db with
  | nil =>
    cases done
    exact .refl
  | cons item items ih =>
    rw [List.foldlM_cons] at done
    obtain ⟨between, first, rest⟩ := bind_ok done
    have effects := each db item between live first
    exact effects.trans (ih (live.effects effects) rest)

theorem Live.expireOverdueJobs_effects (live : Live db) : Effects db (db.expireOverdueJobs o) := by
  have trained := live.foldl_effects (List.range db.trainingJobs.length)
    fun db id live => @Live.expireTraining_effects o db id live
  exact (trained.trans (turns_effects _ fun _ _ => expireValidation_effects)).trans
    (turns_effects _ fun _ _ => expireEmulation_effects)

theorem startTraining_cases (started : db.startTraining o body processId = .ok db') :
    (∃ job, body.modelId = none ∧ job.status = .inProgress ∧ job.modelId = none ∧
      db' = db.addTraining job) ∨
    ∃ modelId job fired, body.modelId = some modelId ∧ job.status = .inProgress ∧
      job.modelId = some modelId ∧
      ((db.state modelId = .training ∧ fired = (db.addTraining job).supersede modelId) ∨
        (db.addTraining job).fireModelEvent modelId .createTraining none none none = .ok fired) ∧
      db' = fired.setLifecycle modelId
        { fired.lifecycle modelId with trainingJobId := some db.trainingJobs.length } := by
  unfold Database.startTraining at started
  split at started
  · next group =>
    cases started
    exact .inl ⟨_, group, rfl, group, rfl⟩
  · next modelId its =>
    obtain ⟨-, -, started⟩ := bind_ok started
    dsimp only at started
    split at started
    · cases started
    · split at started
      · cases started
      · obtain ⟨fired, how, started⟩ := bind_ok started
        cases started
        generalize body.mlTrainingType.getD _ = mlTrainingType at how
        refine .inr ⟨modelId, db.newTraining o body mlTrainingType processId, fired, its, rfl, its,
          ?_, rfl⟩
        split at how
        · next training =>
          cases how
          exact .inl ⟨training, rfl⟩
        · exact .inr how

theorem startTraining_effects (unsuspended : ∀ m ∈ body.modelId, Unsuspended db m)
    (started : db.startTraining o body processId = .ok db') : Effects db db' := by
  rcases startTraining_cases started with ⟨job, -, starts, group, rfl⟩ |
    ⟨modelId, job, fired, target, starts, its, how, rfl⟩
  · exact .single (.startGroup job starts group)
  · exact .single (.start job starts its (unsuspended modelId target) how)

theorem supersede_rows {row : TrainingJob} (found : (db.supersede m).trainingJobs[id]? = some row)
    (suspended : row.status = .suspended) : db.trainingJobs[id]? = some row := by
  unfold Database.supersede at found
  split at found
  · exact found
  · split at found
    · exact found
    · split at found
      · rcases set_cases found with ⟨-, rfl⟩ | ⟨-, old⟩
        · cases suspended
        · exact old
      · exact found

theorem supersede_lifecycle : (db.supersede m).lifecycle = db.lifecycle := by
  unfold Database.supersede
  split
  · rfl
  · split
    · rfl
    · split <;> rfl

theorem startTraining_unsuspended (unsuspended : Unsuspended db n)
    (started : db.startTraining o body processId = .ok db') : Unsuspended db' n := by
  have added : ∀ {job row : TrainingJob} {id : Nat}, job.status = .inProgress →
      (db.trainingJobs ++ [job])[id]? = some row → row.status = .suspended →
      db.trainingJobs[id]? = some row := by
    intro job row id starts found suspended
    rcases append_cases found with ⟨-, rfl⟩ | old
    · rw [starts] at suspended
      cases suspended
    · exact old
  rcases startTraining_cases started with ⟨job, -, starts, -, rfl⟩ |
    ⟨modelId, job, fired, -, starts, -, how, rfl⟩
  · intro training id names row found suspended
    exact unsuspended training id names row (added starts found suspended) suspended
  · have frame : (∀ {id : Nat} {row : TrainingJob}, fired.trainingJobs[id]? = some row →
        row.status = .suspended → db.trainingJobs[id]? = some row) ∧
        ∀ n, n ≠ modelId → fired.lifecycle n = db.lifecycle n := by
      rcases how with ⟨-, rfl⟩ | creates
      · refine ⟨fun found suspended => ?_, fun n _ => by rw [supersede_lifecycle]; rfl⟩
        exact added starts (supersede_rows found suspended) suspended
      · obtain ⟨jobs, others, -, -⟩ := fireModelEvent_frame creates
        refine ⟨fun found suspended => ?_, others⟩
        rw [jobs] at found
        exact added starts found suspended
    intro training id names row found suspended
    have old := frame.1 found suspended
    by_cases own : n = modelId
    · subst own
      rw [lifecycle_setLifecycle_self] at names
      cases names
      simp at old
    · rw [Database.state, lifecycle_setLifecycle_of_ne _ own, frame.2 n own] at training
      rw [lifecycle_setLifecycle_of_ne _ own, frame.2 n own] at names
      exact unsuspended training id names row old suspended

theorem Live.startUpdates_effects (live : Live db) {processId : Nat}
    (unsuspended : ∀ m ∈ modelIds, Unsuspended db m)
    (started : db.startUpdates o source processId modelIds = .ok db') : Effects db db' := by
  induction modelIds generalizing db with
  | nil =>
    cases started
    exact .refl
  | cons modelId modelIds ih =>
    rw [Database.startUpdates, List.foldlM_cons] at started
    obtain ⟨between, first, rest⟩ := bind_ok started
    have effects := startTraining_effects (by
      rintro m ⟨⟩
      exact unsuspended modelId List.mem_cons_self) first
    refine effects.trans (ih (live.effects effects) (fun m mem => ?_) rest)
    exact startTraining_unsuspended (unsuspended m (List.mem_cons_of_mem _ mem)) first

theorem unsuspended_of_ne (elsewhere : db.state m ≠ .training) : Unsuspended db m :=
  fun training => absurd training elsewhere

theorem Live.createMlUpdateRequest_effects (live : Live db)
    (created : db.createMlUpdateRequest o source modelIds = .ok db') : Effects db db' := by
  unfold Database.createMlUpdateRequest at created
  split at created
  · cases created
  · obtain ⟨_, checked, created⟩ := bind_ok created
    refine (effects_updates _).trans
      ((live.effects (effects_updates _)).startUpdates_effects (fun m mem => ?_) created)
    obtain ⟨_, -, updatable⟩ := mapM_ok_mem checked mem
    obtain ⟨-, -, updatable⟩ := bind_ok updatable
    dsimp only at updatable
    split at updatable
    · cases updatable
    · next may => exact unsuspended_of_ne fun training => may (.inr training)

theorem Live.reportBreach_effects (live : Live db) {propagation : Str} {members : List ModelId}
    (reported : db.reportBreach o propagation members = .ok db') : Effects db db' := by
  unfold Database.reportBreach at reported
  split at reported
  · refine live.foldlM_effects members (fun db member db' _ retrained => ?_) reported
    split at retrained
    · cases retrained
      exact .refl
    · split at retrained
      · cases retrained
        exact .refl
      · next promoted =>
        have promoted : db.state member = .promoted := by simpa using promoted
        refine startTraining_effects (fun m is => ?_) retrained
        cases is
        exact unsuspended_of_ne (by rw [promoted]; decide)
  all_goals
    cases reported
    exact .refl

theorem Live.modifyMlUpdateRequest_effects (live : Live db) {update : Nat}
    (modified : db.modifyMlUpdateRequest o update cancel suspend = .ok db') : Effects db db' := by
  unfold Database.modifyMlUpdateRequest at modified
  split at modified
  · cases modified
  · split at modified
    · cases modified
    · split at modified
      · cases modified
      · split at modified
        · cases modified
          refine (effects_updates _).trans
            ((live.effects (effects_updates _)).foldl_effects _ fun db id live => ?_)
          unfold Database.cancelOfUpdate
          split
          · exact .refl
          · next job found =>
            split
            · next active => exact live.closeCancelled_effects found active
            · exact .refl
        · split at modified
          · cases modified
            exact .refl
          · obtain ⟨flagged, turns, modified⟩ := bind_ok modified
            cases modified
            refine (live.foldlM_effects _ (fun db id db' live turn => ?_) turns).trans
              (effects_updates _)
            unfold Database.suspendOfUpdate at turn
            split at turn
            · cases turn
              exact .refl
            · next job found => exact live.applyTrainingFlags_effects found turn

def Call.trains : Call → Option ModelId
  | .startTraining body => body.modelId
  | _ => none

def Resumed (db : Database) (t : Transaction) : Prop := ∀ m ∈ t.call.trains, Unsuspended db m

theorem Live.run_effects (live : Live db) {call : Call} {interrupted : Bool}
    (resumed : Resumed db ⟨o, call, interrupted⟩) (ran : call.run o db = .ok db') :
    Effects db db' := by
  cases call with
  | sweep =>
    cases ran
    exact live.expireOverdueJobs_effects
  | startTraining body =>
    simp only [Call.run, requestTraining] at ran
    split at ran
    · cases ran
    · exact startTraining_effects resumed ran
  | completeTraining id succeeded => exact completeTraining_effects ran
  | cancelTraining id => exact live.cancelTraining_effects ran
  | deleteMlTrainingRequest id =>
    cases ran
    exact live.deleteMlTrainingRequest_effects
  | suspendTraining id => exact suspendTraining_effects ran
  | resumeTraining id => exact resumeTraining_effects ran
  | modifyMlTrainingRequest id cancel suspend => exact live.modifyMlTrainingRequest_effects ran
  | reportBreach propagation members => exact live.reportBreach_effects ran
  | createMlUpdateRequest source models => exact live.createMlUpdateRequest_effects ran
  | modifyMlUpdateRequest id cancel suspend => exact live.modifyMlUpdateRequest_effects ran
  | startValidation body => exact startValidation_effects ran
  | completeValidation id succeeded => exact completeValidation_effects ran
  | modifyMlTestingRequest id cancel suspend => exact modifyMlTestingRequest_effects ran
  | requestEmulation body => exact requestEmulation_effects ran
  | completeEmulation id succeeded => exact completeEmulation_effects ran
  | advance rapp modelId event decidedBy rationale => exact advanceModelLifecycle_effects ran
  | deployRuntime modelId =>
    obtain ⟨-, -, moved⟩ := bind_ok ran
    exact moveRuntime_effects (fun _ _ => deployRuntime_certifies) moved
  | activateRuntime modelId => exact moveRuntime_effects (fun _ _ => activateRuntime_certifies) ran
  | scaleRuntime modelId => exact moveRuntime_effects (fun _ _ => scaleRuntime_certifies) ran
  | terminateRuntime modelId =>
    exact moveRuntime_effects (fun _ _ => terminateRuntime_certifies) ran

theorem Live.serve_effects (live : Live db) {t : Transaction} (resumed : Resumed db t) :
    Effects db (serve db t) := by
  unfold serve
  split
  · exact .refl
  · split
    · next committed ran => exact live.run_effects resumed ran
    · exact .refl

end Effects

/-- A model is in training exactly while the run that its row names is live, no other run of it is,
no deployment is left of a run that ended, and a run that is not the current one changes the
lifecycle of its model at no step that ends it. -/
structure OneLiveRun (trace : List (Runs.Step Database Transaction)) (db : Database) : Prop where
  training : ∀ m : ModelId, db.state m = .training ↔ ∃ id job,
    (db.lifecycle m).trainingJobId = some id ∧ db.trainingJobs[id]? = some job ∧
      job.status.active = true
  alone : ∀ (m : ModelId) (id : JobId) (job : TrainingJob), db.trainingJobs[id]? = some job →
    job.modelId = some m → job.status.active = true → (db.lifecycle m).trainingJobId = some id
  tornDown : ∀ job ∈ db.trainingJobs, job.status.ended = true → job.nfDeploymentId = none
  stale : ∀ t ∈ trace, ∀ (m : ModelId) (id : JobId) (job job' : TrainingJob),
    t.before.trainingJobs[id]? = some job → job.modelId = some m → job.status.active = true →
    (t.before.lifecycle m).trainingJobId ≠ some id →
    t.after.trainingJobs[id]? = some job' → job'.status.ended = true →
    t.after.state m = t.before.state m

/-- In every run in which no run is asked for a model whose current run is suspended, each model has
one live training run at most. -/
theorem one_live_run {trace : List (Runs.Step Database Transaction)} {db : Database}
    (run : Runs.Run Step {} trace db) (resumed : ∀ t ∈ trace, Resumed t.before t.label) :
    OneLiveRun trace db := by
  have keeps : ∀ db t db', Live db → Resumed db t → Step db t db' → Live db' := by
    rintro db t db' live resumed rfl
    exact live.effects (live.serve_effects resumed)
  have live := run.invariant_of_guarded Live Resumed Live.start keeps resumed
  constructor
  · refine fun m => ⟨live.current m, ?_⟩
    rintro ⟨id, job, names, found, active⟩
    obtain ⟨named, at_, its⟩ := live.named m id names
    cases found.symm.trans at_
    exact (live.alone m id job found its active).1
  · exact fun m id job found its active => (live.alone m id job found its active).2
  · exact live.tornDown
  · refine run.transitions_of_guarded Live Resumed Live.start keeps _ (fun db t db' live _ _ => ?_)
      resumed
    intro m id job job' found its active other
    exact absurd (live.alone m id job found its active).2 other

def known : Outside := ⟨1700000000000000, fun _ => true, id, 1800⟩

def trainModel : Call :=
  .startTraining { modelId := some 1, producerId := "rapp-1".toList }

def superseded : List Transaction :=
  [⟨known, trainModel, false⟩, ⟨known, trainModel, false⟩, ⟨known, .completeTraining 0 true, false⟩,
   ⟨known, .completeTraining 1 true, false⟩]

instance (db : Database) (m : ModelId) : Decidable (Unsuspended db m) :=
  inferInstanceAs (Decidable (_ → ∀ id ∈ (db.lifecycle m).trainingJobId,
    ∀ job ∈ db.trainingJobs[id]?, _))

instance (db : Database) (t : Transaction) : Decidable (Resumed db t) :=
  inferInstanceAs (Decidable (∀ m ∈ t.call.trains, _))

theorem superseded_one_live : OneLiveRun (Runs.stepsOf serve {} superseded)
    (superseded.foldl serve {}) :=
  one_live_run (Runs.run_follow fun _ _ _ => rfl) (by decide)

def supersededSuspended : List Transaction :=
  [⟨known, trainModel, false⟩, ⟨known, .suspendTraining 0, false⟩, ⟨known, trainModel, false⟩]

/-- A suspended run is not cancelled when another supersedes it: the model has two live runs. -/
theorem suspended_lives_on : ¬ ∀ (trace : List (Runs.Step Database Transaction)) (db : Database),
    Runs.Run Step {} trace db → OneLiveRun trace db := by
  intro always
  have one := always _ _ (@Runs.run_follow _ _ Step serve {} supersededSuspended fun _ _ _ => rfl)
  have alone := one.alone 1 0 _ rfl rfl rfl
  cases alone

end Smo.Aimgf
