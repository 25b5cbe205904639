import Smo.Aimgf.Certification
import Mathlib.Logic.Relation

/-! What a transaction does to the rows that certify a model, as a chain of effects: each invariant
is shown for the effects. -/
namespace Smo.Aimgf

open Relation (ReflTransGen)

def Unsuspended (db : Database) (modelId : ModelId) : Prop :=
  db.state modelId = .training → ∀ id ∈ (db.lifecycle modelId).trainingJobId,
    ∀ job ∈ db.trainingJobs[id]?, job.status ≠ .suspended

/-- Why an event other than those of a training run may fire: what the row must allow, and the run
whose end fires it. -/
def Justified (db : Database) (modelId : ModelId) (run : Option Run) : ModelLifecycleEvent → Prop
  | .createTraining | .trainingComplete | .trainingFailed => False
  | .createValidation => (db.lifecycle modelId).trainingApproved = true
  | .createEmulation => (db.lifecycle modelId).validationApproved = true
  | .validationComplete => ∃ id job, run = some (.validation id) ∧
      db.validationJobs[id]? = some job ∧ job.status = .completed ∧ job.modelId = some modelId
  | .emulationComplete => ∃ id job, run = some (.emulation id) ∧
      db.emulationJobs[id]? = some job ∧ job.status = .completed ∧ job.modelId = modelId
  | _ => True

inductive Effect (db : Database) : Database → Prop
  | updates (updates : List MLUpdate) : Effect db { db with updates }
  | runtime (modelId : ModelId) (row : ModelLifecycle)
      (state : row.modelLifecycleState = db.state modelId)
      (current : row.trainingJobId = (db.lifecycle modelId).trainingJobId)
      (training : row.trainingApproved = (db.lifecycle modelId).trainingApproved)
      (validation : row.validationApproved = (db.lifecycle modelId).validationApproved) :
      Effect db (db.setLifecycle modelId row)
  | validations (jobs : List ValidationJob)
      (kept : ∀ (id : Nat) (job : ValidationJob), db.validationJobs[id]? = some job →
        job.status = .completed → jobs[id]? = some job) :
      Effect db { db with validationJobs := jobs }
  | emulations (jobs : List EmulationJob)
      (kept : ∀ (id : Nat) (job : EmulationJob), db.emulationJobs[id]? = some job →
        job.status = .completed → jobs[id]? = some job) :
      Effect db { db with emulationJobs := jobs }
  | fire {db' : Database} {modelId : ModelId} {event : ModelLifecycleEvent}
      {decidedBy rationale : Option Str} {run : Option Run}
      (justified : Justified db modelId run event)
      (fired : db.fireModelEvent modelId event decidedBy rationale run = .ok db') : Effect db db'
  | pause {id : JobId} {job : TrainingJob} (next : TrainingJob)
      (found : db.trainingJobs[id]? = some job) (live : job.status.active = true)
      (lives : next.status.active = true) (same : next.modelId = job.modelId) :
      Effect db (db.setTraining id next)
  | endGroup {id : JobId} {job : TrainingJob} (next : TrainingJob)
      (found : db.trainingJobs[id]? = some job) (live : job.status.active = true)
      (ended : next.status.ended = true) (tornDown : next.nfDeploymentId = none)
      (same : next.modelId = job.modelId) (group : job.modelId = none) :
      Effect db (db.setTraining id next)
  | endRun {db' : Database} {id : JobId} {job : TrainingJob} {modelId : ModelId}
      {event : ModelLifecycleEvent} (next : TrainingJob)
      (found : db.trainingJobs[id]? = some job) (live : job.status.active = true)
      (ended : next.status.ended = true) (tornDown : next.nfDeploymentId = none)
      (same : next.modelId = job.modelId) (its : job.modelId = some modelId)
      (how : event = .trainingFailed ∨ event = .trainingComplete ∧ next.status = .finished)
      (fired : (db.setTraining id next).fireModelEvent modelId event none none
        (some (.training id)) = .ok db') : Effect db db'
  | startGroup (job : TrainingJob) (live : job.status = .inProgress) (group : job.modelId = none) :
      Effect db (db.addTraining job)
  | start {fired : Database} {modelId : ModelId} (job : TrainingJob)
      (live : job.status = .inProgress) (its : job.modelId = some modelId)
      (unsuspended : Unsuspended db modelId)
      (how : (db.state modelId = .training ∧ fired = (db.addTraining job).supersede modelId) ∨
        (db.addTraining job).fireModelEvent modelId .createTraining none none none = .ok fired) :
      Effect db (fired.setLifecycle modelId
        { fired.lifecycle modelId with trainingJobId := some db.trainingJobs.length })

abbrev Effects : Database → Database → Prop := ReflTransGen Effect

section Functions

variable {o : Outside} {db db' : Database}

variable {modelId : ModelId} {event : ModelLifecycleEvent} {decidedBy rationale : Option Str}
  {α : Type} {id : JobId} {job : ValidationJob} {body : ValidationRequest} {succeeded : Bool}
  {row next : ModelLifecycle}

theorem fireModelEvent_ok {run : Option Run}
    (fired : db.fireModelEvent modelId event decidedBy rationale run = .ok db') :
    (event.governance = true → decidedBy.isSome = true) ∧
    ∃ next, modelLifecycleFsm.fire (db.state modelId) event = .ok next ∧
      db' = { db.setLifecycle modelId
          ({ db.lifecycle modelId with modelLifecycleState := next }.flagged event) with
        transitions := db.transitions ++
          [{ modelId, fromState := db.state modelId, toState := next, event, run
             record := if event.governance then
               some { modelId, decision := event, decidedBy, rationale } else none }] } := by
  unfold Database.fireModelEvent at fired
  split at fired
  · cases fired
  · next decided =>
    obtain ⟨row, fires, added⟩ := bind_ok fired
    unfold ModelLifecycle.fireModel at fires
    split at fires
    · cases fires
    · next next is =>
      cases fires
      cases added
      refine ⟨fun governs => ?_, next, is, ?_⟩
      · by_contra undecided
        exact decided ⟨governs, by simpa using undecided⟩
      · have : ({ db.lifecycle modelId with modelLifecycleState := next }.flagged
            event).modelLifecycleState = next := by
          cases event <;> rfl
        rw [this]

theorem effects_updates (updates : List MLUpdate) : Effects db { db with updates } :=
  .single (.updates updates)

theorem advanceMlUpdateProcess_effects (processId : Nat) :
    Effects db (db.advanceMlUpdateProcess processId) := by
  unfold Database.advanceMlUpdateProcess
  split
  · exact .refl
  · split
    · exact .refl
    · dsimp only
      split
      · exact effects_updates _
      · exact .refl

theorem advanceUpdateOf_effects (job : TrainingJob) : Effects db (db.advanceUpdateOf job) := by
  unfold Database.advanceUpdateOf
  cases job.mlUpdateProcessId with
  | none => exact .refl
  | some processId => exact advanceMlUpdateProcess_effects processId

theorem kept_set {rows : List α} {id : Nat} {row next : α} {done : α → Prop}
    (found : rows[id]? = some row) (undone : ¬ done row) (other : Nat) (kept : α)
    (at_ : rows[other]? = some kept) (is : done kept) : (rows.set id next)[other]? = some kept := by
  rw [List.getElem?_set_ne, at_]
  rintro rfl
  exact undone (Option.some.inj (found.symm.trans at_) ▸ is)

theorem setValidation_effects (next : ValidationJob) (found : db.validationJobs[id]? = some job)
    (live : job.status.active = true) : Effects db (db.setValidation id next) := by
  refine .single (.validations _ (kept_set found ?_))
  intro done
  rw [done] at live
  cases live

theorem setEmulation_effects {job : EmulationJob} (next : EmulationJob)
    (found : db.emulationJobs[id]? = some job) (live : job.status = .running) :
    Effects db (db.setEmulation id next) := by
  refine .single (.emulations _ (kept_set found ?_))
  intro done
  rw [done] at live
  cases live

theorem fireIfLegal_effects {modelId : Option ModelId} {run : Run}
    (justified : ∀ m, Justified db m (some run) event) :
    Effects db (db.fireIfLegal modelId event run) := by
  unfold Database.fireIfLegal
  split
  · exact .refl
  · split
    · next fired => exact .single (.fire (justified _) fired)
    · exact .refl

theorem addValidation_effects : Effects db (db.addValidation o body) := by
  refine .single (.validations _ fun id job found _ => ?_)
  rw [List.getElem?_append_left (List.getElem?_eq_some_iff.mp found).1, found]

theorem startValidation_effects (started : db.startValidation o body = .ok db') :
    Effects db db' := by
  unfold Database.startValidation at started
  split at started
  · cases started
  · split at started
    · cases started
      exact addValidation_effects
    · next modelId is =>
      obtain ⟨-, -, started⟩ := bind_ok started
      split at started
      · cases started
      · split at started
        · cases started
        · next unapproved =>
          have approved : (db.lifecycle modelId).trainingApproved = true := by simpa using unapproved
          have justified : Justified (db.addValidation o body) modelId none .createValidation :=
            approved
          exact addValidation_effects.tail (.fire justified started)

theorem completed_justified (found : db.validationJobs[id]? = some job)
    (its : job.modelId = some modelId) :
    Justified (db.setValidation id (job.close .completed)) modelId (some (.validation id))
      .validationComplete := by
  have here : id < db.validationJobs.length := (List.getElem?_eq_some_iff.mp found).1
  exact ⟨id, _, rfl, List.getElem?_set_self here, rfl, its⟩

theorem completeValidation_effects (completed : db.completeValidation id succeeded = .ok db') :
    Effects db db' := by
  unfold Database.completeValidation at completed
  split at completed
  · cases completed
  · next job found =>
    split at completed
    · cases completed
    · next live =>
      have live : job.status.active = true := by simpa using live
      dsimp only at completed
      split at completed
      · cases completed
        exact setValidation_effects _ found live
      · next modelId its =>
        refine (setValidation_effects _ found live).tail (.fire ?_ completed)
        cases succeeded
        · trivial
        · exact completed_justified found its

theorem modifyMlTestingRequest_effects {cancel suspend : Option Bool}
    (modified : db.modifyMlTestingRequest o id cancel suspend = .ok db') : Effects db db' := by
  unfold Database.modifyMlTestingRequest at modified
  split at modified
  · cases modified
  · next job found =>
    split at modified
    · split at modified
      · cases modified
      · next live =>
        have live : job.status.active = true := by simpa using live
        dsimp only at modified
        split at modified
        · cases modified
          exact setValidation_effects _ found live
        · next modelId its =>
          have justified : Justified (db.setValidation id { job.close .cancelled with
            cancelRequest := true }) modelId (some (.validation id)) .validationFailed := trivial
          exact (setValidation_effects _ found live).tail (.fire justified modified)
    · split at modified
      · split at modified <;> cases modified
        next running => exact setValidation_effects _ found (by rw [running]; rfl)
      · split at modified <;> cases modified
        · next resumed => exact setValidation_effects _ found (by rw [resumed.2]; rfl)
        · exact .refl

theorem requestEmulation_effects {body : EmulationRequest}
    (requested : db.requestEmulation o body = .ok db') : Effects db db' := by
  unfold Database.requestEmulation at requested
  obtain ⟨-, -, requested⟩ := bind_ok requested
  split at requested
  · cases requested
  · split at requested
    · cases requested
    · next unapproved =>
      have approved : (db.lifecycle body.modelId).validationApproved = true := by
        simpa using unapproved
      have justified : ∀ jobs, Justified { db with emulationJobs := jobs } body.modelId none
          .createEmulation := fun _ => approved
      refine (ReflTransGen.single (.emulations _ ?_)).tail (.fire (justified _) requested)
      intro id job found _
      rw [List.getElem?_append_left (List.getElem?_eq_some_iff.mp found).1, found]

theorem completeEmulation_effects (completed : db.completeEmulation id succeeded = .ok db') :
    Effects db db' := by
  unfold Database.completeEmulation at completed
  split at completed
  · cases completed
  · next job found =>
    split at completed
    · cases completed
    · next live =>
      have live : job.status = .running := by simpa using live
      refine (setEmulation_effects _ found live).tail (.fire ?_ completed)
      cases succeeded
      · trivial
      · have here : id < db.emulationJobs.length := (List.getElem?_eq_some_iff.mp found).1
        exact ⟨id, _, rfl, List.getElem?_set_self here, rfl, rfl⟩

theorem expireValidation_effects : Effects db (db.expireValidation o id) := by
  unfold Database.expireValidation
  split
  · exact .refl
  · next job found =>
    split
    · next late =>
      exact (setValidation_effects _ found (by rw [late.1]; rfl)).trans
        (fireIfLegal_effects fun _ => trivial)
    · exact .refl

theorem expireEmulation_effects : Effects db (db.expireEmulation o id) := by
  unfold Database.expireEmulation
  split
  · exact .refl
  · next job found =>
    split
    · next late =>
      exact (setEmulation_effects _ found late.1).trans (fireIfLegal_effects fun _ => trivial)
    · exact .refl

theorem turns_effects {act : Database → α → Database} (items : List α)
    (each : ∀ db item, Effects db (act db item)) : Effects db (items.foldl act db) := by
  induction items generalizing db with
  | nil => exact .refl
  | cons item items ih => exact (each db item).trans ih

def Certifies (row next : ModelLifecycle) : Prop :=
  next.modelLifecycleState = row.modelLifecycleState ∧ next.trainingJobId = row.trainingJobId ∧
    next.trainingApproved = row.trainingApproved ∧ next.validationApproved = row.validationApproved

theorem Certifies.trans {first second third : ModelLifecycle} (left : Certifies first second)
    (right : Certifies second third) : Certifies first third :=
  ⟨right.1.trans left.1, right.2.1.trans left.2.1, right.2.2.1.trans left.2.2.1,
    right.2.2.2.trans left.2.2.2⟩

theorem fireRuntime_certifies {row next : ModelLifecycle} {event : RuntimeLifecycleEvent}
    (fired : row.fireRuntime event = .ok next) : Certifies row next := by
  unfold ModelLifecycle.fireRuntime at fired
  split at fired <;> cases fired
  exact ⟨rfl, rfl, rfl, rfl⟩

theorem terminateRuntime_certifies (moved : row.terminateRuntime = .ok next) :
    Certifies row next := by
  obtain ⟨_, first, second⟩ := bind_ok moved
  exact (fireRuntime_certifies first).trans (fireRuntime_certifies second)

theorem retireRuntime_certifies (moved : row.retireRuntime = .ok next) : Certifies row next := by
  unfold ModelLifecycle.retireRuntime at moved
  split at moved
  · exact terminateRuntime_certifies moved
  · cases moved
    exact ⟨rfl, rfl, rfl, rfl⟩

theorem deployRuntime_certifies {deployment : Nat} (moved : row.deployRuntime deployment = .ok next)
    : Certifies row next := by
  unfold ModelLifecycle.deployRuntime at moved
  split at moved
  · cases moved
  · obtain ⟨requested, first, second⟩ := bind_ok moved
    have deployed : Certifies requested next :=
      @fireRuntime_certifies { requested with nfDeploymentId := some deployment } _ _ second
    exact (fireRuntime_certifies first).trans deployed

theorem activateRuntime_certifies (moved : row.activateRuntime = .ok next) :
    Certifies row next := by
  obtain ⟨-, -, moved⟩ := bind_ok moved
  obtain ⟨_, first, second⟩ := bind_ok moved
  exact (fireRuntime_certifies first).trans (fireRuntime_certifies second)

theorem scaleRuntime_certifies (moved : row.scaleRuntime = .ok next) : Certifies row next := by
  obtain ⟨-, -, moved⟩ := bind_ok moved
  obtain ⟨_, first, second⟩ := bind_ok moved
  exact (fireRuntime_certifies first).trans (fireRuntime_certifies second)

theorem setLifecycle_effects (certifies : Certifies (db.lifecycle modelId) row) :
    Effects db (db.setLifecycle modelId row) :=
  .single (.runtime modelId row certifies.1 certifies.2.1 certifies.2.2.1 certifies.2.2.2)

theorem moveRuntime_effects {move : ModelLifecycle → Answer ModelLifecycle}
    (certifies : ∀ row next, move row = .ok next → Certifies row next)
    (moved : db.moveRuntime modelId move = .ok db') : Effects db db' := by
  obtain ⟨row, first, second⟩ := bind_ok moved
  cases second
  exact setLifecycle_effects (certifies _ _ first)

theorem advance_justified (advanceable : event.advanceable = true) :
    Justified db modelId none event := by
  cases event <;> trivial

theorem advanceModelLifecycle_effects {rapp : Bool}
    (advanced : db.advanceModelLifecycle o rapp modelId event decidedBy rationale = .ok db') :
    Effects db db' := by
  unfold Database.advanceModelLifecycle at advanced
  split at advanced
  · cases advanced
  · split at advanced
    · cases advanced
    · next advanceable =>
      obtain ⟨-, -, advanced⟩ := bind_ok advanced
      obtain ⟨between, fired, advanced⟩ := bind_ok advanced
      have first : Effects db between :=
        .single (.fire (advance_justified (by simpa using advanceable)) fired)
      split at advanced
      · obtain ⟨row, moved, advanced⟩ := bind_ok advanced
        cases advanced
        exact first.trans (setLifecycle_effects (retireRuntime_certifies moved))
      · cases advanced
        exact first

end Functions

end Smo.Aimgf
