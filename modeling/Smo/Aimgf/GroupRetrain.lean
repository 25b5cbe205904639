import Mathlib.Algebra.Order.Ring.Int
import Mathlib.Data.List.Dedup
import Smo.Aimgf.LiveRun

/-! The propagation of a breach to the coordination group of a model (`aimgf/app/main.py`,
`aimgf/app/statemachine.py`), over any sequence of performance reports. -/
namespace Smo.Aimgf.GroupRetrain

structure Group where
  retrainPropagation : Str
  memberModelIds : List ModelId

structure MLMFSubscription (V : Type) where
  modelId : ModelId
  guardKpiFloor : List (Str × V)

/-- The metrics of a report; `some none` is one that is not a number. -/
abbrev Metrics (V : Type) := Str → Option (Option V)

def pageLimit : Nat := 100

/-- `_find_coordination_group_for_model`: the first group on MLMR's first page that lists the model. -/
def findCoordinationGroup (groups : List Group) (answered : Bool) (modelId : ModelId) : Option Group :=
  if answered then (groups.take pageLimit).find? fun group => modelId ∈ group.memberModelIds else none

def retrains (groups : List Group) (answered : Bool) (modelId : ModelId) : Option Group :=
  (findCoordinationGroup groups answered modelId).filter fun group =>
    shouldTriggerGroupRetrain group.retrainPropagation group.memberModelIds.length 1 = some true

variable {V : Type} [LinearOrder V] [Zero V]

/-- Whether a guarded metric is below its floor; an absent one counts as 0, and none is a `TypeError`. -/
def breaches (metrics : Metrics V) : List (Str × V) → Option Bool
  | [] => some false
  | (name, floor) :: rest =>
    match metrics name with
    | some none => none
    | some (some value) => if value < floor then some true else breaches metrics rest
    | none => if 0 < floor then some true else breaches metrics rest

/-- The database, and the performance reports: the model of each and whether it breached, the newest
first. -/
structure Monitored where
  db : Database := {}
  reports : List (ModelId × Bool) := []

structure PerformanceReport (V : Type) where
  outside : Outside
  subscriptionId : Nat
  metrics : Metrics V
  groups : List Group
  answered : Bool
  interrupted : Bool

inductive Act (V : Type)
  | report (body : PerformanceReport V)
  | other (t : Transaction)

variable (subscriptions : Nat → Option (MLMFSubscription V))

def storedReport (body : PerformanceReport V) : Option (ModelId × Bool) := do
  let sub ← subscriptions body.subscriptionId
  let breached ← breaches body.metrics sub.guardKpiFloor
  return (sub.modelId, breached)

/-- `report_performance`; the report is committed before the group is asked for. -/
def reportPerformance (s : Monitored) (body : PerformanceReport V) : Monitored :=
  match storedReport subscriptions body with
  | none => s
  | some (modelId, breached) =>
    let stored := { s with reports := (modelId, breached) :: s.reports }
    if breached then
      match findCoordinationGroup body.groups body.answered modelId with
      | none => stored
      | some group =>
        let call := Call.reportBreach group.retrainPropagation group.memberModelIds
        { stored with db := serve s.db ⟨body.outside, call, body.interrupted⟩ }
    else stored

def Step (s : Monitored) (a : Act V) (s' : Monitored) : Prop :=
  match a with
  | .report body => reportPerformance subscriptions s body = s'
  | .other t => { s with db := serve s.db t } = s'

def breachedLatest (reports : List (ModelId × Bool)) (modelId : ModelId) : Bool :=
  (reports.find? fun report => report.1 = modelId).any (·.2)

def Meets (reports : List (ModelId × Bool)) (group : Group) : Prop :=
  (group.retrainPropagation = "ANY_MEMBER_TRIGGERS".toList ∧
    ∃ m ∈ group.memberModelIds, breachedLatest reports m = true) ∨
  (group.retrainPropagation = "MAJORITY_TRIGGERS".toList ∧
    group.memberModelIds.dedup.length < 2 * group.memberModelIds.dedup.countP (breachedLatest reports))

/-- One retraining run was started for each promoted member, and nothing else happened to a model. -/
structure Retrained (members : List ModelId) (db db' : Database) : Prop where
  started : ∃ jobs, db'.trainingJobs = db.trainingJobs ++ jobs ∧
    (∀ job ∈ jobs, job.mlTrainingType = reTraining ∧ job.status = .inProgress ∧
      ∃ m ∈ members, job.modelId = some m ∧ db.state m = .promoted) ∧
    ∀ m ∈ members, db.state m = .promoted → (jobs.filter (·.modelId = some m)).length = 1
  training : ∀ m ∈ members, db.state m = .promoted → db'.state m = .training
  others : ∀ m, (m ∈ members → db.state m ≠ .promoted) → db'.lifecycle m = db.lifecycle m
  validationJobs : db'.validationJobs = db.validationJobs
  emulationJobs : db'.emulationJobs = db.emulationJobs
  updates : db'.updates = db.updates

section Effect

variable {o : Outside} {db : Database} {m : ModelId}

theorem startTraining_promoted (known : o.known m = true) (promoted : db.state m = .promoted) :
    ∃ db' job, db.startTraining o
        { modelId := some m, producerId := "aimgf:group-retrain".toList, mlTrainingType := some reTraining }
        none = .ok db' ∧
      db'.trainingJobs = db.trainingJobs ++ [job] ∧ job.mlTrainingType = reTraining ∧
      job.status = .inProgress ∧ job.modelId = some m ∧ db'.state m = .training ∧
      (∀ n, n ≠ m → db'.lifecycle n = db.lifecycle n) ∧ db'.validationJobs = db.validationJobs ∧
      db'.emulationJobs = db.emulationJobs ∧ db'.updates = db.updates := by
  let body : TrainingRequest :=
    { modelId := some m, producerId := "aimgf:group-retrain".toList, mlTrainingType := some reTraining }
  let job := db.newTraining o body reTraining none
  have fires : ∃ fired, (db.addTraining job).fireModelEvent m .createTraining none none none = .ok fired := by
    have next : modelLifecycleFsm.fire ((db.addTraining job).lifecycle m).modelLifecycleState
        .createTraining = .ok .training := by
      rw [show ((db.addTraining job).lifecycle m).modelLifecycleState = .promoted from promoted]
      decide
    unfold Database.fireModelEvent ModelLifecycle.fireModel
    rw [if_neg (by decide), next]
    exact ⟨_, rfl⟩
  obtain ⟨fired, fires⟩ := fires
  obtain ⟨-, next, is, whole⟩ := fireModelEvent_ok fires
  have training : next = .training := by
    rw [show (db.addTraining job).state m = .promoted from promoted] at is
    exact (Except.ok.inj is).symm
  subst training
  refine ⟨fired.setLifecycle m { fired.lifecycle m with trainingJobId := some db.trainingJobs.length },
    job, ?_, ?_, rfl, rfl, rfl, ?_, fun n other => ?_, ?_, ?_, ?_⟩
  · unfold Database.startTraining
    have other : some reTraining ≠ some initialTraining := by decide
    simp only [getModel, known, promoted, if_true, bind, Except.bind, pure, Except.pure, other, false_and,
      if_false, ModelLifecycleState.trainable, Option.getD_some, reduceCtorEq]
    rw [show (db.addTraining (db.newTraining o _ reTraining none)).fireModelEvent m .createTraining none
      none none = .ok fired from fires]
  all_goals subst whole
  · rfl
  · simp [Database.state, Database.setLifecycle, ModelLifecycle.flagged]
  · simp [Database.setLifecycle, Database.addTraining, Function.update_of_ne other]
  · rfl
  · rfl
  · rfl

theorem Retrained.nil : Retrained [] db db :=
  ⟨⟨[], by simp⟩, by simp, fun _ _ => rfl, rfl, rfl, rfl⟩

theorem retrained (members : List ModelId)
    (known : ∀ m ∈ members, db.state m = .promoted → o.known m = true) :
    ∃ db', db.triggerGroupRetrain o members = .ok db' ∧ Retrained members db db' := by
  induction members generalizing db with
  | nil => exact ⟨db, rfl, .nil⟩
  | cons first rest ih =>
    by_cases promoted : db.state first = .promoted
    · have isKnown := known first List.mem_cons_self promoted
      obtain ⟨between, job, starts, jobs, retrains, running, its, training, others, vals, ems, ups⟩ :=
        startTraining_promoted isKnown promoted
      have before : ∀ m, between.state m = .promoted → m ≠ first ∧ db.state m = .promoted := by
        intro m is
        have other : m ≠ first := by
          rintro rfl
          rw [training] at is
          cases is
        refine ⟨other, ?_⟩
        rwa [Database.state, others m other] at is
      obtain ⟨db', goesOn, ⟨started, added, each, once⟩, trained, same, vals', ems', ups'⟩ :=
        @ih between fun m mem is => known m (List.mem_cons_of_mem _ mem) (before m is).2
      have notAgain : ∀ job ∈ started, job.modelId ≠ some first := by
        intro job mem is
        obtain ⟨-, -, m, -, its, wasPromoted⟩ := each job mem
        rw [its] at is
        exact (before m wasPromoted).1 (Option.some.inj is)
      have keptFirst : between.state first ≠ .promoted := by
        rw [training]
        decide
      refine ⟨db', ?_, ⟨⟨job :: started, ?_, ?_, fun m mem is => ?_⟩, fun m mem is => ?_,
        fun m stays => ?_, vals'.trans vals, ems'.trans ems, ups'.trans ups⟩⟩
      · unfold Database.triggerGroupRetrain at goesOn ⊢
        rw [List.foldlM_cons, if_neg (by simp [isKnown]), if_neg (by simp [promoted]), starts]
        exact goesOn
      · rw [added, jobs, List.append_assoc, List.singleton_append]
      · refine List.forall_mem_cons.mpr ⟨⟨retrains, running, first, List.mem_cons_self, its, promoted⟩, ?_⟩
        intro job mem
        obtain ⟨isRe, runs, m, inRest, its, was⟩ := each job mem
        exact ⟨isRe, runs, m, List.mem_cons_of_mem _ inRest, its, (before m was).2⟩
      · by_cases mine : m = first
        · subst mine
          rw [List.filter_cons_of_pos (by simp [its]), List.length_cons,
            List.filter_eq_nil_iff.mpr fun job mem => by simpa using notAgain job mem]
          rfl
        · have inRest := (List.mem_cons.mp mem).resolve_left mine
          rw [List.filter_cons_of_neg (by simpa [its] using Ne.symm mine)]
          exact once m inRest (by rwa [Database.state, others m mine])
      · by_cases mine : m = first
        · subst mine
          rw [Database.state, same m fun _ => keptFirst]
          exact training
        · exact trained m ((List.mem_cons.mp mem).resolve_left mine) (by rwa [Database.state, others m mine])
      · have other : m ≠ first := by
          rintro rfl
          exact stays List.mem_cons_self promoted
        rw [same m fun mem => ?_, others m other]
        rw [Database.state, others m other]
        exact stays (List.mem_cons_of_mem _ mem)
    · obtain ⟨db', goesOn, ⟨started, added, each, once⟩, trained, same, vals, ems, ups⟩ :=
        @ih db fun m mem is => known m (List.mem_cons_of_mem _ mem) is
      have inRest : ∀ m ∈ first :: rest, db.state m = .promoted → m ∈ rest := by
        intro m mem is
        refine (List.mem_cons.mp mem).resolve_left ?_
        rintro rfl
        exact promoted is
      refine ⟨db', ?_, ⟨⟨started, added, fun job mem => ?_, fun m mem is => once m (inRest m mem is) is⟩,
        fun m mem is => trained m (inRest m mem is) is,
        fun m stays => same m fun mem => stays (List.mem_cons_of_mem _ mem), vals, ems, ups⟩⟩
      · unfold Database.triggerGroupRetrain at goesOn ⊢
        rw [List.foldlM_cons]
        split
        · exact goesOn
        · exact goesOn
      · obtain ⟨isRe, runs, m, inMembers, its, was⟩ := each job mem
        exact ⟨isRe, runs, m, List.mem_cons_of_mem _ inMembers, its, was⟩

end Effect

section Runs

variable {subscriptions : Nat → Option (MLMFSubscription V)} {s s' : Monitored}
  {body : PerformanceReport V} {modelId : ModelId} {breached : Bool}

theorem meets_of_retrains (reports : List (ModelId × Bool)) {groups : List Group} {answered : Bool}
    {group : Group} (is : retrains groups answered modelId = some group) :
    group ∈ groups ∧ modelId ∈ group.memberModelIds ∧ Meets ((modelId, true) :: reports) group := by
  obtain ⟨found, rule⟩ := Option.filter_eq_some_iff.mp is
  unfold findCoordinationGroup at found
  split at found
  · have member : modelId ∈ group.memberModelIds := by simpa using List.find?_some found
    have own : breachedLatest ((modelId, true) :: reports) modelId = true := by simp [breachedLatest]
    refine ⟨List.mem_of_mem_take (List.mem_of_find?_eq_some found), member, ?_⟩
    unfold shouldTriggerGroupRetrain at rule
    rw [if_neg (by decide)] at rule
    split at rule
    · next any => exact .inl ⟨any, modelId, member, own⟩
    · split at rule
      · next majority =>
        have few : group.memberModelIds.length < 2 * 1 := by simpa using rule
        obtain ⟨other, single⟩ := List.length_eq_one_iff.mp
          (Nat.le_antisymm (Nat.le_of_lt_succ few) (List.length_pos_of_mem member))
        rw [single, List.mem_singleton] at member
        subst member
        refine .inr ⟨majority, ?_⟩
        rw [single, List.Nodup.dedup (List.nodup_singleton modelId)]
        simp [own]
      · simp at rule
  · cases found

/-- The model of a breach whose group does not fire by itself is in no group that meets its rule; and MLMR
knows the promoted members of the group that fires. -/
def Guarded (subscriptions : Nat → Option (MLMFSubscription V)) (s : Monitored) : Act V → Prop
  | .report body => ∀ modelId, storedReport subscriptions body = some (modelId, true) →
    (retrains body.groups body.answered modelId = none → ∀ group ∈ body.groups,
      modelId ∈ group.memberModelIds → ¬Meets ((modelId, true) :: s.reports) group) ∧
    ∀ group, retrains body.groups body.answered modelId = some group →
      ∀ m ∈ group.memberModelIds, s.db.state m = .promoted → body.outside.known m = true
  | .other _ => True

/-- A report retrains a group exactly when it breaches and its model is in a group that meets its rule; it
then starts one run for each promoted member, or none when a call fails. -/
def Propagates (subscriptions : Nat → Option (MLMFSubscription V)) (t : Runs.Step Monitored (Act V)) :
    Prop :=
  match t.label with
  | .report body => ∀ modelId breached, storedReport subscriptions body = some (modelId, breached) →
    t.after.reports = (modelId, breached) :: t.before.reports ∧
    ((breached = true ∧ (retrains body.groups body.answered modelId).isSome = true) ↔
      breached = true ∧ ∃ group ∈ body.groups, modelId ∈ group.memberModelIds ∧
        Meets t.after.reports group) ∧
    (∀ group, breached = true → retrains body.groups body.answered modelId = some group →
      if body.interrupted then t.after.db = t.before.db
      else Retrained group.memberModelIds t.before.db t.after.db) ∧
    (¬(breached = true ∧ (retrains body.groups body.answered modelId).isSome = true) →
      t.after.db = t.before.db)
  | .other _ => True

theorem propagates {a : Act V} (guarded : Guarded subscriptions s a)
    (taken : Step subscriptions s a s') : Propagates subscriptions ⟨s, a, s'⟩ := by
  cases a with
  | other t => trivial
  | report body =>
    obtain rfl : reportPerformance subscriptions s body = s' := taken
    intro modelId breached stored
    unfold reportPerformance
    rw [stored]
    dsimp only
    cases breached with
    | false => simp
    | true =>
      obtain ⟨silent, known⟩ := guarded modelId stored
      simp only [if_true, true_and]
      cases found : findCoordinationGroup body.groups body.answered modelId with
      | none =>
        have none : retrains body.groups body.answered modelId = none := by rw [retrains, found]; rfl
        refine ⟨rfl, ?_, by simp [none], fun _ => rfl⟩
        rw [none]
        simpa using silent none
      | some group =>
        dsimp only
        cases rule : retrains body.groups body.answered modelId with
        | none =>
          have quiet : shouldTriggerGroupRetrain group.retrainPropagation group.memberModelIds.length 1 ≠
              some true := by
            rw [retrains, found, Option.filter_some] at rule
            simpa using rule
          have kept : serve s.db ⟨body.outside, .reportBreach group.retrainPropagation
              group.memberModelIds, body.interrupted⟩ = s.db := by
            unfold serve
            split
            · rfl
            · simp only [Call.run, Database.reportBreach]
              cases answer : shouldTriggerGroupRetrain group.retrainPropagation
                  group.memberModelIds.length 1 with
              | none => rfl
              | some fires =>
                cases fires with
                | true => exact absurd answer quiet
                | false => rfl
          exact ⟨rfl, by simpa using silent rule, by simp, fun _ => kept⟩
        | some other =>
          obtain ⟨inGroups, member, meets⟩ := meets_of_retrains s.reports rule
          obtain ⟨same, fires⟩ := Option.filter_eq_some_iff.mp rule
          rw [found] at same
          obtain rfl := Option.some.inj same
          refine ⟨rfl, iff_of_true rfl ⟨group, inGroups, member, meets⟩, ?_, by simp⟩
          rintro _ _ ⟨⟩
          obtain ⟨db', retrains, whole⟩ := retrained group.memberModelIds (known group rule)
          unfold serve
          cases body.interrupted with
          | true => rfl
          | false =>
            have triggers : shouldTriggerGroupRetrain group.retrainPropagation group.memberModelIds.length
                1 = some true := by simpa using fires
            simp only [Bool.false_eq_true, if_false, Call.run, Database.reportBreach, triggers, retrains]
            exact whole

/-- Over any sequence of reports and other transactions, a breach is propagated to the group of its model
as that group's rule says, where the one group that is looked at and the one report in hand decide it. -/
theorem breaches_propagate {trace : List (Runs.Step Monitored (Act V))} {start : Monitored}
    (run : Runs.Run (Step subscriptions) start trace s)
    (guarded : ∀ t ∈ trace, Guarded subscriptions t.before t.label) :
    ∀ t ∈ trace, Propagates subscriptions t :=
  run.transitions_of_guarded (fun _ => True) (Guarded subscriptions) trivial (fun _ _ _ _ _ _ => trivial) _
    (fun _ _ _ _ guarded taken => propagates guarded taken) guarded

end Runs

section Sample

def sampleSubscriptions (id : Nat) : Option (MLMFSubscription Int) :=
  if id < 3 then some ⟨id, [("accuracy".toList, 9)]⟩ else none

def sampleReport (propagation : String) (model : Nat) : PerformanceReport Int where
  outside := ⟨0, fun _ => true, id, 60⟩
  subscriptionId := model
  metrics _ := some (some 5)
  groups := [⟨propagation.toList, [0, 1, 2]⟩]
  answered := true
  interrupted := false

def sampleStart : Monitored := { db := { lifecycle := fun _ => { modelLifecycleState := .promoted } } }

def reported (propagation : String) (s : Monitored) (model : Nat) : Monitored :=
  reportPerformance sampleSubscriptions s (sampleReport propagation model)

theorem any_member_propagates : Propagates sampleSubscriptions
    ⟨sampleStart, .report (sampleReport "ANY_MEMBER_TRIGGERS" 0),
      reported "ANY_MEMBER_TRIGGERS" sampleStart 0⟩ := by
  have taken : Step sampleSubscriptions sampleStart (.report (sampleReport "ANY_MEMBER_TRIGGERS" 0))
      (reported "ANY_MEMBER_TRIGGERS" sampleStart 0) := rfl
  refine breaches_propagate (.snoc .refl taken) ?_ _ (List.mem_singleton_self _)
  intro t mem
  obtain rfl := List.mem_singleton.mp mem
  intro modelId stored
  cases stored
  exact ⟨fun none => absurd none (by decide), fun _ _ _ _ _ => rfl⟩

/-- Two of three members have breached, and the majority does not retrain. -/
theorem majority_silent : ∃ trace s, Runs.Run (Step sampleSubscriptions) sampleStart trace s ∧
    s.reports = [(1, true), (0, true)] ∧ s.db.trainingJobs = [] ∧
    Meets s.reports ⟨"MAJORITY_TRIGGERS".toList, [0, 1, 2]⟩ := by
  have first : Step sampleSubscriptions sampleStart (.report (sampleReport "MAJORITY_TRIGGERS" 0))
      (reported "MAJORITY_TRIGGERS" sampleStart 0) := rfl
  have second : Step sampleSubscriptions (reported "MAJORITY_TRIGGERS" sampleStart 0)
      (.report (sampleReport "MAJORITY_TRIGGERS" 1))
      (reported "MAJORITY_TRIGGERS" (reported "MAJORITY_TRIGGERS" sampleStart 0) 1) := rfl
  exact ⟨_, _, .snoc (.snoc .refl first) second, rfl, rfl, .inr ⟨rfl, by decide⟩⟩

end Sample

end Smo.Aimgf.GroupRetrain
