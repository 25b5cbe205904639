import Smo.Lib.Rollout
import Smo.RanNfOam.Lifecycle.Operations

/-! The campaign engine refines a staged rollout: what each function of the engine does
to a campaign's rows is a sequence of moves of the rollout they stand for. -/
namespace Smo.RanNfOam.Lifecycle

open Staged (Rollout Move Moves)

def outcomeOf : SwmState → Staged.Outcome
  | .pending | .inProgress => .running
  | .completed => .done
  | .failed => .failed

def taskOf (job : SoftwareManagementJob) : Staged.Task String :=
  ⟨job.managedElementRef, job.campaignWave, outcomeOf job.status, job.rollbackOf⟩

def answered (reason : Option HaltedReason) : Bool :=
  reason = some .gateFailed || reason = some .wavePause

def phaseOf (c : SoftwareCampaign) : Staged.Phase :=
  match c.status with
  | .pending | .running => .running
  | .halted => .halted (answered c.haltedReason)
  | .completed => .completed
  | .aborted => .aborted
  | .rollingBack => .rollingBack
  | .rolledBack => .rolledBack
  | .rollbackFailed => .rollbackFailed

def rolloutOf (s : CampaignRows) : Rollout String where
  items := s.c.elements
  size := sizeOfWaves s.c
  count := s.c.waveCount
  lastFirst := s.c.rollbackOrder = .reverse
  current := s.c.currentWave
  phase := phaseOf s.c
  tasks := s.jobs.map taskOf

variable {w : Surroundings} {s s' : CampaignRows}

@[simp] theorem rolloutOf_log (event : CampaignLog) (detail : Option String) (wave : Option Nat)
    (requester : Option String) (job : Option Nat) :
    rolloutOf (log w s event detail wave requester job) = rolloutOf s := rfl

theorem rolloutOf_task (id : Nat) :
    (rolloutOf s).tasks[id]? = (s.jobs[id]?).map taskOf := by
  simp [rolloutOf]

theorem task_found {id : Nat} {t : Staged.Task String} (found : (rolloutOf s).tasks[id]? = some t) :
    ∃ job, s.jobs[id]? = some job ∧ t = taskOf job := by
  rw [rolloutOf_task, Option.map_eq_some_iff] at found
  obtain ⟨job, hjob, rfl⟩ := found
  exact ⟨job, hjob, rfl⟩

theorem taskOf_running {job : SoftwareManagementJob} :
    (taskOf job).outcome = .running ↔ inFlight job = true := by
  cases hstatus : job.status <;> simp [taskOf, outcomeOf, inFlight, hstatus]

theorem taskOf_done {job : SoftwareManagementJob} :
    (taskOf job).outcome = .done ↔ job.status = .completed := by
  cases hstatus : job.status <;> simp [taskOf, outcomeOf, hstatus]

section Jobs

variable {wave : Option Nat} {reverts : Bool} {job : SoftwareManagementJob} {id : Nat}

theorem mem_jobsOf :
    (job, id) ∈ jobsOf s wave reverts ↔
      s.jobs[id]? = some job ∧ job.rollbackOf.isSome = reverts ∧
        wave.all (· = job.campaignWave) = true := by
  simp [jobsOf, List.mem_insertionSort, List.mem_filter, List.mem_zipIdx_iff_getElem?]

theorem jobsOf_ids_nodup : ((jobsOf s wave reverts).map (·.2)).Nodup := by
  have sorted := (List.perm_insertionSort jobBefore (s.jobs.zipIdx.filter fun entry =>
    entry.1.rollbackOf.isSome = reverts && wave.all (· = entry.1.campaignWave))).map (·.2)
  refine sorted.nodup_iff.mpr ?_
  refine List.Nodup.sublist (List.filter_sublist.map _) ?_
  rw [List.zipIdx_map_snd]
  exact List.nodup_range'

theorem ended_of_none_in_flight
    (none_running : (jobsOf s (some n) false).any (fun (job, _) => inFlight job) = false)
    (found : (rolloutOf s).tasks[id]? = some t) (forward : t.undoes = none) (stage : t.stage = n) :
    t.outcome ≠ .running := by
  obtain ⟨job, hjob, rfl⟩ := task_found found
  intro running
  have mem : (job, id) ∈ jobsOf s (some n) false :=
    mem_jobsOf.mpr ⟨hjob, by simpa [taskOf] using forward, by simpa [taskOf, eq_comm] using stage⟩
  have idle := List.any_eq_false.mp none_running (job, id) mem
  exact idle (taskOf_running.mp running)

theorem noUndoRunning_of_none_in_flight
    (none_running : revertsRunning s = false) : (rolloutOf s).NoUndoRunning := by
  intro id t found undo running
  obtain ⟨job, hjob, rfl⟩ := task_found found
  have mem : (job, id) ∈ jobsOf s none true :=
    mem_jobsOf.mpr ⟨hjob, by simpa [taskOf, Option.isSome_iff_ne_none] using undo, rfl⟩
  have idle := List.any_eq_false.mp none_running (job, id) mem
  exact idle (taskOf_running.mp running)

theorem noneRunning_allEnded
    (none_running : (jobsOf s none false).filter (fun (job, _) => inFlight job) = []) :
    (rolloutOf s).AllEnded := by
  intro id t found forward running
  obtain ⟨job, hjob, rfl⟩ := task_found found
  have mem : (job, id) ∈ jobsOf s none false :=
    mem_jobsOf.mpr ⟨hjob, by simpa [taskOf] using forward, rfl⟩
  have idle := List.filter_eq_nil_iff.mp none_running (job, id) mem
  exact idle (taskOf_running.mp running)

end Jobs

theorem fireCampaign_ok {state state' : CampaignState} {event : CampaignEvent}
    (h : fireCampaign state event = .ok state') : campaignFsm.fire state event = .ok state' := by
  rw [fireCampaign] at h
  cases hfire : campaignFsm.fire state event with
  | error exc => simp [hfire, Except.mapError] at h
  | ok fired => simpa [hfire, Except.mapError] using h

theorem fireSoftware_ok {state state' : SwmState} {event : SwmEvent}
    (h : fireSoftware state event = .ok state') :
    softwareManagementFsm.fire state event = .ok state' := by
  rw [fireSoftware] at h
  cases hfire : softwareManagementFsm.fire state event with
  | error exc => simp [hfire, Except.mapError] at h
  | ok fired => simpa [hfire, Except.mapError] using h

section Starting

/-- The job `startSoftwareJob` adds. -/
def startedJob (ref : String) (wave : Nat) (rollbackOf : Option Nat) (version : Option String) :
    SoftwareManagementJob :=
  { managedElementRef := ref, campaignWave := wave, rollbackOf, softwareVersion := version,
    status := .inProgress }

theorem startSoftwareJob_eq (ref : String) (wave : Nat) (rollbackOf : Option Nat)
    (version : Option String) :
    startSoftwareJob s ref wave rollbackOf version =
      .ok { s with jobs := s.jobs ++ [startedJob ref wave rollbackOf version] } := rfl

theorem startForward_eq (refs : List String) (wave : Nat) :
    refs.foldlM (fun s ref => startSoftwareJob s ref wave none s.c.softwareVersion) s =
      .ok { s with
        jobs := s.jobs ++ refs.map fun ref => startedJob ref wave none s.c.softwareVersion } := by
  induction refs generalizing s with
  | nil => simp [pure, Except.pure]
  | cons ref rest ih =>
    rw [List.foldlM_cons, startSoftwareJob_eq]
    simp only [bind, Except.bind, ih, List.map_cons, List.append_assoc, List.singleton_append]

theorem startReverting_eq (step : List (SoftwareManagementJob × Nat)) :
    step.foldlM (fun s job =>
        startSoftwareJob s job.1.managedElementRef job.1.campaignWave (some job.2) none) s =
      .ok { s with
        jobs := s.jobs ++ step.map fun job =>
          startedJob job.1.managedElementRef job.1.campaignWave (some job.2) none } := by
  induction step generalizing s with
  | nil => simp [pure, Except.pure]
  | cons job rest ih =>
    rw [List.foldlM_cons, startSoftwareJob_eq]
    simp only [bind, Except.bind, ih, List.map_cons, List.append_assoc, List.singleton_append]

theorem startWave_ok {wave : Nat} (h : startWave w s wave = .ok s') :
    rolloutOf s' = { rolloutOf s with
      current := wave
      tasks := (rolloutOf s).tasks ++ Rollout.stageTasks wave (waveElements s.c wave) } ∧
    s'.c.status = s.c.status ∧ s'.c.currentWave = wave ∧ s'.c.waveCount = s.c.waveCount := by
  simp only [startWave, startForward_eq, bind, Except.bind, pure, Except.pure,
    Except.ok.injEq] at h
  subst h
  refine ⟨?_, rfl, rfl, rfl⟩
  simp only [rolloutOf_log]
  simp only [rolloutOf, List.map_append, List.map_map, Rollout.stageTasks]
  rfl

theorem waveElements_eq (c : SoftwareCampaign) (k : Nat) :
    waveElements c (k + 1) = Slices.slice (sizeOfWaves c) c.elements k := by
  simp [waveElements, Slices.slice, Nat.succ_mul]

theorem planned_next (more : s.c.currentWave < s.c.waveCount) :
    (rolloutOf s).plan[(rolloutOf s).current]? = some (waveElements s.c (s.c.currentWave + 1)) := by
  simp [rolloutOf, Rollout.plan, more, waveElements_eq]

theorem startNext_moves (h : startWave w s (s.c.currentWave + 1) = .ok s')
    (running : s.c.status = .running) (ended : (rolloutOf s).AllEnded)
    (more : s.c.currentWave < s.c.waveCount) : Moves (rolloutOf s) (rolloutOf s') := by
  obtain ⟨started, -⟩ := startWave_ok h
  rw [started]
  exact .single (.startStage _ (by simp [rolloutOf, phaseOf, running]) ended (planned_next more))

theorem finish_ok (h : finish w s = .ok s') :
    s.c.status = .running ∧ rolloutOf s' = { rolloutOf s with phase := .completed } ∧
      s'.c.status = .completed := by
  obtain ⟨status, fired, h⟩ := bind_ok h
  obtain ⟨running, rfl⟩ := campaign_fire_finish (fireCampaign_ok fired)
  cases h
  exact ⟨running, rfl, rfl⟩

theorem halt_ok {reason : HaltedReason} {detail : Option String} {nextAt : Option Time}
    {requester : Option String} (h : halt w s reason detail nextAt requester = .ok s') :
    s.c.status = .running ∧
      rolloutOf s' = { rolloutOf s with phase := .halted (answered (some reason)) } ∧
      s'.c.status = .halted := by
  obtain ⟨status, fired, h⟩ := bind_ok h
  obtain ⟨running, rfl⟩ := campaign_fire_halt (fireCampaign_ok fired)
  cases h
  exact ⟨running, rfl, rfl⟩

end Starting

section Undone

variable {reverts : List SoftwareManagementJob} {o : Nat} {best : RevertState}

/-- The state of one revert of an original, none of whose reverts is in a better one. -/
def IsBest (reverts : List SoftwareManagementJob) (o : Nat) (best : RevertState) : Prop :=
  (∃ r ∈ reverts, r.rollbackOf = some o ∧ revertState r = best) ∧
    ∀ r ∈ reverts, r.rollbackOf = some o → (revertState r).rank ≤ best.rank

/-- Each entry is the best state of its original, and every original a revert names
has one. -/
structure Best (state : List (Nat × RevertState)) (reverts : List SoftwareManagementJob) : Prop where
  held : ∀ o best, (o, best) ∈ state → IsBest reverts o best
  named : ∀ r ∈ reverts, ∀ o, r.rollbackOf = some o → ∃ best, (o, best) ∈ state

variable {state : List (Nat × RevertState)} {revert : SoftwareManagementJob}

theorem mem_of_lookup (h : state.lookup o = some best) : (o, best) ∈ state := by
  obtain ⟨before, after, rfl, -⟩ := List.lookup_eq_some_iff.mp h
  simp

theorem not_mem_of_lookup_none (h : state.lookup o = none) : (o, best) ∉ state := by
  intro mem
  simpa using List.lookup_eq_none_iff.mp h (o, best) mem

theorem IsBest.snoc_other (h : IsBest reverts o best) (other : revert.rollbackOf ≠ some o) :
    IsBest (reverts ++ [revert]) o best := by
  obtain ⟨⟨r, hr, of, same⟩, top⟩ := h
  refine ⟨⟨r, by simp [hr], of, same⟩, ?_⟩
  intro r' hr' of'
  rcases List.mem_append.mp hr' with hr' | hr'
  · exact top r' hr' of'
  · obtain rfl := List.mem_singleton.mp hr'
    exact absurd of' other

theorem IsBest.snoc_mine (h : IsBest reverts o best)
    (notBetter : (revertState revert).rank ≤ best.rank) : IsBest (reverts ++ [revert]) o best := by
  obtain ⟨⟨r, hr, of, same⟩, top⟩ := h
  refine ⟨⟨r, by simp [hr], of, same⟩, ?_⟩
  intro r' hr' of'
  rcases List.mem_append.mp hr' with hr' | hr'
  · exact top r' hr' of'
  · rw [List.mem_singleton.mp hr']
    exact notBetter

theorem isBest_last (of : revert.rollbackOf = some o)
    (top : ∀ r ∈ reverts, r.rollbackOf = some o → (revertState r).rank ≤ (revertState revert).rank)
    : IsBest (reverts ++ [revert]) o (revertState revert) := by
  refine ⟨⟨revert, by simp, of, rfl⟩, ?_⟩
  intro r hr of'
  rcases List.mem_append.mp hr with hr | hr
  · exact top r hr of'
  · rw [List.mem_singleton.mp hr]

theorem Best.snoc {state' : List (Nat × RevertState)} (h : Best state reverts)
    (of : revert.rollbackOf = some o)
    (others : ∀ o' best, o' ≠ o → ((o', best) ∈ state' ↔ (o', best) ∈ state))
    (mine : ∀ best, (o, best) ∈ state' → IsBest (reverts ++ [revert]) o best)
    (entry : ∃ best, (o, best) ∈ state') : Best state' (reverts ++ [revert]) where
  held := by
    intro o' best mem
    by_cases same : o' = o
    · subst same
      exact mine best mem
    · refine IsBest.snoc_other (h.held o' best ((others o' best same).mp mem)) ?_
      rw [of]
      simpa [eq_comm] using same
  named := by
    intro r hr o' of'
    by_cases same : o' = o
    · rw [same]
      exact entry
    · rcases List.mem_append.mp hr with hr | hr
      · obtain ⟨best, held⟩ := h.named r hr o' of'
        exact ⟨best, (others o' best same).mpr held⟩
      · obtain rfl := List.mem_singleton.mp hr
        exact absurd (Option.some.inj (of'.symm.trans of)) same

theorem Best.note (h : Best state reverts) (revert : SoftwareManagementJob) :
    Best (noteRevert state revert) (reverts ++ [revert]) := by
  cases of : revert.rollbackOf with
  | none =>
    simp only [noteRevert, of]
    refine ⟨fun o best mem => IsBest.snoc_other (h.held o best mem) (by simp [of]), ?_⟩
    intro r hr o of'
    rcases List.mem_append.mp hr with hr | hr
    · exact h.named r hr o of'
    · obtain rfl := List.mem_singleton.mp hr
      simp [of] at of'
  | some original =>
    simp only [noteRevert, of]
    cases found : state.lookup original with
    | none =>
      refine h.snoc of ?_ ?_ ⟨revertState revert, by simp⟩
      · intro o' best differ
        simp [differ]
      · intro best mem
        have last : best = revertState revert := by
          simpa [not_mem_of_lookup_none found] using mem
        rw [last]
        refine isBest_last of fun r hr of' => ?_
        obtain ⟨best, held⟩ := h.named r hr original of'
        exact absurd held (not_mem_of_lookup_none found)
    | some best =>
      have inState := mem_of_lookup found
      have held := h.held original best inState
      dsimp only
      by_cases better : (revertState revert).rank > best.rank
      · rw [if_pos better]
        refine h.snoc of ?_ ?_ ⟨revertState revert, ?_⟩
        · intro o' best' differ
          simp only [List.mem_map, Prod.exists]
          constructor
          · rintro ⟨id, entry, mem, same⟩
            by_cases equal : id = original
            · simp only [equal, if_true, Prod.mk.injEq] at same
              exact absurd same.1.symm differ
            · simp only [equal, if_false] at same
              rwa [← same]
          · intro mem
            exact ⟨o', best', mem, by rw [if_neg differ]⟩
        · intro best' mem
          obtain ⟨⟨id, entry⟩, mem, same⟩ := List.mem_map.mp mem
          have mine : best' = revertState revert := by
            by_cases equal : id = original
            · simpa [equal, eq_comm] using same
            · simp [equal] at same
          rw [mine]
          exact isBest_last of fun r hr of' => (held.2 r hr of').trans better.le
        · exact List.mem_map.mpr ⟨(original, best), inState, by simp⟩
      · rw [if_neg better]
        refine h.snoc of (fun _ _ _ => Iff.rfl) ?_ ⟨best, inState⟩
        intro best' mem
        obtain ⟨r, hr, of', same⟩ := held.1
        have above := (h.held original best' mem).2 r hr of'
        rw [same] at above
        exact IsBest.snoc_mine (h.held original best' mem) ((Nat.not_lt.mp better).trans above)

theorem Best.noteAll (h : Best state reverts) (more : List (SoftwareManagementJob × Nat)) :
    Best (more.foldl (fun state revert => noteRevert state revert.1) state)
      (reverts ++ more.map (·.1)) := by
  induction more generalizing state reverts with
  | nil => simpa using h
  | cons revert rest ih =>
    have next := ih (h.note revert.1)
    rwa [List.append_assoc] at next

theorem undone_best (reverts : List (SoftwareManagementJob × Nat)) :
    Best (undone reverts) (reverts.map (·.1)) := by
  have none_yet : Best [] [] := ⟨by simp, by simp⟩
  exact none_yet.noteAll reverts

end Undone

section Rollback

variable {job : SoftwareManagementJob} {id : Nat}

variable {outcome : Staged.Outcome}

theorem revertState_outcome {revert : SoftwareManagementJob} :
    (taskOf revert).outcome = outcome ↔ revertState revert = match outcome with
      | .done => RevertState.completed
      | .running => .inProgress
      | .failed => .failed := by
  cases hstatus : revert.status <;> cases outcome <;>
    simp [taskOf, outcomeOf, revertState, inFlight, hstatus]

theorem undo_iff {o : Nat} : (rolloutOf s).Undo o outcome ↔ ∃ r ∈ (jobsOf s none true).map (·.1),
      r.rollbackOf = some o ∧ (taskOf r).outcome = outcome := by
  constructor
  · rintro ⟨id, t, found, undoes, same⟩
    obtain ⟨r, hr, rfl⟩ := task_found found
    have undoes : r.rollbackOf = some o := undoes
    exact ⟨r, List.mem_map.mpr ⟨(r, id), mem_jobsOf.mpr ⟨hr, by simp [undoes], rfl⟩, rfl⟩,
      undoes, same⟩
  · rintro ⟨r, mem, undoes, same⟩
    obtain ⟨⟨r, id⟩, listed, rfl⟩ := List.mem_map.mp mem
    obtain ⟨hr, -, -⟩ := mem_jobsOf.mp listed
    exact ⟨id, taskOf r, by rw [rolloutOf_task, hr, Option.map_some], undoes, same⟩

theorem lookup_undone {o : Nat} {best : RevertState}
    (found : (undone (jobsOf s none true)).lookup o = some best) :
    IsBest ((jobsOf s none true).map (·.1)) o best :=
  (undone_best _).held o best (mem_of_lookup found)

theorem lookup_undone_none {o : Nat} (absent : (undone (jobsOf s none true)).lookup o = none)
    (outcome : Staged.Outcome) : ¬(rolloutOf s).Undo o outcome := by
  intro undo
  obtain ⟨r, mem, undoes, -⟩ := undo_iff.mp undo
  obtain ⟨best, entry⟩ := (undone_best _).named r mem o undoes
  exact not_mem_of_lookup_none absent entry

theorem mem_revertTargets :
    (job, id) ∈ revertTargets s (jobsOf s none true) ↔
      s.jobs[id]? = some job ∧ (rolloutOf s).Target id (taskOf job) := by
  have done : (rolloutOf s).Done id (taskOf job) ∧ s.jobs[id]? = some job ↔
      s.jobs[id]? = some job ∧ job.rollbackOf = none ∧ job.status = .completed := by
    constructor
    · rintro ⟨⟨-, forward, done⟩, hjob⟩
      exact ⟨hjob, forward, taskOf_done.mp done⟩
    · rintro ⟨hjob, forward, done⟩
      exact ⟨⟨by rw [rolloutOf_task, hjob, Option.map_some], forward, taskOf_done.mpr done⟩, hjob⟩
  have undo : (undone (jobsOf s none true)).lookup id ≠ some .completed ∧
      (undone (jobsOf s none true)).lookup id ≠ some .inProgress ↔
      ¬(rolloutOf s).Undo id .done ∧ ¬(rolloutOf s).Undo id .running := by
    cases found : (undone (jobsOf s none true)).lookup id with
    | none => simp [lookup_undone_none found]
    | some best =>
      obtain ⟨⟨r, mem, of, same⟩, top⟩ := lookup_undone found
      have holds (outcome : Staged.Outcome) (h : (taskOf r).outcome = outcome) :
          (rolloutOf s).Undo id outcome := undo_iff.mpr ⟨r, mem, of, h⟩
      cases best with
      | completed => simp [holds .done (revertState_outcome.mpr same)]
      | inProgress => simp [holds .running (revertState_outcome.mpr same)]
      | failed =>
        simp only [ne_eq, Option.some.injEq, reduceCtorEq, not_false_eq_true, and_self, true_iff]
        constructor
        all_goals
          intro better
          obtain ⟨r', mem', of', outcome⟩ := undo_iff.mp better
          have rank := top r' mem' of'
          rw [revertState_outcome.mp outcome] at rank
          simp [RevertState.rank] at rank
  simp only [revertTargets, List.mem_filter, mem_jobsOf, Bool.and_eq_true, decide_eq_true_eq]
  constructor
  · rintro ⟨⟨hjob, forward, -⟩, ⟨completed, notDone⟩, notRunning⟩
    have forward : job.rollbackOf = none := by simpa using forward
    exact ⟨hjob, (done.mpr ⟨hjob, forward, completed⟩).1, undo.mp ⟨notDone, notRunning⟩⟩
  · rintro ⟨hjob, isDone, notUndone⟩
    obtain ⟨-, forward, completed⟩ := done.mp ⟨isDone, hjob⟩
    obtain ⟨notDone, notRunning⟩ := undo.mpr notUndone
    exact ⟨⟨hjob, by simp [forward], by simp⟩, ⟨completed, notDone⟩, notRunning⟩

section Step

variable {targets : List (SoftwareManagementJob × Nat)}

def lastWave (targets : List (SoftwareManagementJob × Nat)) : Nat :=
  targets.foldl (fun last job => max last job.1.campaignWave) 0

theorem lastWave_spec (targets : List (SoftwareManagementJob × Nat)) (start : Nat) :
    let last := targets.foldl (fun last job => max last job.1.campaignWave) start
    start ≤ last ∧ (∀ job ∈ targets, job.1.campaignWave ≤ last) ∧
      (last = start ∨ ∃ job ∈ targets, job.1.campaignWave = last) := by
  induction targets generalizing start with
  | nil => simp
  | cons job rest ih =>
    obtain ⟨above, all, attained⟩ := ih (max start job.1.campaignWave)
    refine ⟨(le_max_left _ _).trans above, ?_, ?_⟩
    · intro job' mem
      rcases List.mem_cons.mp mem with rfl | mem
      · exact (le_max_right _ _).trans above
      · exact all job' mem
    · rcases attained with same | ⟨job', mem, same⟩
      · rcases Nat.le_total job.1.campaignWave start with below | below
        · exact Or.inl (same.trans (Nat.max_eq_left below))
        · exact Or.inr ⟨job, by simp, (same.trans (Nat.max_eq_right below)).symm⟩
      · exact Or.inr ⟨job', by simp [mem], same⟩

theorem mem_stepTargets {order : RollbackOrder} {job : SoftwareManagementJob × Nat} :
    job ∈ stepTargets order targets ↔
      job ∈ targets ∧ (order = .reverse → job.1.campaignWave = lastWave targets) := by
  cases order with
  | all => simp [stepTargets]
  | reverse => simp [stepTargets, lastWave]

theorem stepTargets_sublist (order : RollbackOrder) :
    (stepTargets order targets).Sublist targets := by
  cases order with
  | all => exact List.Sublist.refl _
  | reverse => exact List.filter_sublist

theorem stepTargets_ne_nil (order : RollbackOrder) (some : targets ≠ []) :
    stepTargets order targets ≠ [] := by
  obtain ⟨-, all, attained⟩ := lastWave_spec targets 0
  intro empty
  have notIn (job : SoftwareManagementJob × Nat) (mem : job ∈ targets)
      (last : job.1.campaignWave = lastWave targets) : False := by
    have inStep : job ∈ stepTargets order targets := mem_stepTargets.mpr ⟨mem, fun _ => last⟩
    simp [empty] at inStep
  rcases attained with zero | ⟨job, mem, last⟩
  · obtain ⟨job, mem⟩ := List.exists_mem_of_ne_nil _ some
    have last : lastWave targets = 0 := zero
    have below : job.1.campaignWave ≤ lastWave targets := all job mem
    exact notIn job mem (by omega)
  · exact notIn job mem last

end Step

theorem rolloutOf_noteStep (w : Surroundings) (s : CampaignRows)
    (targets : List (SoftwareManagementJob × Nat)) (count : Nat) :
    rolloutOf (noteStep w s targets count) = rolloutOf s := by
  simp only [noteStep]
  split <;> split <;> rfl

theorem noteStep_status (w : Surroundings) (s : CampaignRows)
    (targets : List (SoftwareManagementJob × Nat)) (count : Nat) :
    (noteStep w s targets count).c.status = s.c.status := by
  simp only [noteStep]
  split <;> split <;> rfl

theorem startReverts_ok {targets : List (SoftwareManagementJob × Nat)} {count : Nat}
    (are_targets : ∀ job id, (job, id) ∈ targets ↔
      s.jobs[id]? = some job ∧ (rolloutOf s).Target id (taskOf job))
    (nodup : (targets.map (·.2)).Nodup) (h : startReverts w s targets = .ok (s', count)) :
    ∃ batch, (rolloutOf s).Batch batch ∧
      rolloutOf s' = { rolloutOf s with
        tasks := (rolloutOf s).tasks ++ (rolloutOf s).undoTasks batch } ∧
      s'.c.status = s.c.status ∧ (count = 0 → targets = [] ∧ rolloutOf s' = rolloutOf s) := by
  have found {o : Nat} {f : Staged.Task String} (target : (rolloutOf s).Target o f) :
      ∃ job, s.jobs[o]? = some job ∧ f = taskOf job ∧ (job, o) ∈ targets := by
    obtain ⟨job, hjob, rfl⟩ := task_found target.1.1
    exact ⟨job, hjob, rfl, (are_targets job o).mpr ⟨hjob, target⟩⟩
  let step := stepTargets s.c.rollbackOrder targets
  have batch : (rolloutOf s).Batch (step.map (·.2)) := {
    nodup := nodup.sublist ((stepTargets_sublist _).map _)
    targets := by
      intro o mem
      obtain ⟨⟨job, id⟩, listed, rfl⟩ := List.mem_map.mp mem
      exact ⟨_, ((are_targets job id).mp (mem_stepTargets.mp listed).1).2⟩
    all := by
      intro all o f target
      obtain ⟨job, -, -, mem⟩ := found target
      refine List.mem_map.mpr ⟨(job, o), mem_stepTargets.mpr ⟨mem, fun reverse => ?_⟩, rfl⟩
      simp [rolloutOf, reverse] at all
    last := by
      intro reverse o mem f target o' f' target'
      obtain ⟨⟨job, id⟩, listed, rfl⟩ := List.mem_map.mp mem
      have reverse : s.c.rollbackOrder = .reverse := by simpa [rolloutOf] using reverse
      have last := (mem_stepTargets.mp listed).2 reverse
      obtain ⟨same, -⟩ := (are_targets job id).mp (mem_stepTargets.mp listed).1
      obtain ⟨job₁, same₁, rfl, -⟩ := found target
      obtain ⟨job', -, rfl, mem'⟩ := found target'
      obtain rfl := Option.some.inj (same.symm.trans same₁)
      have below : job'.campaignWave ≤ lastWave targets := (lastWave_spec targets 0).2.1 _ mem'
      exact below.trans last.ge }
  have added : (step.map fun job => taskOf (startedJob job.1.managedElementRef
      job.1.campaignWave (some job.2) none)) = (rolloutOf s).undoTasks (step.map (·.2)) := by
    rw [Rollout.undoTasks, List.filterMap_map, ← List.filterMap_eq_map]
    refine List.filterMap_congr fun job mem => ?_
    obtain ⟨job, id⟩ := job
    obtain ⟨hjob, -⟩ := (are_targets job id).mp (mem_stepTargets.mp mem).1
    simp only [Function.comp_apply, rolloutOf_task, hjob, Option.map_some]
    rfl
  obtain ⟨s₁, started, h⟩ := bind_ok h
  rw [startReverting_eq] at started
  cases started
  cases h
  have noted := rolloutOf_noteStep w s targets step.length
  refine ⟨step.map (·.2), batch, ?_, noteStep_status w s targets step.length, ?_⟩
  · rw [← added, ← noted]
    simp [rolloutOf, phaseOf, step]
  · intro zero
    have empty : step = [] := List.length_eq_zero_iff.mp zero
    have none_ : targets = [] := by
      by_contra some
      exact stepTargets_ne_nil s.c.rollbackOrder some empty
    refine ⟨none_, ?_⟩
    rw [← noted]
    simp only [step] at empty
    simp [rolloutOf, phaseOf, step, empty]

end Rollback

end Smo.RanNfOam.Lifecycle
