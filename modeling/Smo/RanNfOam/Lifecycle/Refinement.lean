import Smo.RanNfOam.Lifecycle.Simulation

/-! Every operation on a campaign is a sequence of moves of its rollout, so the
invariants of rollouts hold of the rows an operation leaves. -/
namespace Smo.RanNfOam.Lifecycle

open Staged (Rollout Move Moves)

variable {w : Surroundings} {s s' : CampaignRows}

structure Sound (s : CampaignRows) : Prop where
  plan : Staged.Inv (rolloutOf s)
  undo : Staged.UndoInv (rolloutOf s)

theorem Sound.moves (h : Sound s) (moves : Moves (rolloutOf s) (rolloutOf s')) : Sound s' :=
  ⟨h.plan.moves moves, h.undo.moves h.plan moves⟩

theorem phaseOf_of_status {c : SoftwareCampaign} (running : c.status = .running) :
    phaseOf c = .running := by
  simp [phaseOf, running]

theorem phaseOf_rollingBack {c : SoftwareCampaign} :
    phaseOf c = .rollingBack ↔ c.status = .rollingBack := by
  cases hstatus : c.status <;> simp [phaseOf, hstatus]

theorem targets_nodup : ((revertTargets s (jobsOf s none true)).map (·.2)).Nodup :=
  jobsOf_ids_nodup.sublist (List.filter_sublist.map _)

theorem undo_state_of_idle (idle : (rolloutOf s).NoUndoRunning) {o : Nat} {best : RevertState}
    (entry : (o, best) ∈ undone (jobsOf s none true)) : best = .failed ∨ (rolloutOf s).Undo o .done := by
  obtain ⟨⟨r, mem, of, same⟩, -⟩ := (undone_best _).held o best entry
  cases best with
  | failed => exact Or.inl rfl
  | completed => exact Or.inr (undo_iff.mpr ⟨r, mem, of, revertState_outcome.mpr same⟩)
  | inProgress =>
    have running : (taskOf r).outcome = .running := revertState_outcome.mpr same
    obtain ⟨i, t, found, undoes, running⟩ := undo_iff.mpr ⟨r, mem, of, running⟩
    exact absurd running (idle i t found (by simp [undoes]))

theorem failRollback_ok {failed : Nat} (h : failRollback w s failed = .ok s') :
    s.c.status = .rollingBack ∧ rolloutOf s' = { rolloutOf s with phase := .rollbackFailed } := by
  obtain ⟨status, fired, h⟩ := bind_ok h
  obtain ⟨rolling, rfl⟩ := campaign_fire_rollbackFailed (fireCampaign_ok fired)
  cases h
  exact ⟨rolling, rfl⟩

theorem endRollback_ok {jobs : Nat} (h : endRollback w s jobs = .ok s') :
    s.c.status = .rollingBack ∧ rolloutOf s' = { rolloutOf s with phase := .rolledBack } := by
  obtain ⟨status, fired, h⟩ := bind_ok h
  obtain ⟨rolling, rfl⟩ := campaign_fire_rollbackDone (fireCampaign_ok fired)
  cases h
  exact ⟨rolling, rfl⟩

theorem undone_of_none_failed (idle : (rolloutOf s).NoUndoRunning) (none_failed : failedReverts s = []) :
    ∀ o outcome, (rolloutOf s).Undo o outcome → (rolloutOf s).Undo o .done := by
  intro o outcome undo
  obtain ⟨r, mem, of, -⟩ := undo_iff.mp undo
  obtain ⟨best, entry⟩ := (undone_best _).named r mem o of
  rcases undo_state_of_idle idle entry with rfl | done
  · simpa using List.filter_eq_nil_iff.mp none_failed _ entry
  · exact done

theorem progressRollback_moves (rolling : s.c.status = .rollingBack)
    (h : progressRollback w s = .ok s') : Moves (rolloutOf s) (rolloutOf s') := by
  have undoing := phaseOf_rollingBack.mpr rolling
  unfold progressRollback at h
  by_cases busy : revertsRunning s = true
  · rw [if_pos busy] at h
    cases h
    exact .refl
  have idle := noUndoRunning_of_none_in_flight (Bool.eq_false_iff.mpr busy)
  rw [if_neg busy] at h
  by_cases failed : failedReverts s ≠ []
  · rw [if_pos failed] at h
    obtain ⟨-, same⟩ := failRollback_ok h
    obtain ⟨⟨o, best⟩, mem⟩ := List.exists_mem_of_ne_nil _ failed
    obtain ⟨entry, isFailed⟩ := List.mem_filter.mp mem
    obtain rfl : best = .failed := by simpa using isFailed
    obtain ⟨⟨r, inReverts, of, state⟩, -⟩ := (undone_best _).held o _ entry
    rw [same]
    exact .single (.rollbackFailed o undoing idle
      (undo_iff.mpr ⟨r, inReverts, of, revertState_outcome.mpr state⟩))
  rw [if_neg failed] at h
  have undone_all := undone_of_none_failed idle (not_not.mp failed)
  by_cases reverse : s.c.rollbackOrder = .reverse
  · rw [if_pos reverse] at h
    obtain ⟨⟨s₁, started⟩, reverted, h⟩ := bind_ok h
    obtain ⟨batch, taken, added, -, none_started⟩ :=
      startReverts_ok (fun _ _ => mem_revertTargets) targets_nodup reverted
    by_cases zero : started = 0
    · obtain ⟨no_targets, same⟩ := none_started zero
      simp only [zero, ne_eq, not_true_eq_false, if_false] at h
      obtain ⟨-, ended⟩ := endRollback_ok h
      rw [ended, same]
      refine .single (.rollbackDone undoing idle undone_all ?_)
      intro _ o f target
      obtain ⟨job, hjob, rfl⟩ := task_found target.1.1
      have mem := mem_revertTargets.mpr ⟨hjob, target⟩
      simp [no_targets] at mem
    · simp only [ne_eq, zero, not_false_eq_true, if_true] at h
      cases h
      rw [added]
      exact .single (.undoNext batch undoing (by simp [rolloutOf, reverse]) idle taken)
  · rw [if_neg reverse] at h
    obtain ⟨-, ended⟩ := endRollback_ok h
    rw [ended]
    refine .single (.rollbackDone undoing idle undone_all ?_)
    intro last
    exact absurd (by simpa [rolloutOf] using last) reverse

theorem startRollback_moves (sound : Sound s) (ended : (rolloutOf s).AllEnded) {why : String}
    {requester : Option String} (h : startRollback w s why requester = .ok s') :
    Moves (rolloutOf s) (rolloutOf s') := by
  obtain ⟨status, fired, h⟩ := bind_ok h
  obtain ⟨rfl, from_⟩ := campaign_fire_rollback (fireCampaign_ok fired)
  obtain ⟨⟨s₁, started⟩, reverted, h⟩ := bind_ok h
  have idle : (rolloutOf s).NoUndoRunning := by
    intro i t found undo running
    have rolling := phaseOf_rollingBack.mp (sound.undo.running i t found undo running)
    simp [rolling] at from_
  obtain ⟨batch, taken, added, rolling, -⟩ :=
    startReverts_ok (fun _ _ => mem_revertTargets) targets_nodup reverted
  have begun : Moves (rolloutOf s) (rolloutOf s₁) := by
    rw [added]
    exact .single (.rollback batch ended idle ⟨taken.nodup, taken.targets, taken.all, taken.last⟩)
  by_cases zero : started = 0
  · simp only [zero, if_true] at h
    exact begun.trans (progressRollback_moves rolling h)
  · simp only [zero, if_false] at h
    cases h
    exact begun

theorem allEnded_of_wave (sound : Sound s)
    (none_running : (jobsOf s (some s.c.currentWave) false).any (fun (job, _) => inFlight job) = false) :
    (rolloutOf s).AllEnded :=
  sound.plan.allEnded fun _ _ found forward stage =>
    ended_of_none_in_flight none_running found forward stage

theorem failGate_moves (sound : Sound s) (ended : (rolloutOf s).AllEnded) {failure : String}
    (h : failGate w s failure = .ok s') : Moves (rolloutOf s) (rolloutOf s') := by
  unfold failGate at h
  split at h
  · exact startRollback_moves sound ended h
  · obtain ⟨running, halted, -⟩ := halt_ok h
    rw [halted]
    exact .single (.halt _ (phaseOf_of_status running) fun _ => ended)

theorem passGate_moves (running : s.c.status = .running) (ended : (rolloutOf s).AllEnded)
    (h : passGate w s = .ok result) (leaves : result = .inl s' ∨ result = .inr s') :
    Moves (rolloutOf s) (rolloutOf s') := by
  have phase : (rolloutOf s).phase = .running := phaseOf_of_status running
  unfold passGate at h
  split at h
  next last =>
    obtain ⟨s₁, finished, rfl⟩ := map_ok h
    obtain ⟨⟨⟩⟩ | ⟨⟨⟩⟩ := leaves
    obtain ⟨-, same, -⟩ := finish_ok finished
    rw [same]
    exact .single (.finish phase ended (by rw [Staged.length_plan]; exact last))
  next more =>
    split at h
    · obtain ⟨s₁, halted, rfl⟩ := map_ok h
      obtain ⟨⟨⟩⟩ | ⟨⟨⟩⟩ := leaves
      obtain ⟨-, same, -⟩ := halt_ok halted
      rw [same]
      exact .single (.halt _ phase fun _ => ended)
    · obtain ⟨s₁, started, rfl⟩ := map_ok h
      obtain ⟨⟨⟩⟩ | ⟨⟨⟩⟩ := leaves
      exact startNext_moves started running ended (Nat.not_le.mp more)

theorem waveStep_moves (sound : Sound s) (running : s.c.status = .running)
    (h : waveStep w s = .ok result) (leaves : result = .inl s' ∨ result = .inr s') :
    Moves (rolloutOf s) (rolloutOf s') := by
  unfold waveStep at h
  dsimp only at h
  split at h
  · cases h
    obtain ⟨⟨⟩⟩ | ⟨⟨⟩⟩ := leaves
    exact .refl
  next none_running =>
    have ended := allEnded_of_wave sound (Bool.eq_false_iff.mpr none_running)
    split at h
    next failure _ =>
      obtain ⟨s₁, failed, rfl⟩ := map_ok h
      obtain ⟨⟨⟩⟩ | ⟨⟨⟩⟩ := leaves
      generalize hlogged : log w s .gateFailed (some failure) none none none = logged at failed
      have same : rolloutOf logged = rolloutOf s := hlogged ▸ rfl
      rw [← same]
      exact failGate_moves ⟨same ▸ sound.plan, same ▸ sound.undo⟩ (same ▸ ended) failed
    · generalize hlogged : log w s .gatePassed _ none none none = logged at h
      have same : rolloutOf logged = rolloutOf s := hlogged ▸ rfl
      rw [← same]
      exact passGate_moves (hlogged ▸ running) (same ▸ ended) h leaves

theorem waveStep_again (h : waveStep w s = .ok (.inr s')) :
    s'.c.currentWave = s.c.currentWave + 1 ∧ s.c.currentWave < s.c.waveCount ∧
      s'.c.waveCount = s.c.waveCount := by
  unfold waveStep at h
  dsimp only at h
  split at h
  · cases h
  · split at h
    · obtain ⟨_, _, ⟨⟩⟩ := map_ok h
    · generalize hlogged : log w s .gatePassed _ none none none = logged at h
      have wave : logged.c.currentWave = s.c.currentWave := hlogged ▸ rfl
      have count : logged.c.waveCount = s.c.waveCount := hlogged ▸ rfl
      rw [← wave, ← count]
      unfold passGate at h
      split at h
      · obtain ⟨_, _, ⟨⟩⟩ := map_ok h
      next more =>
        split at h
        · obtain ⟨_, _, ⟨⟩⟩ := map_ok h
        · obtain ⟨s₁, started, ⟨⟩⟩ := map_ok h
          obtain ⟨-, -, current, same⟩ := startWave_ok started
          exact ⟨current, Nat.not_le.mp more, same⟩

theorem progressWaveLoop_fuel {fuel fuel' : Nat} (enough : s.c.waveCount < s.c.currentWave + fuel)
    (enough' : s.c.waveCount < s.c.currentWave + fuel') (within : 0 < fuel) (within' : 0 < fuel') :
    progressWaveLoop w fuel s = progressWaveLoop w fuel' s := by
  induction fuel generalizing s fuel' with
  | zero => omega
  | succ fuel ih =>
    cases fuel' with
    | zero => omega
    | succ fuel' =>
      rw [progressWaveLoop, progressWaveLoop]
      split
      · split
        · rfl
        next s₁ stepped =>
          obtain ⟨current, more, count⟩ := waveStep_again stepped
          exact ih (by omega) (by omega) (by omega) (by omega)
        · rfl
      · rfl

/-- The `while` loop of `_progress_wave` ends from every state. -/
theorem progressWave_eq :
    progressWave w s =
      if s.c.status = .running then
        match waveStep w s with
        | .ok (.inl s) => .ok s
        | .ok (.inr s) => progressWave w s
        | .error exc => .error exc
      else .ok s := by
  rw [progressWave, progressWaveLoop]
  by_cases running : s.c.status = .running
  · rw [if_pos running, if_pos running]
    cases stepped : waveStep w s with
    | error exc => rfl
    | ok result =>
      cases result with
      | inl s₁ => rfl
      | inr s₁ =>
        obtain ⟨current, more, count⟩ := waveStep_again stepped
        exact progressWaveLoop_fuel (by omega) (by omega) (by omega) (by omega)
  · rw [if_neg running, if_neg running]

theorem progressWaveLoop_moves (sound : Sound s) {fuel : Nat}
    (h : progressWaveLoop w fuel s = .ok s') : Moves (rolloutOf s) (rolloutOf s') := by
  induction fuel generalizing s with
  | zero =>
    cases h
    exact .refl
  | succ fuel ih =>
    rw [progressWaveLoop] at h
    split at h
    next running =>
      split at h
      next s₁ stepped =>
        cases h
        exact waveStep_moves sound running stepped (Or.inl rfl)
      next s₁ stepped =>
        have first := waveStep_moves sound running stepped (Or.inr rfl)
        exact first.trans (ih (sound.moves first) h)
      · cases h
    · cases h
      exact .refl

theorem progress_moves (sound : Sound s) (h : progress w s = .ok s') :
    Moves (rolloutOf s) (rolloutOf s') := by
  unfold progress at h
  split at h
  · exact progressWaveLoop_moves sound h
  next rolling => exact progressRollback_moves rolling h
  · cases h
    exact .refl

theorem nextWaveOrFinish_moves (running : s.c.status = .running) (ended : (rolloutOf s).AllEnded)
    (h : nextWaveOrFinish w s = .ok s') : Moves (rolloutOf s) (rolloutOf s') := by
  unfold nextWaveOrFinish at h
  split at h
  next last =>
    obtain ⟨-, same, -⟩ := finish_ok h
    rw [same]
    exact .single (.finish (phaseOf_of_status running) ended (by rw [Staged.length_plan]; exact last))
  next more => exact startNext_moves h running ended (Nat.not_le.mp more)

theorem setRunning_ok {requester : Option String} (h : setRunning w s requester = .ok s') :
    rolloutOf s' = { rolloutOf s with phase := .running } ∧ s'.c.status = .running := by
  obtain ⟨status, fired, h⟩ := bind_ok h
  have resumes : campaignFsm.fire .halted .resume = .ok .running := rfl
  obtain rfl := Except.ok.inj (resumes.symm.trans (fireCampaign_ok fired))
  cases h
  exact ⟨rfl, rfl⟩

theorem resume_moves (sound : Sound s) (halted : s.c.status = .halted) {requester : Option String}
    (h : resume w s requester = .ok s') : Moves (rolloutOf s) (rolloutOf s') := by
  have phase : (rolloutOf s).phase = .halted (answered s.c.haltedReason) := by
    simp [rolloutOf, phaseOf, halted]
  obtain ⟨running, resumed, h⟩ := bind_ok h
  obtain ⟨same, status⟩ := setRunning_ok resumed
  have first : Moves (rolloutOf s) (rolloutOf running) := by
    rw [same]
    exact .single (.resume phase)
  have sound' := sound.moves first
  obtain ⟨next, continued, h⟩ := bind_ok h
  have second : Moves (rolloutOf running) (rolloutOf next) := by
    unfold leaveWave at continued
    split at continued
    next decided =>
      have ended : (rolloutOf s).AllEnded := by
        refine sound.plan.settled ?_
        rw [phase]
        simpa [Staged.Phase.settled, answered] using decided
      exact nextWaveOrFinish_moves status (same ▸ ended) continued
    · cases continued
      exact .refl
  exact (first.trans second).trans (progress_moves (sound'.moves second) h)

section Reports

variable {job : SoftwareManagementJob} {id : Nat}

theorem setJob_move {job' : SoftwareManagementJob} (found : s.jobs[id]? = some job)
    (running : inFlight job = true) (same : job' = { job with status := job'.status, phase := job'.phase }) :
    Move (rolloutOf s) (rolloutOf { s with jobs := s.jobs.set id job' }) := by
  have task : (rolloutOf s).tasks[id]? = some (taskOf job) := by
    rw [rolloutOf_task, found, Option.map_some]
  have reported : rolloutOf { s with jobs := s.jobs.set id job' } = { rolloutOf s with
      tasks := (rolloutOf s).tasks.set id { taskOf job with outcome := outcomeOf job'.status } } := by
    rw [same]
    simp [rolloutOf, List.map_set, taskOf]
  rw [reported]
  exact .report id _ _ task (taskOf_running.mpr running)

theorem reportJob_move {succeeded : Bool} (h : reportJob s id succeeded = .ok s') :
    Moves (rolloutOf s) (rolloutOf s') := by
  unfold reportJob at h
  split at h
  · cases h
  next job found =>
    have in_progress {event : SwmEvent} {status : SwmState} (fired : fireSoftware job.status event = .ok status) :
        inFlight job = true := by
      rcases swm_fire_ok (fireSoftware_ok fired) with ⟨pending, -, -⟩ | running
      · simp [inFlight, pending]
      · simp [inFlight, running]
    split at h
    · obtain ⟨status, fired, h⟩ := bind_ok h
      cases h
      exact .single (setJob_move found (in_progress fired) rfl)
    · obtain ⟨status, fired, h⟩ := bind_ok h
      cases h
      exact .single (setJob_move found (in_progress fired) rfl)

theorem reportJob_campaign {succeeded : Bool} (h : reportJob s id succeeded = .ok s') :
    s'.c = s.c := by
  unfold reportJob at h
  split at h
  · cases h
  · split at h
    · obtain ⟨status, fired, h⟩ := bind_ok h
      cases h
      rfl
    · obtain ⟨status, fired, h⟩ := bind_ok h
      cases h
      rfl

theorem expireAll_moves {timeout : Nat} {stuck : List (SoftwareManagementJob × Nat)}
    (running : ∀ job id, (job, id) ∈ stuck → s.jobs[id]? = some job ∧ job.status = .inProgress)
    (nodup : (stuck.map (·.2)).Nodup) (h : stuck.foldlM (expireJob w timeout) s = .ok s') :
    Moves (rolloutOf s) (rolloutOf s') ∧ s'.c.status = s.c.status := by
  induction stuck generalizing s with
  | nil =>
    cases h
    exact ⟨.refl, rfl⟩
  | cons first rest ih =>
    obtain ⟨job, id⟩ := first
    rw [List.foldlM_cons] at h
    obtain ⟨s₁, expired, h⟩ := bind_ok h
    obtain ⟨status, fired, expired⟩ := bind_ok expired
    cases expired
    obtain ⟨found, in_progress⟩ := running job id (by simp)
    have move : Move (rolloutOf s) (rolloutOf { s with jobs := s.jobs.set id { job with status } }) :=
      setJob_move found (by simp [inFlight, in_progress]) rfl
    simp only [List.map_cons, List.nodup_cons] at nodup
    have still : ∀ job' id', (job', id') ∈ rest →
        (s.jobs.set id { job with status })[id']? = some job' ∧ job'.status = .inProgress := by
      intro job' id' mem
      have other : id ≠ id' := by
        rintro rfl
        exact nodup.1 (List.mem_map.mpr ⟨(job', id), mem, rfl⟩)
      obtain ⟨later, stuck⟩ := running job' id' (by simp [mem])
      exact ⟨(List.getElem?_set_ne other).trans later, stuck⟩
    obtain ⟨more, same⟩ := ih still nodup.2 h
    exact ⟨.head move more, same⟩

theorem expireJobs_moves (h : expireJobs w s = .ok s') :
    Moves (rolloutOf s) (rolloutOf s') ∧ s'.c.status = s.c.status := by
  unfold expireJobs at h
  split at h
  · split at h
    · cases h
      exact ⟨.refl, rfl⟩
    · split at h
      · cases h
        exact ⟨.refl, rfl⟩
      · refine expireAll_moves ?_ ?_ h
        · intro job id mem
          obtain ⟨listed, in_progress⟩ := List.mem_filter.mp mem
          refine ⟨?_, by simpa using in_progress⟩
          split at listed
          · exact (mem_jobsOf.mp listed).1
          · exact (mem_jobsOf.mp listed).1
        · refine List.Nodup.sublist (List.filter_sublist.map _) ?_
          split
          · exact jobsOf_ids_nodup
          · exact jobsOf_ids_nodup
  · cases h
    exact ⟨.refl, rfl⟩

theorem expireAndProgress_moves (sound : Sound s)
    (h : CampaignStore.expireAndProgress w s = .ok s') : Moves (rolloutOf s) (rolloutOf s') := by
  obtain ⟨s₁, expired, h⟩ := bind_ok h
  obtain ⟨first, -⟩ := expireJobs_moves expired
  exact first.trans (progress_moves (sound.moves first) h)

end Reports

section Routes

variable {id : Nat} {body : CampaignAction}

theorem continueCampaign_moves (sound : Sound s) (h : continueCampaign w s id body = .ok s') :
    Moves (rolloutOf s) (rolloutOf s') := by
  unfold continueCampaign at h
  split at h
  · cases h
  next halted =>
    split at h
    · cases h
    · exact resume_moves sound (not_not.mp halted) h

theorem haltCampaign_moves (h : haltCampaign w s id body = .ok s') :
    Moves (rolloutOf s) (rolloutOf s') := by
  unfold haltCampaign at h
  dsimp only at h
  split at h
  next running =>
    obtain ⟨-, same, -⟩ := halt_ok h
    rw [same]
    exact .single (.halt _ (phaseOf_of_status running) fun operator => by cases operator)
  · split at h
    next paused =>
      cases h
      have operator : phaseOf (holdCampaign w s body.requestedBy).c = .halted false := by
        simp [holdCampaign, log, phaseOf, paused.1, answered]
      have held : rolloutOf (holdCampaign w s body.requestedBy) =
          { rolloutOf s with phase := phaseOf (holdCampaign w s body.requestedBy).c } := rfl
      rw [held, operator]
      have phase : (rolloutOf s).phase = .halted (answered s.c.haltedReason) := by
        simp [rolloutOf, phaseOf, paused.1]
      exact .single (.hold phase)
    · split at h
      · cases h
      · cases h
        exact .refl

theorem abortCampaign_moves (h : abortCampaign w s id body = .ok s') :
    Moves (rolloutOf s) (rolloutOf s') := by
  unfold abortCampaign at h
  split at h
  · cases h
  next halted =>
    obtain ⟨status, fired, h⟩ := bind_ok h
    have aborts : campaignFsm.fire .halted .abort = .ok .aborted := rfl
    obtain rfl := Except.ok.inj (aborts.symm.trans (fireCampaign_ok fired))
    cases h
    have phase : (rolloutOf s).phase = .halted (answered s.c.haltedReason) := by
      simp [rolloutOf, phaseOf, not_not.mp halted]
    exact .single (.abort phase)

theorem rollbackCampaign_moves (sound : Sound s) (h : rollbackCampaign w s id body = .ok s') :
    Moves (rolloutOf s) (rolloutOf s') := by
  unfold rollbackCampaign at h
  dsimp only at h
  split at h
  · cases h
  · split at h
    · cases h
    next none_running =>
      exact startRollback_moves sound (noneRunning_allEnded (not_not.mp none_running)) h

end Routes

end Smo.RanNfOam.Lifecycle
