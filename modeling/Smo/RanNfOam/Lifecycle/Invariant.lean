import Mathlib.Algebra.Order.Floor.Div
import Smo.RanNfOam.Lifecycle.Refinement

/-! Software campaigns over whole runs: what holds of every campaign after any sequence
of operations, and what one operation can do to it. -/
namespace Smo.RanNfOam.Lifecycle

open Staged (Rollout Move Moves)
open Runs (Run)

variable {w : Surroundings} {s s' : CampaignRows}

def forwardJobs (s : CampaignRows) : List SoftwareManagementJob :=
  s.jobs.filter (·.rollbackOf.isNone)

/-- A campaign as `create_software_campaign` makes it and the engine keeps it. -/
structure Good (s : CampaignRows) : Prop where
  sound : Sound s
  some_items : (rolloutOf s).items ≠ []
  distinct : (rolloutOf s).items.Nodup
  count : (rolloutOf s).count = CampaignStore.waveCountOf (rolloutOf s).items (rolloutOf s).size

theorem Good.moves (h : Good s) (moves : Moves (rolloutOf s) (rolloutOf s')) : Good s' := by
  obtain ⟨items, size, count, -⟩ := Staged.moves_keep moves
  exact ⟨h.sound.moves moves, items ▸ h.some_items, items ▸ h.distinct,
    by rw [items, size, count]; exact h.count⟩

theorem sizeOfWaves_pos (c : SoftwareCampaign) : 0 < sizeOfWaves c := by
  unfold sizeOfWaves orElse
  split
  · exact PNat.pos _
  · split <;> omega

theorem eraseDups_nodup {α : Type} [DecidableEq α] (items : List α) : items.eraseDups.Nodup := by
  induction hlength : items.length using Nat.strong_induction_on generalizing items with
  | _ n ih =>
    cases items with
    | nil => simp
    | cons first rest =>
      rw [List.eraseDups_cons, List.nodup_cons]
      constructor
      · simp [List.mem_eraseDups]
      · refine ih _ ?_ _ rfl
        have shorter := List.length_filter_le (fun x => !x == first) rest
        simp only [List.length_cons] at hlength
        omega

namespace CampaignStore

variable {store store' : CampaignStore} {id : Nat}

variable {scope : Option Scope} {elements : List String} {body : CampaignRequest}
  {start store₁ : CampaignStore} {ids : List Nat}

theorem namedElements_ok {refs : List String} (some : refs ≠ [])
    (h : store.namedElements scope refs = .ok elements) : elements ≠ [] ∧ elements.Nodup := by
  have same : elements = refs.eraseDups := by
    simp only [namedElements, refuse] at h
    split at h
    · cases h
    · split at h
      · cases h
      · split at h
        · cases h
        · cases h
          rfl
  subst same
  refine ⟨?_, eraseDups_nodup refs⟩
  cases refs with
  | nil => exact absurd rfl some
  | cons first rest => simp [List.eraseDups_cons]

theorem selectedElements_ok {selector : CampaignSelector}
    (h : store.selectedElements scope selector = .ok elements) :
    elements ≠ [] ∧ elements.Nodup := by
  simp only [selectedElements, refuse] at h
  split at h
  · cases h
  next some =>
    split at h
    · cases h
    · cases h
      refine ⟨some, (List.perm_insertionSort _ _).nodup_iff.mpr ?_⟩
      refine store.registry.keyed.sublist (List.Sublist.map _ ?_)
      exact List.filter_sublist.trans List.filter_sublist

theorem resolveElements_ok (valid : body.Valid)
    (h : store.resolveElements scope body = .ok elements) : elements ≠ [] ∧ elements.Nodup := by
  obtain ⟨chosen, resolved, h⟩ := bind_ok h
  obtain rfl : chosen = elements := by
    simp only [refuse] at h
    split at h
    · cases h
    · cases h
      rfl
  unfold chosenElements at resolved
  split at resolved
  next refs hchoice =>
    refine namedElements_ok ?_ resolved
    rintro rfl
    exact valid hchoice
  · exact selectedElements_ok resolved

theorem waveCountOf_pos {size : Nat} (some : elements ≠ []) (pos : 0 < size) :
    0 < waveCountOf elements size := by
  have length := List.length_pos_iff.mpr some
  exact Nat.div_pos (by omega) pos

theorem createRows_good {w : Surroundings} {s : CampaignRows} (some : elements ≠ [])
    (distinct : elements.Nodup) (h : createRows w body elements = .ok s) : Good s := by
  unfold createRows at h
  dsimp only at h
  obtain ⟨status, fired, h⟩ := bind_ok h
  have starts : campaignFsm.fire .pending .start = .ok .running := rfl
  obtain rfl := Except.ok.inj (starts.symm.trans (fireCampaign_ok fired))
  generalize hlogged : log w _ .started _ _ _ _ = logged at h
  have length := List.length_pos_iff.mpr some
  have size : sizeOfWaves logged.c = (body.waveSize.map (·.val)).getD elements.length := by
    rw [← hlogged]
    simp only [log, sizeOfWaves, orElse]
    cases body.waveSize with
    | none => simp [Nat.ne_of_gt length]
    | some n => rfl
  have count : logged.c.waveCount = waveCountOf elements (sizeOfWaves logged.c) := by
    rw [size, ← hlogged]
    rfl
  have first : logged.c.currentWave = 0 := hlogged ▸ rfl
  have running : logged.c.status = .running := hlogged ▸ rfl
  have no_tasks : (rolloutOf logged).tasks = [] := hlogged ▸ rfl
  have items : (rolloutOf logged).items = elements := hlogged ▸ rfl
  have good : Good logged := {
    sound := ⟨.fresh first no_tasks (phaseOf_of_status running),
      .fresh no_tasks (phaseOf_of_status running)⟩
    some_items := items ▸ some
    distinct := items ▸ distinct
    count := by rw [items]; exact count }
  refine good.moves (startNext_moves (by rw [first]; exact h) running ?_ ?_)
  · intro i t found
    simp [no_tasks] at found
  · rw [first, count]
    exact waveCountOf_pos some (sizeOfWaves_pos _)

/-- Every campaign of the later store has come by moves from the earlier one, or is new
and as the engine keeps it. -/
structure Follows (store store' : CampaignStore) : Prop where
  good : ∀ (id : Nat) s, store'.campaigns[id]? = some s → Good s
  moved : ∀ (id : Nat) s, store.campaigns[id]? = some s →
    ∃ s', store'.campaigns[id]? = some s' ∧ Moves (rolloutOf s) (rolloutOf s')

theorem Follows.refl (good : ∀ (id : Nat) s, store.campaigns[id]? = some s → Good s) :
    Follows store store :=
  ⟨good, fun _ s found => ⟨s, found, .refl⟩⟩

theorem Follows.trans {store'' : CampaignStore} (h : Follows store store')
    (h' : Follows store' store'') : Follows store store'' where
  good := h'.good
  moved := by
    intro id s found
    obtain ⟨s', found', moves⟩ := h.moved id s found
    obtain ⟨s'', found'', moves'⟩ := h'.moved id s' found'
    exact ⟨s'', found'', moves.trans moves'⟩

theorem put_campaign {s' : CampaignRows} (found : store.campaigns[id]? = some s) :
    (store.put id s').campaigns[id]? = some s' := by
  obtain ⟨within, -⟩ := List.getElem?_eq_some_iff.mp found
  exact List.getElem?_set_self within

theorem put_other {s' : CampaignRows} {other : Nat} (different : other ≠ id) :
    (store.put id s').campaigns[other]? = store.campaigns[other]? :=
  List.getElem?_set_ne different.symm

theorem Follows.put (h : Follows store store') (found : store'.campaigns[id]? = some s)
    (moves : Moves (rolloutOf s) (rolloutOf s')) : Follows store (store'.put id s') := by
  have moved : (store'.put id s').campaigns[id]? = some s' := put_campaign found
  constructor
  · intro other t hother
    by_cases same : other = id
    · subst same
      obtain rfl := Option.some.inj (moved.symm.trans hother)
      exact (h.good other s found).moves moves
    · rw [put_other same] at hother
      exact h.good other t hother
  · intro other t hother
    obtain ⟨t', later, earlier⟩ := h.moved other t hother
    by_cases same : other = id
    · subst same
      obtain rfl := Option.some.inj (found.symm.trans later)
      exact ⟨s', moved, earlier.trans moves⟩
    · exact ⟨t', by rw [put_other same]; exact later, earlier⟩

theorem onCampaign_follows {route : CampaignRows → Except Raised CampaignRows}
    (good : ∀ (id : Nat) s, store.campaigns[id]? = some s → Good s)
    (moves : ∀ s s', Good s → route s = .ok s' → Moves (rolloutOf s) (rolloutOf s'))
    (h : store.onCampaign scope id route = .ok store') : Follows store store' := by
  obtain ⟨s, found, h⟩ := bind_ok h
  obtain ⟨s', routed, h⟩ := bind_ok h
  cases h
  have found : store.campaigns[id]? = some s := by
    unfold campaignOr404 refuse at found
    split at found
    · cases found
    next hs =>
      split at found
      · cases found
      · cases found
        exact hs
  exact (Follows.refl good).put found (moves s s' (good id s found) routed)

theorem advanceSoftwareJob_follows {job : Nat} {succeeded : Bool}
    (good : ∀ (id : Nat) s, store.campaigns[id]? = some s → Good s)
    (h : store.advanceSoftwareJob scope id job succeeded = .ok store') : Follows store store' := by
  unfold advanceSoftwareJob at h
  split at h
  · cases h
  next s found =>
    dsimp only at h
    split at h
    · cases h
    · obtain ⟨s₁, reported, h⟩ := bind_ok h
      have first := reportJob_move reported
      have follows := (Follows.refl good).put found first
      split at h
      next s₂ progressed =>
        cases h
        have second := progress_moves ((good id s found).sound.moves first) progressed
        exact follows.put (put_campaign found) second
      · cases h
        exact follows

theorem resumeAll_follows (follows : Follows start store₁) (nodup : ids.Nodup)
    (halted : ∀ id ∈ ids, ∀ s, store₁.campaigns[id]? = some s → s.c.status = .halted) :
    Follows start (resumeAll ids store₁).1 := by
  induction ids generalizing store₁ with
  | nil => exact follows
  | cons id rest ih =>
    obtain ⟨fresh, nodup⟩ := List.nodup_cons.mp nodup
    rw [resumeAll]
    split
    · exact ih follows nodup fun other mem => halted other (List.mem_cons_of_mem _ mem)
    next s found =>
      split
      next s' resumed =>
        have moves := resume_moves (follows.good id s found).sound
          (halted id List.mem_cons_self s found) resumed
        refine ih (follows.put found moves) nodup ?_
        intro other mem t hother
        rw [put_other (by rintro rfl; exact fresh mem)] at hother
        exact halted other (List.mem_cons_of_mem _ mem) t hother
      · exact follows

theorem catchUpAll_follows (follows : Follows start store₁) :
    Follows start (catchUpAll ids store₁) := by
  induction ids generalizing store₁ with
  | nil => exact follows
  | cons id rest ih =>
    rw [catchUpAll]
    split
    · exact ih follows
    next s found =>
      split
      next s' progressed =>
        refine ih ?_
        split
        · exact follows.put found
            (expireAndProgress_moves (follows.good id s found).sound progressed)
        · exact follows
      · exact follows

theorem dueIds_nodup : store.dueIds.Nodup := by
  have sorted := (List.perm_insertionSort
    (fun a b : CampaignRows × Nat => a.1.c.nextWaveAt.getD 0 ≤ b.1.c.nextWaveAt.getD 0)
    (store.campaigns.zipIdx.filter fun entry => due store.now entry.1)).map (·.2)
  refine sorted.nodup_iff.mpr (List.Nodup.sublist (List.filter_sublist.map _) ?_)
  rw [List.zipIdx_map_snd]
  exact List.nodup_range'

theorem due_of_mem (mem : id ∈ store.dueIds) (found : store.campaigns[id]? = some s) :
    due store.now s = true := by
  obtain ⟨⟨s', id'⟩, sorted, rfl⟩ := List.mem_map.mp mem
  obtain ⟨listed, isDue⟩ := List.mem_filter.mp (List.mem_insertionSort _ |>.mp sorted)
  obtain rfl := Option.some.inj (found.symm.trans (List.mem_zipIdx_iff_getElem?.mp listed))
  exact isDue

theorem due_halted {now : Time} (h : due now s = true) :
    s.c.status = .halted ∧ s.c.haltedReason = some .wavePause := by
  simp only [due, Bool.and_eq_true, decide_eq_true_eq] at h
  exact h.1

theorem advanceDue_follows (good : ∀ (id : Nat) s, store.campaigns[id]? = some s → Good s) :
    Follows store store.advanceDue := by
  have resumed := resumeAll_follows (Follows.refl good) dueIds_nodup
    fun id mem s found => (due_halted (due_of_mem mem found)).1
  unfold advanceDue
  split
  next raised =>
    rw [raised] at resumed
    exact resumed
  next all =>
    rw [all] at resumed
    exact catchUpAll_follows resumed

theorem createSoftwareCampaign_ok (valid : body.Valid)
    (h : store.createSoftwareCampaign scope body = .ok store') : store' = store ∨
      ∃ s, Good s ∧ store' = { store with campaigns := store.campaigns ++ [s] } := by
  obtain ⟨elements, resolved, h⟩ := bind_ok h
  obtain ⟨some_items, distinct⟩ := resolveElements_ok valid resolved
  split at h
  · cases h
    exact Or.inl rfl
  · obtain ⟨s, created, h⟩ := bind_ok h
    cases h
    exact Or.inr ⟨s, createRows_good some_items distinct created, rfl⟩

theorem createSoftwareCampaign_follows
    (good : ∀ (id : Nat) s, store.campaigns[id]? = some s → Good s) (valid : body.Valid)
    (h : store.createSoftwareCampaign scope body = .ok store') : Follows store store' := by
  obtain rfl | ⟨s, created, rfl⟩ := createSoftwareCampaign_ok valid h
  · exact .refl good
  · constructor
    · intro id t found
      rcases Staged.getElem?_append_some.mp found with found | ⟨-, found⟩
      · exact good id t found
      · obtain rfl := List.mem_singleton.mp (List.mem_of_getElem? found)
        exact created
    · intro id t found
      exact ⟨t, Staged.getElem?_append_some.mpr (Or.inl found), .refl⟩

theorem step_follows {op : CampaignOp}
    (good : ∀ (id : Nat) s, store.campaigns[id]? = some s → Good s) (h : Step store op store') :
    Follows store store' := by
  cases h with
  | raises => exact .refl good
  | commits valid done =>
    cases op with
    | create scope body => exact createSoftwareCampaign_follows good (valid _ _ rfl) done
    | advanceJob scope campaign job succeeded => exact advanceSoftwareJob_follows good done
    | advanceDue =>
      cases done
      exact advanceDue_follows good
    | continue_ scope campaign body =>
      exact onCampaign_follows good (fun s s' hs => continueCampaign_moves hs.sound) done
    | halt scope campaign body =>
      exact onCampaign_follows good (fun s s' _ => haltCampaign_moves) done
    | abort scope campaign body =>
      exact onCampaign_follows good (fun s s' _ => abortCampaign_moves) done
    | rollback scope campaign body =>
      exact onCampaign_follows good (fun s s' hs => rollbackCampaign_moves hs.sound) done
    | surroundings registry busyElsewhere alarms now =>
      cases done
      exact ⟨good, fun _ s found => ⟨s, found, .refl⟩⟩

theorem run_good {trace : List (Runs.Step CampaignStore CampaignOp)} (fresh : store.campaigns = [])
    (run : Run Step store trace store') :
    ∀ (id : Nat) s, store'.campaigns[id]? = some s → Good s := by
  refine run.invariant (fun store => ∀ (id : Nat) s, store.campaigns[id]? = some s → Good s) ?_ ?_
  · intro id s found
    simp [fresh] at found
  · intro _ _ _ good taken
    exact (step_follows good taken).good

end CampaignStore

section Plan

/-- The wave and the element of each job of the campaign itself, in the order they were
started. -/
def startedJobs (s : CampaignRows) : List (Nat × String) :=
  (forwardJobs s).map fun job => (job.campaignWave, job.managedElementRef)

def noMoreWaves : CampaignState → Bool
  | .completed | .aborted | .rollingBack | .rolledBack | .rollbackFailed => true
  | .pending | .running | .halted => false

structure FollowsPlan (s : CampaignRows) : Prop where
  size : sizeOfWaves s.c = (s.c.waveSize.map (·.val)).getD s.c.elements.length
  slices : ∀ k, waveElements s.c (k + 1) =
    (s.c.elements.drop (k * sizeOfWaves s.c)).take (sizeOfWaves s.c)
  whole : (List.range s.c.waveCount).flatMap (fun k => waveElements s.c (k + 1)) = s.c.elements
  count : s.c.waveCount = s.c.elements.length ⌈/⌉ sizeOfWaves s.c
  within : s.c.currentWave ≤ s.c.waveCount
  started : startedJobs s = (List.range s.c.currentWave).flatMap fun k =>
    (waveElements s.c (k + 1)).map fun ref => (k + 1, ref)
  one : ∀ k < s.c.currentWave, ∀ ref ∈ waveElements s.c (k + 1),
    (forwardJobs s).countP (·.managedElementRef = ref) = 1
  none : ∀ ref, (∀ k < s.c.currentWave, ref ∉ waveElements s.c (k + 1)) →
    (forwardJobs s).countP (·.managedElementRef = ref) = 0
  ended : ∀ job ∈ forwardJobs s, job.campaignWave < s.c.currentWave → inFlight job = false
  completed : s.c.status = .completed →
    s.c.currentWave = s.c.waveCount ∧ ∀ job ∈ forwardJobs s, inFlight job = false

theorem rolloutOf_forward :
    (rolloutOf s).forward.map (fun t => (t.stage, t.item)) = startedJobs s := by
  simp only [rolloutOf, Rollout.forward, startedJobs, forwardJobs, List.filter_map, List.map_map]
  rfl

theorem phaseOf_closed {c : SoftwareCampaign} : (phaseOf c).closed = noMoreWaves c.status := by
  cases hstatus : c.status <;> simp [phaseOf, hstatus, Staged.Phase.closed, noMoreWaves]

theorem mem_forwardJobs {job : SoftwareManagementJob} :
    job ∈ forwardJobs s ↔ ∃ id : Nat, s.jobs[id]? = some job ∧ job.rollbackOf = none := by
  rw [forwardJobs, List.mem_filter, List.mem_iff_getElem?, Option.isNone_iff_eq_none,
    exists_and_right]

theorem not_inFlight {job : SoftwareManagementJob} (ended : (taskOf job).outcome ≠ .running) :
    inFlight job = false := by
  rw [Bool.eq_false_iff]
  exact fun running => ended (taskOf_running.mpr running)

theorem inFlight_of_allEnded (ended : (rolloutOf s).AllEnded) :
    ∀ job ∈ forwardJobs s, inFlight job = false := by
  intro job mem
  obtain ⟨id, found, forward⟩ := mem_forwardJobs.mp mem
  exact not_inFlight (ended id (taskOf job) (by rw [rolloutOf_task, found]; rfl) forward)

theorem waveCountOf_cover {elements : List String} {size : Nat} (pos : 0 < size) :
    elements.length ≤ CampaignStore.waveCountOf elements size * size := by
  have split := Nat.div_add_mod (elements.length + size - 1) size
  have rest := Nat.mod_lt (elements.length + size - 1) pos
  rw [Nat.mul_comm] at split
  unfold CampaignStore.waveCountOf
  omega

theorem Good.current_le (h : Good s) : s.c.currentWave ≤ s.c.waveCount :=
  h.sound.plan.current_le.trans (Nat.le_of_eq Staged.length_plan)

theorem Good.started (h : Good s) : startedJobs s = (List.range s.c.currentWave).flatMap fun k =>
    (waveElements s.c (k + 1)).map fun ref => (k + 1, ref) := by
  rw [← rolloutOf_forward, h.sound.plan.started, Rollout.firstStages]
  refine List.flatMap_congr fun k mem => ?_
  have before : k < s.c.waveCount := Nat.lt_of_lt_of_le (List.mem_range.mp mem) h.current_le
  have planned : (rolloutOf s).plan.getD k [] = waveElements s.c (k + 1) := by
    rw [waveElements_eq]
    simp [Rollout.plan, List.getD_eq_getElem?_getD, rolloutOf, before]
  rw [planned]

theorem Good.refs (h : Good s) : (forwardJobs s).map (·.managedElementRef) =
    (List.range s.c.currentWave).flatMap fun k => waveElements s.c (k + 1) := by
  have refs := congrArg (List.map Prod.snd) h.started
  simpa [startedJobs, List.map_flatMap, Function.comp_def] using refs

theorem Good.refs_nodup (h : Good s) : ((forwardJobs s).map (·.managedElementRef)).Nodup := by
  rw [h.refs]
  simp only [waveElements_eq]
  rw [Slices.flatMap_slice]
  exact h.distinct.sublist (List.take_sublist _ _)

theorem Good.followsPlan (h : Good s) : FollowsPlan s := by
  have pos := sizeOfWaves_pos s.c
  have some_elements : s.c.elements ≠ [] := h.some_items
  have counted (ref : String) : (forwardJobs s).countP (·.managedElementRef = ref) =
      ((forwardJobs s).map (·.managedElementRef)).count ref := by
    rw [List.count, List.countP_map]
    exact List.countP_congr fun job _ => by simp
  refine {
    size := ?_
    slices := waveElements_eq s.c
    whole := ?_
    count := ?_
    within := h.current_le
    started := h.started
    one := ?_
    none := ?_
    ended := ?_
    completed := ?_ }
  · have length := List.length_pos_iff.mpr some_elements
    unfold sizeOfWaves orElse
    cases s.c.waveSize with
    | none => simp [Nat.ne_of_gt length]
    | some size => rfl
  · simp only [waveElements_eq]
    refine Slices.flatMap_slice_cover ((waveCountOf_cover pos).trans (Nat.le_of_eq ?_))
    exact congrArg (· * sizeOfWaves s.c) h.count.symm
  · exact h.count.trans (Nat.ceilDiv_eq_add_pred_div _ _).symm
  · intro k before ref mem
    rw [counted]
    refine List.count_eq_one_of_mem h.refs_nodup ?_
    rw [h.refs, List.mem_flatMap]
    exact ⟨k, List.mem_range.mpr before, mem⟩
  · intro ref absent
    rw [counted, List.count_eq_zero, h.refs, List.mem_flatMap]
    rintro ⟨k, before, mem⟩
    exact absent k (List.mem_range.mp before) mem
  · intro job mem before
    obtain ⟨id, found, forward⟩ := mem_forwardJobs.mp mem
    have task : (rolloutOf s).tasks[id]? = some (taskOf job) := by rw [rolloutOf_task, found]; rfl
    exact not_inFlight (h.sound.plan.earlier id _ task forward before)
  · intro completed
    have phase : (rolloutOf s).phase = .completed := by simp [rolloutOf, phaseOf, completed]
    constructor
    · exact (h.sound.plan.last phase).trans Staged.length_plan
    · exact inFlight_of_allEnded (h.sound.plan.settled (by rw [phase]; rfl))

theorem closed_moves (moves : Moves (rolloutOf s) (rolloutOf s'))
    (closed : noMoreWaves s.c.status = true) :
    noMoreWaves s'.c.status = true ∧ startedJobs s' = startedJobs s := by
  rw [← phaseOf_closed] at closed ⊢
  rw [← rolloutOf_forward, ← rolloutOf_forward]
  exact Staged.closed_moves closed moves

/-- After any operations on the store every campaign follows its plan, a later wave being
started only when the earlier ones have ended; and no operation starts a job of a campaign
that was completed, aborted or rolled back. -/
theorem campaigns_follow_plan {store store' : CampaignStore}
    {trace : List (Runs.Step CampaignStore CampaignOp)} (fresh : store.campaigns = [])
    (run : Run CampaignStore.Step store trace store') :
    (∀ (id : Nat) s, store'.campaigns[id]? = some s → FollowsPlan s) ∧
      ∀ t ∈ trace, ∀ (id : Nat) s, t.before.campaigns[id]? = some s →
        ∃ s', t.after.campaigns[id]? = some s' ∧
          (noMoreWaves s.c.status = true →
            noMoreWaves s'.c.status = true ∧ startedJobs s' = startedJobs s) := by
  constructor
  · intro id s found
    exact (CampaignStore.run_good fresh run id s found).followsPlan
  · refine run.transitions (fun store => ∀ (id : Nat) s, store.campaigns[id]? = some s → Good s)
      ?_ ?_ _ ?_
    · intro id s found
      simp [fresh] at found
    · intro _ _ _ good taken
      exact (CampaignStore.step_follows good taken).good
    · intro _ _ _ good taken id s found
      obtain ⟨s', later, moves⟩ := (CampaignStore.step_follows good taken).moved id s found
      exact ⟨s', later, closed_moves moves⟩

/-- An upgrade of two elements in two waves that undoes its waves in reverse order. -/
def upgradeTwo : List CampaignOp :=
  let body : CampaignRequest := {
    requestedBy := "operator"
    name := "upgrade"
    choice := .managedElementRefs ["gnb-1", "gnb-2"]
    waveSize := some ⟨1, Nat.one_pos⟩
    rollbackOrder := .reverse }
  .create none body :: List.replicate 3 (.advanceJob none 0 0 true) ++
    List.replicate 3 (.advanceJob none 0 1 true)

def twoElements : CampaignStore := {
  registry := { rows := [
    { managedElementRef := "gnb-1", entityType := "O-DU" },
    { managedElementRef := "gnb-2", entityType := "O-DU" }] } }

theorem upgradeTwo_valid : ∀ op ∈ upgradeTwo, ∀ scope body, op = .create scope body → body.Valid := by
  intro op mem scope body same
  subst same
  simp only [upgradeTwo, List.cons_append, List.mem_cons, List.mem_append, List.mem_replicate,
    CampaignOp.create.injEq, reduceCtorEq, and_false, or_false] at mem
  obtain ⟨-, rfl⟩ := mem
  simp [CampaignRequest.Valid]

theorem upgradeTwo_follows_plan :
    (upgradeTwo.foldl CampaignStore.next twoElements).campaigns.map
        (fun s => (s.c.status, startedJobs s)) = [(.completed, [(1, "gnb-1"), (2, "gnb-2")])] ∧
      ∀ (id : Nat) s, (upgradeTwo.foldl CampaignStore.next twoElements).campaigns[id]? = some s →
        FollowsPlan s :=
  ⟨by decide, (campaigns_follow_plan rfl (Runs.run_follow fun _ op mem =>
    CampaignStore.step_next (upgradeTwo_valid op mem))).1⟩

end Plan

section Rollback

def CompletedJob (s : CampaignRows) (id : Nat) (job : SoftwareManagementJob) : Prop :=
  s.jobs[id]? = some job ∧ job.rollbackOf = none ∧ job.status = .completed

/-- Job `revert` undoes job `original`. -/
def Reverts (s : CampaignRows) (revert : Nat) (job : SoftwareManagementJob) (original : Nat) :
    Prop :=
  s.jobs[revert]? = some job ∧ job.rollbackOf = some original

/-- The undoing of a campaign: no job has a second revert unless the first failed, a
reverse rollback undoes the later waves first, and it ends when all is undone, or when a
revert has failed and none runs. -/
structure UndoesOnce (s : CampaignRows) : Prop where
  original : ∀ i revert o, Reverts s i revert o →
    ∃ job, CompletedJob s o job ∧ job.campaignWave = revert.campaignWave
  retry : ∀ i j first second o, i < j → Reverts s i first o → Reverts s j second o →
    first.status = .failed
  reverse : s.c.rollbackOrder = .reverse → ∀ i revert o, Reverts s i revert o →
    ∀ later job, CompletedJob s later job → revert.campaignWave < job.campaignWave →
      ∃ k undo, Reverts s k undo later ∧ undo.status = .completed
  rolledBack : s.c.status = .rolledBack → ∀ o job, CompletedJob s o job →
    ∃ k undo, Reverts s k undo o ∧ undo.status = .completed
  rollbackFailed : s.c.status = .rollbackFailed →
    (∃ i revert o, Reverts s i revert o ∧ revert.status = .failed) ∧
      ∀ i revert o, Reverts s i revert o → inFlight revert = false

variable {o i : Nat} {job : SoftwareManagementJob}

theorem CompletedJob.done (h : CompletedJob s o job) : (rolloutOf s).Done o (taskOf job) :=
  ⟨by rw [rolloutOf_task, h.1]; rfl, h.2.1, taskOf_done.mpr h.2.2⟩

theorem Reverts.task (h : Reverts s i job o) : (rolloutOf s).tasks[i]? = some (taskOf job) := by
  rw [rolloutOf_task, h.1]
  rfl

theorem completed_of_done {t : Staged.Task String} (h : (rolloutOf s).Done o t) :
    ∃ job, CompletedJob s o job ∧ t = taskOf job := by
  obtain ⟨found, forward, done⟩ := h
  obtain ⟨job, hjob, rfl⟩ := task_found found
  exact ⟨job, ⟨hjob, forward, taskOf_done.mp done⟩, rfl⟩

theorem reverts_of_undo {outcome : Staged.Outcome} (h : (rolloutOf s).Undo o outcome) :
    ∃ i revert, Reverts s i revert o ∧ outcomeOf revert.status = outcome := by
  obtain ⟨i, t, found, undoes, same⟩ := h
  obtain ⟨revert, hrevert, rfl⟩ := task_found found
  exact ⟨i, revert, ⟨hrevert, undoes⟩, same⟩

theorem undone_completed (h : (rolloutOf s).Undo o .done) :
    ∃ k undo, Reverts s k undo o ∧ undo.status = .completed := by
  obtain ⟨k, undo, reverts, done⟩ := reverts_of_undo h
  exact ⟨k, undo, reverts, taskOf_done.mp done⟩

theorem outcomeOf_failed {status : SwmState} : outcomeOf status = .failed ↔ status = .failed := by
  cases status <;> simp [outcomeOf]

theorem Good.undoesOnce (h : Good s) : UndoesOnce s where
  original := by
    intro i revert o reverts
    obtain ⟨f, done, stage⟩ := h.sound.undo.target i _ o reverts.task reverts.2
    obtain ⟨job, completed, rfl⟩ := completed_of_done done
    exact ⟨job, completed, stage⟩
  retry := by
    intro i j first second o before earlier later
    have failed := h.sound.undo.serial i j _ _ o before earlier.task later.task earlier.2 later.2
    exact outcomeOf_failed.mp failed
  reverse := by
    intro reverse i revert o reverts later job completed before
    have undoes : (taskOf revert).undoes ≠ none := by simp [taskOf, reverts.2]
    exact undone_completed (h.sound.undo.order (by simp [rolloutOf, reverse]) i _ reverts.task
      undoes later _ completed.done before)
  rolledBack := by
    intro rolledBack o job completed
    have phase : (rolloutOf s).phase = .rolledBack := by simp [rolloutOf, phaseOf, rolledBack]
    exact undone_completed (h.sound.undo.rolledBack phase o _ completed.done)
  rollbackFailed := by
    intro rollbackFailed
    have phase : (rolloutOf s).phase = .rollbackFailed := by
      simp [rolloutOf, phaseOf, rollbackFailed]
    constructor
    · obtain ⟨o, undo⟩ := h.sound.undo.rollbackFailed phase
      obtain ⟨i, revert, reverts, failed⟩ := reverts_of_undo undo
      exact ⟨i, revert, o, reverts, outcomeOf_failed.mp failed⟩
    · intro i revert o reverts
      have undoes : (taskOf revert).undoes ≠ none := by simp [taskOf, reverts.2]
      refine not_inFlight fun running => ?_
      have rolling := h.sound.undo.running i _ reverts.task undoes running
      rw [phase] at rolling
      cases rolling

/-- After any operations on the store no campaign undoes a job twice, and a rollback ends
only when it is complete or has failed. -/
theorem campaigns_undo_once {store store' : CampaignStore}
    {trace : List (Runs.Step CampaignStore CampaignOp)} (fresh : store.campaigns = [])
    (run : Run CampaignStore.Step store trace store') :
    ∀ (id : Nat) s, store'.campaigns[id]? = some s → UndoesOnce s :=
  fun id s found => (CampaignStore.run_good fresh run id s found).undoesOnce

def undoTwo : List CampaignOp :=
  upgradeTwo ++ .rollback none 0 { requestedBy := "operator" } :: .advanceJob none 0 2 false ::
    .rollback none 0 { requestedBy := "operator" } ::
      (List.replicate 3 (.advanceJob none 0 3 true) ++ List.replicate 3 (.advanceJob none 0 4 true))

theorem undoTwo_valid : ∀ op ∈ undoTwo, ∀ scope body, op = .create scope body → body.Valid := by
  intro op mem scope body same
  rcases List.mem_append.mp mem with earlier | later
  · exact upgradeTwo_valid op earlier scope body same
  · subst same
    simp at later

theorem undoTwo_undoes_once :
    (undoTwo.foldl CampaignStore.next twoElements).campaigns.map
        (fun s => (s.c.status, s.jobs.map fun job => (job.rollbackOf, job.status))) =
      [(.rolledBack, [(none, .completed), (none, .completed), (some 1, .failed),
        (some 1, .completed), (some 0, .completed)])] ∧
      ∀ (id : Nat) s, (undoTwo.foldl CampaignStore.next twoElements).campaigns[id]? = some s →
        UndoesOnce s :=
  ⟨by decide, campaigns_undo_once rfl (Runs.run_follow fun _ op mem =>
    CampaignStore.step_next (undoTwo_valid op mem))⟩

end Rollback

end Smo.RanNfOam.Lifecycle
