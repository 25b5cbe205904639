import Smo.Aimgf.Effects
import Smo.Aimgf.Serving
import Smo.Lib.Runs
import Smo.Lib.Table

/-! The end of a model's life is the end of its serving: what a request may make of a lifecycle row,
and what holds of the rows and of the inference jobs over every interleaving of requests. -/
namespace Smo.Aimgf

structure Settled (row : ModelLifecycle) : Prop where
  recorded : row.runtimeLifecycleState = row.runtimeTransitions.getLast?.getD .notDeployed
  rests : row.runtimeLifecycleState ∈
    [RuntimeLifecycleState.notDeployed, .deployed, .active, .terminated]
  retired : row.modelLifecycleState = .retired →
    row.runtimeLifecycleState = .notDeployed ∨ row.runtimeLifecycleState = .terminated

def Ended (row next : ModelLifecycle) : Prop :=
  row.modelLifecycleState.endOfLife = true →
    next.modelLifecycleState.endOfLife = true ∧
    (row.modelLifecycleState = .retired → next.modelLifecycleState = .retired) ∧
    ∃ moves, next.runtimeTransitions = row.runtimeTransitions ++ moves ∧
      ∀ state ∈ moves, state = RuntimeLifecycleState.terminating ∨ state = .terminated

structure Moved (row next : ModelLifecycle) : Prop where
  settled : Settled row → Settled next
  cleared : row.runtimeLifecycleState = .notDeployed → next.runtimeLifecycleState ≠ .notDeployed →
    row.modelLifecycleState.cleared = true ∧ next.modelLifecycleState = row.modelLifecycleState
  ended : Ended row next

section Rows

variable {o : Outside} {row next later : ModelLifecycle} {m : ModelId}

theorem Settled.new : Settled {} := ⟨rfl, by decide, by decide⟩

theorem Ended.refl : Ended row row :=
  fun ends => ⟨ends, id, [], by simp, fun _ mem => absurd mem List.not_mem_nil⟩

theorem Ended.trans (first : Ended row next) (second : Ended next later) : Ended row later := by
  intro ends
  obtain ⟨still, retired, moves, recorded, only⟩ := first ends
  obtain ⟨still', retired', moves', recorded', only'⟩ := second still
  refine ⟨still', retired' ∘ retired, moves ++ moves', ?_, fun state mem => ?_⟩
  · rw [recorded', recorded, List.append_assoc]
  · rcases List.mem_append.mp mem with before | after
    · exact only state before
    · exact only' state after

theorem Moved.refl : Moved row row where
  settled := id
  cleared rests leaves := absurd rests leaves
  ended := .refl

theorem Moved.of_runtime (steps : List RuntimeLifecycleState) (target : RuntimeLifecycleState)
    (state : next.modelLifecycleState = row.modelLifecycleState)
    (runtime : next.runtimeLifecycleState = target)
    (recorded : next.runtimeTransitions = row.runtimeTransitions ++ (steps ++ [target]))
    (rests : target ∈ [RuntimeLifecycleState.deployed, .active, .terminated])
    (cleared : row.runtimeLifecycleState = .notDeployed → row.modelLifecycleState.cleared = true)
    (ends : row.modelLifecycleState.endOfLife = true →
      ∀ state ∈ steps ++ [target], state = .terminating ∨ state = .terminated) :
    Moved row next where
  settled _ := by
    refine ⟨?_, ?_, fun retired => ?_⟩
    · rw [runtime, recorded, ← List.append_assoc, List.getLast?_concat]
      rfl
    · rw [runtime]
      exact List.mem_cons_of_mem _ rests
    · rw [state] at retired
      have last := ends (by rw [retired]; rfl) target (by simp)
      rw [runtime]
      rcases last with rfl | rfl
      · simp at rests
      · exact .inr rfl
  cleared undeployed _ := ⟨cleared undeployed, state⟩
  ended is := ⟨state ▸ is, fun retired => state.trans retired, _, recorded, ends is⟩

theorem Moved.of_model (runtime : next.runtimeLifecycleState = row.runtimeLifecycleState)
    (recorded : next.runtimeTransitions = row.runtimeTransitions)
    (unretired : next.modelLifecycleState = .retired → row.modelLifecycleState = .retired)
    (ended : Ended row next) : Moved row next where
  settled settled := by
    refine ⟨?_, ?_, fun retired => ?_⟩
    · rw [runtime, recorded]
      exact settled.recorded
    · rw [runtime]
      exact settled.rests
    · rw [runtime]
      exact settled.retired (unretired retired)
  cleared undeployed leaves := absurd (runtime.trans undeployed) leaves
  ended := ended

theorem Moved.trans (first : Moved row next) (second : Moved next later)
    (state : next.modelLifecycleState = row.modelLifecycleState)
    (state' : later.modelLifecycleState = next.modelLifecycleState) : Moved row later where
  settled := second.settled ∘ first.settled
  cleared undeployed leaves := by
    refine ⟨?_, state'.trans state⟩
    by_cases still : next.runtimeLifecycleState = .notDeployed
    · exact state ▸ (second.cleared still leaves).1
    · exact (first.cleared undeployed still).1
  ended := first.ended.trans second.ended

theorem not_endOfLife {state : ModelLifecycleState} (cleared : state.cleared = true) :
    state.endOfLife = false := by
  cases state <;> first | rfl | cases cleared

theorem endOfLife_iff {state : ModelLifecycleState} :
    state.endOfLife = true ↔ state = .deprecated ∨ state = .retired := by
  cases state <;> decide

namespace ModelLifecycle

theorem fireRuntime_ok {event : RuntimeLifecycleEvent} (fired : row.fireRuntime event = .ok next) :
    event.leaves row.runtimeLifecycleState = true ∧
    next = { row with
      runtimeLifecycleState := event.target
      runtimeTransitions := row.runtimeTransitions ++ [event.target] } := by
  unfold fireRuntime at fired
  split at fired
  · cases fired
  · next state fires =>
    cases fired
    obtain ⟨leaves, rfl⟩ := runtime_of_fire fires
    exact ⟨leaves, rfl⟩

theorem deployRuntime_ok {deployment : Nat} (deployed : row.deployRuntime deployment = .ok next) :
    Moved row next ∧ next.modelLifecycleState = row.modelLifecycleState := by
  unfold deployRuntime at deployed
  split at deployed
  · cases deployed
  · next clears =>
    rw [Bool.not_eq_false] at clears
    obtain ⟨requested, first, second⟩ := bind_ok deployed
    obtain ⟨-, rfl⟩ := fireRuntime_ok first
    obtain ⟨-, rfl⟩ := fireRuntime_ok second
    refine ⟨.of_runtime [.deploymentRequested] .deployed rfl rfl (List.append_assoc _ _ _)
      (by decide) (fun _ => clears) (fun ends => ?_), rfl⟩
    rw [not_endOfLife clears] at ends
    cases ends

theorem refuseEndOfLife_ok {action : String} (passes : row.refuseEndOfLife action = .ok ()) :
    row.modelLifecycleState.endOfLife = false := by
  unfold refuseEndOfLife at passes
  split at passes
  · cases passes
  · next lives => exact Bool.eq_false_iff.mpr lives

theorem activateRuntime_ok (activated : row.activateRuntime = .ok next) :
    Moved row next ∧ next.modelLifecycleState = row.modelLifecycleState := by
  obtain ⟨⟨⟩, passes, rest⟩ := bind_ok activated
  obtain ⟨activating, first, second⟩ := bind_ok rest
  obtain ⟨leaves, rfl⟩ := fireRuntime_ok first
  obtain ⟨-, rfl⟩ := fireRuntime_ok second
  have was : row.runtimeLifecycleState = .deployed := of_decide_eq_true leaves
  refine ⟨.of_runtime [.activating] .active rfl rfl (List.append_assoc _ _ _) (by decide)
    (fun not => ?_) (fun ends => ?_), rfl⟩
  · rw [was] at not
    cases not
  · rw [refuseEndOfLife_ok passes] at ends
    cases ends

theorem scaleRuntime_ok (scaled : row.scaleRuntime = .ok next) : Moved row next := by
  obtain ⟨⟨⟩, passes, rest⟩ := bind_ok scaled
  obtain ⟨scaling, first, second⟩ := bind_ok rest
  obtain ⟨leaves, rfl⟩ := fireRuntime_ok first
  obtain ⟨-, rfl⟩ := fireRuntime_ok second
  have was : row.runtimeLifecycleState = .active := of_decide_eq_true leaves
  refine .of_runtime [.scaling] .active rfl rfl (List.append_assoc _ _ _) (by decide) (fun not => ?_) fun ends => ?_
  · rw [was] at not
    cases not
  · rw [refuseEndOfLife_ok passes] at ends
    cases ends

theorem terminateRuntime_ok (terminated : row.terminateRuntime = .ok next) :
    Moved row next ∧ next.runtimeLifecycleState = .terminated ∧
      next.modelLifecycleState = row.modelLifecycleState ∧
      next.runtimeTransitions = row.runtimeTransitions ++ [.terminating, .terminated] := by
  obtain ⟨terminating, first, second⟩ := bind_ok terminated
  obtain ⟨leaves, rfl⟩ := fireRuntime_ok first
  obtain ⟨-, rfl⟩ := fireRuntime_ok second
  refine ⟨.of_runtime [.terminating] .terminated rfl rfl (List.append_assoc _ _ _) (by decide) (fun not => ?_)
    (fun _ => by decide), rfl, rfl, List.append_assoc _ _ _⟩
  rw [not] at leaves
  cases leaves

theorem fireModel_ok {event : ModelLifecycleEvent} (fired : row.fireModel event = .ok next) :
    ∃ state, modelLifecycleFsm.fire row.modelLifecycleState event = .ok state ∧
      next.modelLifecycleState = state ∧
      next.runtimeLifecycleState = row.runtimeLifecycleState ∧
      next.runtimeTransitions = row.runtimeTransitions := by
  unfold fireModel at fired
  split at fired
  · cases fired
  · next state fires =>
    cases fired
    refine ⟨state, fires, ?_⟩
    cases event <;> exact ⟨rfl, rfl, rfl⟩

theorem fireModel_ended {event : ModelLifecycleEvent} (fired : row.fireModel event = .ok next) :
    Ended row next := by
  obtain ⟨state, fires, is, -, recorded⟩ := fireModel_ok fired
  obtain ⟨unretired, deprecated, retires⟩ := end_of_fire fires
  intro ends
  have leaves : row.modelLifecycleState = .deprecated :=
    (endOfLife_iff.mp ends).resolve_right unretired
  have retired : next.modelLifecycleState = .retired := is.trans (retires.mpr (deprecated leaves))
  exact ⟨by rw [retired]; rfl, fun _ => retired, [], by simp [recorded],
    fun _ mem => absurd mem List.not_mem_nil⟩

theorem fireRuns_moved {events : List RunEvent} (fired : row.fireRuns m events = .ok next) :
    Moved row next := by
  unfold fireRuns at fired
  generalize events.filter (·.modelId = m) = mine at fired
  suffices kept : next.runtimeLifecycleState = row.runtimeLifecycleState ∧
      next.runtimeTransitions = row.runtimeTransitions ∧
      (next.modelLifecycleState = .retired → row.modelLifecycleState = .retired) ∧
      Ended row next from .of_model kept.1 kept.2.1 kept.2.2.1 kept.2.2.2
  induction mine generalizing row with
  | nil =>
    cases fired
    exact ⟨rfl, rfl, id, .refl⟩
  | cons first rest ih =>
    rw [List.foldlM_cons] at fired
    obtain ⟨mid, fires, others⟩ := bind_ok fired
    obtain ⟨row', changes, made⟩ := bind_ok fires
    cases made
    obtain ⟨runtime, recorded, retired, ended⟩ := ih others
    obtain ⟨state, edge, is, runtime', recorded'⟩ := fireModel_ok changes
    refine ⟨runtime.trans runtime', recorded.trans recorded', fun end_ => ?_, ?_⟩
    · have retires := (end_of_fire edge).2.2.mp (is.symm.trans (retired end_))
      have driven := first.driven
      rw [retires] at driven
      cases driven
    · exact Ended.trans (fireModel_ended changes) ended

theorem loadRuntime_moved {deployment : Nat} (loaded : row.loadRuntime m deployment = .ok next) :
    Moved row next := by
  unfold loadRuntime at loaded
  split at loaded
  · cases loaded
  · split at loaded
    · cases loaded
    · obtain ⟨deployed, first, second⟩ := bind_ok loaded
      have deploys : Moved row deployed ∧ deployed.modelLifecycleState = row.modelLifecycleState := by
        split at first
        · exact deployRuntime_ok first
        · cases first
          exact ⟨.refl, rfl⟩
      have activates : Moved deployed next ∧
          next.modelLifecycleState = deployed.modelLifecycleState := by
        split at second
        · exact activateRuntime_ok second
        · cases second
          exact ⟨.refl, rfl⟩
      exact deploys.1.trans activates.1 deploys.2 activates.2

theorem advance_ok {rapp : Bool} {event : ModelLifecycleEvent} {decidedBy : Option Str}
    (advanced : row.advance o rapp m event decidedBy = .ok next) :
    ∃ fired, row.fireModel event = .ok fired ∧
      (event = .retire ∧ fired.retireRuntime = .ok next ∨ event ≠ .retire ∧ next = fired) := by
  unfold advance Database.advanceModelLifecycle at advanced
  obtain ⟨db, ok, same⟩ := bind_ok advanced
  cases same
  split at ok
  · cases ok
  · split at ok
    · cases ok
    · obtain ⟨-, -, ok⟩ := bind_ok ok
      obtain ⟨fired, fires, ok⟩ := bind_ok ok
      unfold Database.fireModelEvent at fires
      split at fires
      · cases fires
      · obtain ⟨changed, changes, made⟩ := bind_ok fires
        cases made
        refine ⟨changed, changes, ?_⟩
        split at ok
        · next retires =>
          obtain ⟨ended, ends, made⟩ := bind_ok ok
          cases made
          simp only [Database.setLifecycle, Function.update_self] at ends ⊢
          exact .inl ⟨retires, ends⟩
        · next other =>
          cases ok
          exact .inr ⟨other, by simp [Database.setLifecycle]⟩

theorem retireRuntime_moved {fired : ModelLifecycle} (fires : row.fireModel .retire = .ok fired)
    (retires : fired.retireRuntime = .ok next) : Moved row next := by
  obtain ⟨state, edge, is, runtime, recorded⟩ := fireModel_ok fires
  have retired : fired.modelLifecycleState = .retired := is.trans ((end_of_fire edge).2.2.mpr rfl)
  have first := fireModel_ended fires
  unfold retireRuntime at retires
  split at retires
  · obtain ⟨ways, terminated, -, ended⟩ := terminateRuntime_ok retires
    refine ⟨fun _ => ⟨?_, ?_, fun _ => .inr terminated⟩, fun undeployed leaves => ?_,
      first.trans ways.ended⟩
    · rw [terminated, ended]
      simp
    · rw [terminated]
      decide
    · have cleared := (ways.cleared (runtime.trans undeployed) leaves).1
      rw [retired] at cleared
      cases cleared
  · next unterminable =>
    cases retires
    refine ⟨fun settled => ⟨?_, ?_, fun _ => ?_⟩, fun undeployed leaves => ?_, first⟩
    · rw [runtime, recorded]
      exact settled.recorded
    · rw [runtime]
      exact settled.rests
    · have rests := settled.rests
      rw [← runtime] at rests
      revert rests unterminable
      cases next.runtimeLifecycleState <;> decide
    · exact absurd (runtime.trans undeployed) leaves

theorem advance_moved {rapp : Bool} {event : ModelLifecycleEvent} {decidedBy : Option Str}
    (advanced : row.advance o rapp m event decidedBy = .ok next) : Moved row next := by
  obtain ⟨fired, fires, ⟨rfl, retires⟩ | ⟨other, rfl⟩⟩ := advance_ok advanced
  · exact retireRuntime_moved fires retires
  · obtain ⟨state, edge, is, runtime, recorded⟩ := fireModel_ok fires
    refine .of_model runtime recorded (fun retired => ?_) (fireModel_ended fires)
    exact absurd ((end_of_fire edge).2.2.mp (is.symm.trans retired)) other

end ModelLifecycle

theorem Serving.Call.move_moved (call : Serving.Call) (moves : call.move o m row = .ok next) :
    Moved row next := by
  cases call with
  | deploy _ =>
    obtain ⟨-, -, deployed⟩ := bind_ok moves
    exact (ModelLifecycle.deployRuntime_ok deployed).1
  | activate _ => exact (ModelLifecycle.activateRuntime_ok moves).1
  | scale _ => exact ModelLifecycle.scaleRuntime_ok moves
  | terminate _ => exact (ModelLifecycle.terminateRuntime_ok moves).1
  | load _ =>
    obtain ⟨-, -, loaded⟩ := bind_ok moves
    exact ModelLifecycle.loadRuntime_moved loaded
  | infer _ =>
    obtain ⟨-, -, same⟩ := bind_ok moves
    cases same
    exact .refl
  | advance _ _ _ _ => exact ModelLifecycle.advance_moved moves
  | runs _ => exact ModelLifecycle.fireRuns_moved moves
  | other _ =>
    cases moves
    exact .refl

end Rows

namespace Serving

open Versioned (Row Holds Later)

variable {s s' : State} {r : Request} {i : Nat} {m : ModelId}

def State.current (s : State) (m : ModelId) : Option (Row ModelLifecycle) := some (s.rows m)

structure Sound (s : State) : Prop where
  settled : ∀ m, Settled (s.lifecycle m)
  held : ∀ (i : Nat) (r : Request), s.request i = some r →
    ∀ (m : ModelId) (row : Row ModelLifecycle), r.held m = some row → Holds s.current m row

theorem written_some {next : ModelLifecycle} (writes : r.written m = some next) :
    m ∈ r.call.models ∧ ∃ row, r.held m = some row ∧
      r.call.move r.outside m row.value = .ok next := by
  unfold Request.written at writes
  obtain ⟨row, held, rest⟩ := Option.bind_eq_some_iff.mp writes
  obtain ⟨moved, moves, rest⟩ := Option.bind_eq_some_iff.mp rest
  split at rest
  · next its =>
    cases rest
    refine ⟨its.1, row, held, ?_⟩
    cases made : r.call.move r.outside m row.value with
    | error _ => simp [made, Except.toOption] at moves
    | ok next => simpa [made, Except.toOption] using moves
  · cases rest

theorem apply_rows (sound : Sound s) (is : s.request i = some r) (fresh : s.fresh r = true)
    (m : ModelId) : (s.apply r).rows m = s.rows m ∨
      Moved (s.lifecycle m) ((s.apply r).lifecycle m) ∧
        (s.rows m).version < ((s.apply r).rows m).version := by
  cases writes : r.written m with
  | none => exact .inl (by simp [State.apply, writes])
  | some next =>
    obtain ⟨its, row, held, moves⟩ := written_some writes
    have unchanged := List.all_eq_true.mp fresh m its
    have version : (s.rows m).version = row.version := by simpa [writes, held] using unchanged
    have same := (sound.held i r is m row held).fresh rfl version
    have written : (s.apply r).rows m = ⟨next, (s.rows m).version + 1⟩ := by
      simp [State.apply, writes]
    refine .inr ⟨?_, by simp [written]⟩
    unfold State.lifecycle
    rw [written, same]
    exact r.call.move_moved moves

theorem request_set {request : Option Request} {j : Nat}
    (is : (s.setRequest i request).request j = some r) :
    request = some r ∨ s.request j = some r :=
  Table.set_join_cases is

def RowsMoved (s s' : State) : Prop := ∀ m, s'.rows m = s.rows m ∨
  Moved (s.lifecycle m) (s'.lifecycle m) ∧ (s.rows m).version < (s'.rows m).version

theorem act_rows {act : Act} (sound : Sound s) (step : State.Step s act s') : RowsMoved s s' := by
  intro m
  cases act with
  | arrive outside call =>
    cases step
    exact .inl rfl
  | read i modelId =>
    obtain ⟨r, is, reads⟩ := Option.bind_eq_some_iff.mp step
    split at reads <;> cases reads
    exact .inl rfl
  | dies i =>
    cases step
    exact .inl rfl
  | commit i =>
    obtain ⟨r, is, commits⟩ := Option.bind_eq_some_iff.mp step
    split at commits <;> cases commits
    unfold State.finish
    split
    · next passes =>
      exact apply_rows sound is (Bool.and_eq_true_iff.mp passes).2 m
    · exact .inl rfl

theorem RowsMoved.later (moved : RowsMoved s s') : Later s.current s'.current := by
  rintro m row ⟨⟩
  refine ⟨s'.rows m, rfl, ?_⟩
  exact (moved m).imp id And.right

theorem RowsMoved.lifecycle (moved : RowsMoved s s') (m : ModelId) :
    Moved (s.lifecycle m) (s'.lifecycle m) := by
  rcases moved m with same | ⟨moves, -⟩
  · unfold State.lifecycle
    rw [same]
    exact .refl
  · exact moves

theorem Sound.start : Sound {} where
  settled _ := .new
  held i r is := by simp [State.request] at is

theorem Sound.act {act : Act} (sound : Sound s) (step : State.Step s act s') : Sound s' := by
  have moved := act_rows sound step
  have kept : ∀ i r, s.request i = some r → ∀ m row, r.held m = some row →
      Holds s'.current m row :=
    fun i r is m row held => (sound.held i r is m row held).later moved.later
  refine ⟨fun m => (moved.lifecycle m).settled (sound.settled m), fun j r' is' => ?_⟩
  cases act with
  | arrive outside call =>
    cases step
    rcases Table.append_cases (Option.join_eq_some_iff.mp is') with ⟨-, new⟩ | was
    · cases new
      exact fun _ _ held => by cases held
    · exact kept j r' (Option.join_eq_some_iff.mpr was)
  | read i modelId =>
    obtain ⟨r, is, reads⟩ := Option.bind_eq_some_iff.mp step
    split at reads <;> cases reads
    rcases request_set is' with new | was
    · cases new
      intro m row held
      dsimp only at held
      split at held
      · next same =>
        cases held
        exact Versioned.holds_loaded (same ▸ rfl)
      · exact kept i r is m row held
    · exact kept j r' was
  | dies i =>
    cases step
    rcases request_set is' with ended | was
    · cases ended
    · exact kept j r' was
  | commit i =>
    obtain ⟨r, is, commits⟩ := Option.bind_eq_some_iff.mp step
    split at commits <;> cases commits
    unfold State.finish at is' kept ⊢
    split at is' <;> rcases request_set is' with ended | was
    · cases ended
    · exact kept j r' was
    · cases ended
    · exact kept j r' was

/-- An inference request commits although its model was retired after it had read the row. -/
def State.lapses (s : State) : Act → Bool
  | .commit i => (s.request i).any fun r =>
    match r.call with
    | .infer body => s.state body.modelId = .retired &&
      (r.held body.modelId).any fun row => row.value.modelLifecycleState ≠ .retired
    | _ => false
  | _ => false

def After (s s' : State) : Prop := ∀ m, Ended (s.lifecycle m) (s'.lifecycle m) ∧
  (s.state m = .retired → s'.jobsOf m = s.jobsOf m)

theorem After.refl : After s s := fun _ => ⟨.refl, fun _ => rfl⟩

theorem After.trans {s'' : State} (first : After s s') (second : After s' s'') : After s s'' := by
  intro m
  refine ⟨(first m).1.trans (second m).1, fun retired => ?_⟩
  have still := ((first m).1 (endOfLife_iff.mpr (.inr retired))).2.1 retired
  exact ((second m).2 still).trans ((first m).2 retired)

theorem requestInference_ok {o : Outside} {row : ModelLifecycle} {body : InferenceRequest}
    {job : InferenceJob} (ok : requestInference o row body = .ok job) :
    row.modelLifecycleState ≠ .retired ∧ row.runtimeLifecycleState = .active ∧
      job.modelId = body.modelId := by
  obtain ⟨-, -, ok⟩ := bind_ok ok
  split at ok
  · cases ok
  · next lives =>
    split at ok
    · cases ok
    · next serves =>
      obtain ⟨-, -, made⟩ := bind_ok ok
      cases made
      exact ⟨lives, not_not.mp serves, rfl⟩

theorem jobsOf_apply (prompt : s.lapses (.commit i) = false) (is : s.request i = some r)
    (retired : s.state m = .retired) : (s.apply r).jobsOf m = s.jobsOf m := by
  unfold State.jobsOf State.apply
  rw [List.filter_append]
  suffices none : r.job.toList.filter (·.modelId = m) = [] by rw [none, List.append_nil]
  rw [List.filter_eq_nil_iff]
  intro job mem its
  obtain rfl := of_decide_eq_true its
  have made := Option.mem_toList.mp mem
  unfold Request.job at made
  split at made
  · next body asks =>
    obtain ⟨row, held, made⟩ := Option.bind_eq_some_iff.mp made
    cases answered : requestInference r.outside row.value body with
    | error _ => simp [answered, Except.toOption] at made
    | ok made' =>
      obtain rfl : made' = job := by simpa [answered, Except.toOption] using made
      obtain ⟨lives, -, same⟩ := requestInference_ok answered
      rw [same] at retired
      simp [State.lapses, is, asks, retired, held, lives] at prompt
  · cases made

theorem act_after {act : Act} (sound : Sound s) (prompt : s.lapses act = false)
    (step : State.Step s act s') : After s s' := by
  refine fun m => ⟨((act_rows sound step).lifecycle m).ended, fun retired => ?_⟩
  cases act with
  | arrive outside call =>
    cases step
    rfl
  | read i modelId =>
    obtain ⟨r, is, reads⟩ := Option.bind_eq_some_iff.mp step
    split at reads <;> cases reads
    rfl
  | dies i =>
    cases step
    rfl
  | commit i =>
    obtain ⟨r, is, commits⟩ := Option.bind_eq_some_iff.mp step
    split at commits <;> cases commits
    unfold State.finish
    split
    · exact jobsOf_apply prompt is retired
    · rfl

/-- A runtime is brought up for a model that has cleared governance alone; a deprecated model's never
rises again; a retired model has none, and no inference is started for it. -/
structure EndsServing (trace : List (Runs.Step State Act)) (s : State) : Prop where
  cleared : ∀ t ∈ trace, ∀ m, t.before.runtime m = .notDeployed → t.after.runtime m ≠ .notDeployed →
    (t.before.state m).cleared = true ∧ t.after.state m = t.before.state m
  deprecated : ∀ t ∈ trace, ∀ m, t.after.state m = .deprecated →
    ∃ moves, (s.lifecycle m).runtimeTransitions = (t.after.lifecycle m).runtimeTransitions ++ moves ∧
      ∀ state ∈ moves, state ≠ .deployed ∧ state ≠ .active ∧ state ≠ .scaling
  retired : ∀ t ∈ trace, ∀ m, t.after.state m = .retired →
    (s.runtime m = .notDeployed ∨ s.runtime m = .terminated) ∧ s.jobsOf m = t.after.jobsOf m

theorem end_of_life_stops_serving {trace : List (Runs.Step State Act)}
    (run : Runs.Run State.Step {} trace s) (prompt : ∀ t ∈ trace, t.before.lapses t.label = false) :
    EndsServing trace s := by
  have keeps := fun (s : State) (act : Act) (s' : State) (sound : Sound s)
    (_ : s.lapses act = false) (step : State.Step s act s') => sound.act step
  have sound := run.invariant_of_guarded Sound (·.lapses · = false) .start keeps prompt
  have after := run.later_of_guarded Sound (·.lapses · = false) .start keeps After
    (fun _ => .refl) (fun _ _ _ => .trans) (fun _ _ _ => act_after) prompt
  refine ⟨?_, fun t mem m deprecated => ?_, fun t mem m retired => ?_⟩
  · refine run.transitions_of_guarded Sound (·.lapses · = false) .start keeps _ ?_ prompt
    exact fun s act s' sound _ step m => ((act_rows sound step).lifecycle m).cleared
  · have ended := (after t mem m).1 (endOfLife_iff.mpr (.inl deprecated))
    obtain ⟨-, -, moves, recorded, only⟩ := ended
    refine ⟨moves, recorded, fun state is => ?_⟩
    rcases only state is with rfl | rfl <;> decide
  · have ended := (after t mem m).1 (endOfLife_iff.mpr (.inr retired))
    exact ⟨(sound.settled m).retired (ended.2.1 retired), (after t mem m).2 retired⟩

def served (i : Nat) (call : Call) : List Act :=
  [.arrive { now := 0, known := fun _ => true, deployment := id, timeout := 5 } call, .read i 0, .commit i]

def decided (i : Nat) (event : ModelLifecycleEvent) : List Act :=
  served i (.advance false 0 event (some []))

def certifies : List Act :=
  served 0 (.runs [⟨0, .createTraining, some 0, rfl⟩, ⟨0, .trainingComplete, none, rfl⟩]) ++
  decided 1 .approveTraining ++
  served 2 (.runs [⟨0, .createValidation, none, rfl⟩, ⟨0, .validationComplete, none, rfl⟩]) ++
  decided 3 .approveValidation ++
  served 4 (.runs [⟨0, .createEmulation, none, rfl⟩, ⟨0, .emulationComplete, none, rfl⟩]) ++
  decided 5 .submitForApproval ++ decided 6 .approve ++ decided 7 .certify ++
  served 8 (.load [0])

/-- An inference that is asked for while the model is served and one that is asked for afterwards. -/
def retires : List Act :=
  certifies ++ served 9 (.infer ⟨0, none, none⟩) ++ decided 10 .deprecate ++ decided 11 .retire ++
    served 12 (.infer ⟨0, none, none⟩)

theorem retires_ends_serving : EndsServing (Runs.stepsOf (Runs.nextOf State.act) {} retires)
    (retires.foldl (Runs.nextOf State.act) {}) :=
  end_of_life_stops_serving (Runs.run_enabled (by decide)) (by decide)
def servesRetired : List Act :=
  certifies ++ (served 9 (.infer ⟨0, none, none⟩)).take 2 ++ decided 10 .deprecate ++
    decided 11 .retire ++ [.commit 9]

theorem serves_retired : ¬ ∀ (trace : List (Runs.Step State Act)) (s : State),
    Runs.Run State.Step {} trace s → EndsServing trace s := by
  intro always
  have run : Runs.Run State.Step {} (Runs.stepsOf (Runs.nextOf State.act) {} servesRetired)
      (servesRetired.foldl (Runs.nextOf State.act) {}) := Runs.run_enabled (by decide)
  have ends := always _ _ run
  have late : ∃ t ∈ Runs.stepsOf (Runs.nextOf State.act) {} servesRetired,
      t.after.state 0 = .retired ∧
        (servesRetired.foldl (Runs.nextOf State.act) {}).jobsOf 0 ≠ t.after.jobsOf 0 := by
    decide
  obtain ⟨t, mem, retired, serves⟩ := late
  exact serves (ends.retired t mem 0 retired).2

end Serving

end Smo.Aimgf
