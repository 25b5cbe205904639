import Smo.RanNfOam.ConfigJobs.Performed

/-! What the kill switch stops: every request that runs waves asks it, but the sweep of the
due pauses does not. -/
namespace Smo.RanNfOam.ConfigJobs

open Runs

theorem SetGoing.clear {setting : Setting} {b b' : Board} {jr : JobRows}
    (going : SetGoing setting b jr b')
    (listed : ∀ jr, setting.listed jr → Clear setting jr.job.invokerId) :
    Clear setting jr.job.invokerId := by
  cases going with
  | made free clear => exact clear
  | goes mem goes =>
    cases goes with
    | approved _ _ _ _ clear | started _ _ _ clear => exact clear
    | continued _ _ clear going =>
      cases going
      exact clear
    | swept _ isListed going =>
      have clear := listed _ isListed
      cases going
      exact clear

namespace World

variable {σ : Type} {o1 : O1Clients σ}

def SweepsNoneKilled (world : World σ) (operation : Operation σ) : Prop :=
  operation = .advanceDue → ∀ jr, world.Due jr →
    ∀ name ∈ jr.job.invokerId, world.store.killOf name = none

theorem step_clear {world world' : World σ} {operation : Operation σ}
    (numbered : Numbered world.board) (guard : world.SweepsNoneKilled operation)
    (step : Step o1 world operation world') :
    ∀ dispatch ∈ dispatched world world', ∀ name ∈ dispatch.job.invokerId,
      world.store.killOf name = none := by
  intro dispatch mem
  rw [step] at mem
  obtain ⟨b, jr, b', -, going, -, wave, job⟩ := dispatched_sentBy numbered operation dispatch mem
  have clear := going.clear fun jr listed => guard listed.1 jr listed.2
  rw [job]
  exact clear

/-- As long as the sweep is not called while a stopped rApp's job is due, nothing is sent
for a stopped rApp's job. -/
theorem stopped_rapp_sends_nothing {start world : World σ}
    {trace : List (Runs.Step (World σ) (Operation σ))} (initial : Initial start)
    (run : Run (Step o1) start trace world)
    (guarded : ∀ t ∈ trace, t.before.SweepsNoneKilled t.label) :
    ∀ t ∈ trace, ∀ dispatch ∈ dispatched t.before t.after, ∀ name ∈ dispatch.job.invokerId,
      t.before.store.killOf name = none :=
  run.transitions_of_guarded (fun world => Numbered world.board) SweepsNoneKilled
    initial.numbered (fun _ _ _ numbered _ step => step_numbered numbered step)
    (fun t => ∀ dispatch ∈ dispatched t.before t.after, ∀ name ∈ dispatch.job.invokerId,
      t.before.store.killOf name = none)
    (fun _ _ _ numbered guard step => step_clear numbered guard step) guarded

/-- Not stopped, the rApp's job goes on. -/
theorem sweep_runs_next_wave :
    (dispatched (paused []) ((paused []).perform applying .advanceDue)).length = 1 ∧
      ∀ dispatch ∈ dispatched (paused []) ((paused []).perform applying .advanceDue),
        ∀ name ∈ dispatch.job.invokerId, (paused []).store.killOf name = none := by
  have run : Run (Step applying) twoElementWorld
      (stepsOf (perform applying) twoElementWorld (duringPause []) ++
        [⟨paused [], .advanceDue, (paused []).perform applying .advanceDue⟩])
      ((paused []).perform applying .advanceDue) :=
    run_then twoElementWorld (duringPause []) .advanceDue
  refine ⟨by decide +kernel, stopped_rapp_sends_nothing ⟨rfl, rfl⟩ run (fun t mem sweeps => ?_)
    _ (List.mem_append_right _ (List.mem_singleton.mpr rfl))⟩
  have noneKilled : (paused []).store.kills = [] := by decide +kernel
  rcases List.mem_append.mp mem with earlier | last
  · have label := label_mem earlier
    simp [duringPause, sweeps] at label
  · obtain rfl := List.mem_singleton.mp last
    intro jr _ name _
    change (paused []).store.killOf name = none
    rw [Store.killOf, noneKilled]
    rfl

/-- `rapp-1` is stopped during the pause. -/
def stopping : List (Operation Unit) := [.kill "rapp-1" "operator" none]

/-- The sweep runs the next wave of a stopped rApp's job. -/
theorem sweep_runs_stopped_rapp : ∃ (start world : World Unit)
    (trace : List (Runs.Step (World Unit) (Operation Unit))),
    Initial start ∧ Run (Step applying) start trace world ∧
      ∃ t ∈ trace, ∃ dispatch ∈ dispatched t.before t.after, ∃ name ∈ dispatch.job.invokerId,
        (t.before.store.killOf name).isSome := by
  have run : Run (Step applying) twoElementWorld
      (stepsOf (perform applying) twoElementWorld (duringPause stopping) ++
        [⟨paused stopping, .advanceDue, (paused stopping).perform applying .advanceDue⟩])
      ((paused stopping).perform applying .advanceDue) :=
    run_then twoElementWorld (duringPause stopping) .advanceDue
  refine ⟨_, _, _, ⟨rfl, rfl⟩, run, _, List.mem_append_right _ (List.mem_singleton.mpr rfl), ?_⟩
  have sends : (dispatched (paused stopping) ((paused stopping).perform applying .advanceDue)).any
      (fun dispatch => dispatch.job.invokerId.any fun name =>
        ((paused stopping).store.killOf name).isSome) = true := by decide +kernel
  obtain ⟨dispatch, mem, any⟩ := List.any_eq_true.mp sends
  obtain ⟨name, invoker, killed⟩ := (Option.any_eq_true _ _).mp any
  exact ⟨dispatch, mem, name, invoker, killed⟩

end World

end Smo.RanNfOam.ConfigJobs
