import Smo.RanNfOam.ConfigJobs.Sending
import Smo.RanNfOam.ConfigJobs.Waves

/-! What running the waves of a job does, as a relation between the job before and after
and what was sent meanwhile. -/
namespace Smo.RanNfOam.ConfigJobs

open Transaction

def RanIn (wave : Nat) (row row' : WriteConfigSubChange) : Prop :=
  if row.wave = wave then Settled row row' else row' = row

theorem withWave_ran {wave : Nat} {rows ran : List WriteConfigSubChange}
    (settled : List.Forall₂ Settled (waveRows rows wave) ran) :
    List.Forall₂ (RanIn wave) rows (withWave wave rows ran) := by
  induction rows generalizing ran with
  | nil => exact .nil
  | cons row rows ih =>
    by_cases inWave : row.wave = wave
    · rw [waveRows, List.filter_cons_of_pos (by simpa using inWave)] at settled
      cases settled with
      | cons first rest =>
        rw [withWave, if_pos inWave]
        refine .cons ?_ (ih rest)
        rwa [RanIn, if_pos inWave]
    · rw [waveRows, List.filter_cons_of_neg (by simpa using inWave)] at settled
      have kept : RanIn wave row row := by rw [RanIn, if_neg inWave]
      cases ran with
      | nil =>
        have unchanged := ih settled
        rw [withWave]
        cases rows with
        | nil => exact .cons kept .nil
        | cons next rest => exact .cons kept (by simpa only [withWave] using unchanged)
      | cons first rest =>
        rw [withWave, if_neg inWave]
        exact .cons kept (ih settled)

section Relation

variable {σ : Type} (o1 : O1Clients σ) (now : Time)

structure WaveRan (before after : JobRows) (new : List Dispatch) : Prop where
  job : after.job = { before.job with currentWave := before.job.currentWave + 1 }
  rows : List.Forall₂ (RanIn (before.job.currentWave + 1)) before.rows after.rows
  sent : WaveSent o1 now before.job (waveRows before.rows (before.job.currentWave + 1)) new

/-- The waves of a job ran until it ended, halted or, to be undone, failed a gate. -/
inductive Advance : JobRows → List Dispatch → JobRows → Prop
  | ended {before mid after : JobRows} {new : List Dispatch} (ran : WaveRan o1 now before mid new)
      (last : mid.job.waveCount ≤ mid.job.currentWave) (finished : finish mid = .ok after) :
      Advance before new after
  | halted {before mid after : JobRows} {new : List Dispatch} {reason : HaltedReason}
      {detail : Option String} {nextAt : Option Time} (ran : WaveRan o1 now before mid new)
      (inside : mid.job.currentWave < mid.job.waveCount)
      (held : halt mid reason detail nextAt = .ok after) : Advance before new after
  | failed {before mid : JobRows} {new : List Dispatch} (ran : WaveRan o1 now before mid new)
      (inside : mid.job.currentWave < mid.job.waveCount)
      (revert : mid.job.onGateFailure = .revert) : Advance before new mid
  | next {before mid after : JobRows} {new later : List Dispatch}
      (ran : WaveRan o1 now before mid new)
      (inside : mid.job.currentWave < mid.job.waveCount) (rest : Advance mid later after) :
      Advance before (new ++ later) after

def SentFor (jr : JobRows) (dispatch : Dispatch) : Prop :=
  dispatch.moment = now ∧ ∃ wave, dispatch.job = { jr.job with currentWave := wave }

end Relation

section Facts

variable {σ : Type} {o1 : O1Clients σ} {site : Site} {now : Time} {before mid after jr : JobRows}
  {new : List Dispatch} {alarms : List Alarm} {sent : List Dispatch} {fresh : Nat}

theorem WaveRan.sentFor (ran : WaveRan o1 now before mid new) :
    ∀ dispatch ∈ new, SentFor now before dispatch := by
  intro dispatch mem
  obtain ⟨row, -, rfl⟩ := ran.sent.of_wave dispatch mem
  exact ⟨rfl, before.job.currentWave, rfl⟩

theorem SentFor.after_wave {dispatch : Dispatch} (ran : WaveRan o1 now before mid new)
    (sent : SentFor now mid dispatch) : SentFor now before dispatch := by
  obtain ⟨moment, wave, job⟩ := sent
  refine ⟨moment, wave, ?_⟩
  rw [job, ran.job]

theorem Advance.sentFor (advance : Advance o1 now before new after) :
    ∀ dispatch ∈ new, SentFor now before dispatch := by
  induction advance with
  | ended ran => exact ran.sentFor
  | halted ran => exact ran.sentFor
  | failed ran => exact ran.sentFor
  | next ran inside rest ih =>
    intro dispatch mem
    rcases List.mem_append.mp mem with first | later
    · exact ran.sentFor dispatch first
    · exact (ih dispatch later).after_wave ran

theorem processing_aggregate (statuses : List SubChangeStatus) :
    ∃ state, writeConfigJobFsm.fire .processing (aggregateEvent statuses) = .ok state ∧
      state ∈ [.completed, .partialSuccess, .failed] := by
  unfold aggregateEvent
  dsimp only
  split
  · exact ⟨.partialSuccess, rfl, by decide⟩
  · split
    · exact ⟨.completed, rfl, by decide⟩
    · exact ⟨.failed, rfl, by decide⟩

theorem finish_ok (runs : jr.job.status = .processing) :
    ∃ state ∈ [JobState.completed, .partialSuccess, .failed],
      writeConfigJobFsm.fire .processing (aggregateEvent (jr.rows.map (·.status))) = .ok state ∧
        finish jr = .ok { jr with job := { jr.job with status := state, nextWaveAt := none } } := by
  obtain ⟨state, fired, member⟩ := processing_aggregate (jr.rows.map (·.status))
  refine ⟨state, member, fired, ?_⟩
  rw [finish, runs, fired]
  rfl

theorem halt_ok (runs : jr.job.status = .processing) (reason : HaltedReason)
    (detail : Option String) (nextAt : Option Time) :
    halt jr reason detail nextAt = .ok { jr with job := { jr.job with
      status := .halted, haltedReason := some reason, haltedDetail := detail
      nextWaveAt := nextAt } } := by
  rw [halt, runs]
  rfl

inductive TurnOf (jr : JobRows) : Turn → Prop
  | ended {after : JobRows} (last : jr.job.waveCount ≤ jr.job.currentWave)
      (finished : finish jr = .ok after) : TurnOf jr (.rests after)
  | halted {after : JobRows} {reason : HaltedReason} {detail : Option String}
      {nextAt : Option Time} (inside : jr.job.currentWave < jr.job.waveCount)
      (held : halt jr reason detail nextAt = .ok after) : TurnOf jr (.rests after)
  | gateFailed {failure : String} (inside : jr.job.currentWave < jr.job.waveCount)
      (revert : jr.job.onGateFailure = .revert) : TurnOf jr (.gateFailed failure)
  | goesOn (inside : jr.job.currentWave < jr.job.waveCount) : TurnOf jr .goesOn

theorem afterWave_turn (runs : jr.job.status = .processing) :
    ∃ turn, afterWave now jr alarms = .ok turn ∧ TurnOf jr turn := by
  unfold afterWave
  split
  next last =>
    obtain ⟨state, -, -, finished⟩ := finish_ok runs
    rw [finished]
    exact ⟨_, rfl, .ended last finished⟩
  next inside =>
    have inside : jr.job.currentWave < jr.job.waveCount := by omega
    have rests : ∀ reason detail nextAt, ∃ turn,
        Turn.rests <$> halt jr reason detail nextAt = .ok turn ∧ TurnOf jr turn := by
      intro reason detail nextAt
      have held := halt_ok runs reason detail nextAt
      rw [held]
      exact ⟨_, rfl, .halted inside held⟩
    split
    next failure failed =>
      split
      next revert => exact ⟨_, rfl, .gateFailed inside revert⟩
      next => exact rests _ _ _
    next passed =>
      split
      next => exact rests _ _ _
      next => exact ⟨_, rfl, .goesOn inside⟩

theorem finish_status {after : JobRows}
    (began : jr.job.status = .processing ∨ jr.job.status = .halted)
    (finished : finish jr = .ok after) :
    after.job.status ∈ [JobState.completed, .partialSuccess, .failed] := by
  obtain ⟨status, fired, same⟩ := bind_ok finished
  cases same
  unfold aggregateEvent at fired
  dsimp only at fired
  rcases began with began | began <;> rw [began] at fired
  all_goals
    split at fired
    next =>
      cases fired
      exact List.mem_cons_of_mem _ List.mem_cons_self
    next =>
      split at fired
      next =>
        cases fired
        exact List.mem_cons_self
      next =>
        cases fired
        exact List.mem_cons_of_mem _ (List.mem_cons_of_mem _ List.mem_cons_self)

theorem halt_status {after : JobRows} {reason : HaltedReason} {detail : Option String}
    {nextAt : Option Time} (runs : jr.job.status = .processing)
    (held : halt jr reason detail nextAt = .ok after) : after.job.status = .halted := by
  rw [halt_ok runs] at held
  cases held
  rfl

theorem WaveRan.runs (ran : WaveRan o1 now before mid new)
    (runs : before.job.status = .processing) : mid.job.status = .processing := by
  rw [ran.job]
  exact runs

theorem Advance.revert (advance : Advance o1 now before new after)
    (runs : before.job.status = .processing) (running : after.job.status = .processing) :
    after.job.onGateFailure = .revert := by
  induction advance with
  | ended ran last finished =>
    have final := finish_status (.inl (ran.runs runs)) finished
    rw [running] at final
    exact absurd final (by decide)
  | halted ran inside held =>
    have final := halt_status (ran.runs runs) held
    rw [running] at final
    cases final
  | failed ran inside revert => exact revert
  | next ran inside rest ih => exact ih (ran.runs runs) running

/-- How running the waves may end when it answers: the job is still running only when it is
to be undone. -/
def Ran (o1 : O1Clients σ) (now : Time) (jr : JobRows) (sent : List Dispatch) (fresh : Nat)
    (result : Advanced) (wire : Wire σ) : Prop :=
  ∃ new, Advance o1 now jr new result.jr ∧
    (result.undo = none ↔ result.jr.job.status ≠ .processing) ∧ Wire.Log (sent ++ new) fresh wire

def Lost (o1 : O1Clients σ) (now : Time) (jr : JobRows) (sent : List Dispatch) (fresh : Nat)
    (wire : Wire σ) : Prop :=
  ∃ new, (∀ dispatch ∈ new, SentFor now jr dispatch) ∧ Unanswered o1 (sent ++ new) fresh wire

theorem runWave_ran : Ensures (Wire.Log sent fresh) (runWave o1 site now before alarms)
    (fun ran wire => ∃ new, WaveRan o1 now before ran.1 new ∧ Wire.Log (sent ++ new) fresh wire)
    (Lost o1 now before sent fresh) := by
  apply ((dispatchWave_sends _).weaken (fun _ log => log) (fun _ _ ran => ran)
    fun wire lost => ?_).bind
  · rintro result wire ⟨settled, new, waveSent, log⟩
    exact ⟨new, ⟨rfl, withWave_ran settled, waveSent⟩, log⟩
  · obtain ⟨new, ofWave, unanswered⟩ := lost
    refine ⟨new, fun dispatch mem => ?_, unanswered⟩
    obtain ⟨row, -, rfl⟩ := ofWave dispatch mem
    exact ⟨rfl, before.job.currentWave, rfl⟩

theorem Lost.after_wave {wire : Wire σ} (ran : WaveRan o1 now before mid new)
    (lost : Lost o1 now mid (sent ++ new) fresh wire) : Lost o1 now before sent fresh wire := by
  obtain ⟨more, sentFor, unanswered⟩ := lost
  refine ⟨new ++ more, fun dispatch mem => ?_, by rwa [← List.append_assoc]⟩
  rcases List.mem_append.mp mem with first | later
  · exact ran.sentFor dispatch first
  · exact (sentFor dispatch later).after_wave ran

theorem Ran.after_wave {result : Advanced} {wire : Wire σ} (ran : WaveRan o1 now before mid new)
    (inside : mid.job.currentWave < mid.job.waveCount)
    (rest : Ran o1 now mid (sent ++ new) fresh result wire) :
    Ran o1 now before sent fresh result wire := by
  obtain ⟨more, advance, undo, log⟩ := rest
  exact ⟨new ++ more, .next ran inside advance, undo, by rwa [← List.append_assoc]⟩

theorem advanceWaves_ran (runs : before.job.status = .processing) :
    Ensures (Wire.Log sent fresh) (advanceWaves o1 site now before alarms)
      (Ran o1 now before sent fresh) (Lost o1 now before sent fresh) := by
  induction left : before.job.waveCount - before.job.currentWave using Nat.strong_induction_on
    generalizing before alarms sent with
  | _ _ ih =>
    subst left
    intro wire log
    rw [advanceWaves_loop]
    revert wire
    unfold loopTurn
    apply runWave_ran.bind
    rintro ⟨mid, raised⟩ wire ⟨new, ran, log⟩
    replace ran : WaveRan o1 now before mid new := ran
    have midRuns := ran.runs runs
    obtain ⟨turn, decided, turnOf⟩ : ∃ turn, afterWave now mid raised = .ok turn ∧
      TurnOf mid turn := afterWave_turn midRuns
    simp only [decided, orRaise, pure_bind]
    cases turnOf with
    | ended last finished =>
      have final := finish_status (.inl midRuns) finished
      refine ⟨new, .ended ran last finished, iff_of_true rfl fun running => ?_, log⟩
      rw [running] at final
      exact absurd final (by decide)
    | halted inside held =>
      have final := halt_status midRuns held
      refine ⟨new, .halted ran inside held, iff_of_true rfl fun running => ?_, log⟩
      rw [running] at final
      cases final
    | gateFailed inside revert =>
      exact ⟨new, .failed ran inside revert, iff_of_false nofun fun stopped => stopped midRuns, log⟩
    | goesOn inside =>
      have count : mid.job.waveCount = before.job.waveCount := by rw [ran.job]
      have wave : mid.job.currentWave = before.job.currentWave + 1 := by rw [ran.job]
      have fewer : mid.job.waveCount - mid.job.currentWave <
          before.job.waveCount - before.job.currentWave := by omega
      apply (ih _ fewer midRuns rfl).weaken (fun _ log => log)
        (fun _ _ later => later.after_wave ran inside) (fun _ lost => lost.after_wave ran)
      exact log

end Facts

end Smo.RanNfOam.ConfigJobs
