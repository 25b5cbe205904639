import Smo.RanNfOam.KpiGuards

/-! What holds of the KPI guards in every run whose jobs write when their windows start and whose workers
keep out of each other's way. -/
namespace Smo.RanNfOam.KpiGuards

namespace Stage

def version? : Stage → Option Nat
  | .loaded _ rowVersion | .comparing _ rowVersion _ | .recording _ rowVersion _ => some rowVersion
  | .looking | .reverting _ _ | .ended _ => none

def spends (jobId : Nat) : Stage → Bool
  | .recording other _ result => other = jobId ∧ result.verdict = .regressed
  | _ => false

theorem job_of_spends {stage : Stage} {j : Nat} (spends : stage.spends j = true) :
    stage.job? = some j := by
  cases stage with
  | recording jobId rowVersion result =>
    have both : jobId = j ∧ result.verdict = .regressed := by simpa [Stage.spends] using spends
    rw [Stage.job?, both.1]
  | _ => cases spends

end Stage

namespace Job

def Ended (job : Job) : Prop := job.status = .completed ∨ job.status = .partialSuccess

structure Good (job : Job) : Prop where
  timely : job.kpiGuard.isSome → ∀ write ∈ job.applied, write.time = job.anchor
  unstarted : job.status = .pendingApproval ∨ job.status = .scheduled → job.applied = []
  counted : job.finals = if job.checkedAt.isSome then 1 else 0
  once : job.reverts ≤ 1

end Job

structure Worker.Good (s : State) (worker : Worker) : Prop where
  ended : ∀ j ∈ worker.selected, ∃ job, s.jobs[j]? = some job ∧ job.Ended
  known : ∀ j, j ∈ worker.rest ∨ worker.stage.job? = some j → j ∈ worker.selected
  unchecked : ∀ j job, worker.stage.job? = some j → s.jobs[j]? = some job → job.checkedAt = none
  current : ∀ j job v, worker.stage.job? = some j → s.jobs[j]? = some job →
    worker.stage.version? = some v → job.rowVersion = v
  given : ∀ j ∈ worker.selected, j ∈ worker.rest ∨ worker.stage.job? = some j ∨
    ∀ job, s.jobs[j]? = some job → job.windowEnds + s.grace ≤ worker.now → job.checkedAt.isSome
  whole : ∀ dropped, worker.stage = .ended dropped → dropped = [] ∧ worker.rest = []

structure Sound (s : State) : Prop where
  jobs : ∀ (j : Nat) job, s.jobs[j]? = some job → job.Good
  workers : ∀ (i : Nat) worker, s.workers[i]? = some worker → worker.Good s
  alone : ∀ (i i' : Nat) worker worker' j, s.workers[i]? = some worker →
    s.workers[i']? = some worker' → worker.stage.job? = some j → worker'.stage.job? = some j → i = i'
  spent : ∀ (j : Nat) job, s.jobs[j]? = some job → job.reverts = 1 → job.checkedAt = none →
    ∃ (i : Nat) (worker : Worker), s.workers[i]? = some worker ∧ worker.stage.spends j = true

structure Kept (s s' : State) (written : Option Nat) : Prop where
  rows : ∀ (j : Nat) job, s.jobs[j]? = some job → job.Ended → some j ≠ written →
    s'.jobs[j]? = some job
  row : ∀ (j : Nat) job, s.jobs[j]? = some job → job.Ended → ∃ job', s'.jobs[j]? = some job' ∧
    job'.Ended ∧ job'.windowEnds = job.windowEnds ∧ (job.checkedAt.isSome → job'.checkedAt.isSome)
  grace : s'.grace = s.grace

variable {s s' : State} {worker worker' : Worker} {written : Option Nat} {w jobId : Nat} {a : Act}

theorem kept_of_same (jobs : s'.jobs = s.jobs) (grace : s'.grace = s.grace) : Kept s s' none := by
  refine ⟨fun j job is _ _ => ?_, fun j job is ended => ⟨job, ?_, ended, rfl, id⟩, grace⟩
  · rw [jobs]
    exact is
  · rw [jobs]
    exact is

theorem Worker.Good.keep (good : worker.Good s) (kept : Kept s s' written)
    (other : ∀ j, worker.stage.job? = some j → some j ≠ written) : worker.Good s' := by
  have hand (j : Nat) (job : Job) (inHand : worker.stage.job? = some j)
      (is : s'.jobs[j]? = some job) : s.jobs[j]? = some job := by
    obtain ⟨old, was, ended⟩ := good.ended j (good.known j (.inr inHand))
    rw [kept.rows j old was ended (other j inHand)] at is
    exact Option.some.inj is ▸ was
  refine ⟨fun j mem => ?_, good.known, fun j job inHand is => ?_, fun j job v inHand is => ?_,
    fun j mem => ?_, good.whole⟩
  · obtain ⟨job, is, ended⟩ := good.ended j mem
    obtain ⟨job', is', ended', _⟩ := kept.row j job is ended
    exact ⟨job', is', ended'⟩
  · exact good.unchecked j job inHand (hand j job inHand is)
  · exact good.current j job v inHand (hand j job inHand is)
  · refine (good.given j mem).imp_right (Or.imp_right fun handled job' is' due => ?_)
    obtain ⟨job, is, ended⟩ := good.ended j mem
    obtain ⟨_, same, _, ends, checked⟩ := kept.row j job is ended
    cases Option.some.inj (same.symm.trans is')
    rw [ends, kept.grace] at due
    exact checked (handled job is due)

theorem Sound.of_same (sound : Sound s) (jobs : s'.jobs = s.jobs) (workers : s'.workers = s.workers)
    (grace : s'.grace = s.grace) : Sound s' := by
  refine ⟨fun j job is => ?_, fun i worker is => ?_, ?_, ?_⟩
  · rw [jobs] at is
    exact sound.jobs j job is
  · rw [workers] at is
    exact (sound.workers i worker is).keep (kept_of_same jobs grace) fun _ _ => nofun
  · rw [workers]
    exact sound.alone
  · rw [jobs, workers]
    exact sound.spent

section Jobs

theorem edit_cases {from_ : List JobState} {change : Job → Job}
    (edited : s.edit jobId from_ change = some s') :
    ∃ job, s.jobs[jobId]? = some job ∧ job.status ∈ from_ ∧
      s' = s.withJob jobId { change job with rowVersion := job.rowVersion + 1 } := by
  unfold State.edit at edited
  cases found : s.jobs[jobId]? with
  | none =>
    rw [found] at edited
    cases edited
  | some job =>
    simp only [found, Option.ite_none_right_eq_some, Option.some.injEq] at edited
    exact ⟨job, rfl, edited.1, edited.2.symm⟩

variable {job row : Job} {j : Nat}

theorem withJob_get (is : (s.withJob jobId job).jobs[j]? = some row) :
    j = jobId ∧ row = job ∨ j ≠ jobId ∧ s.jobs[j]? = some row := by
  unfold State.withJob at is
  rw [List.getElem?_set] at is
  by_cases same : jobId = j
  · subst same
    simp only [if_true, Option.ite_none_right_eq_some, Option.some.injEq] at is
    exact .inl ⟨rfl, is.2.symm⟩
  · rw [if_neg same] at is
    exact .inr ⟨Ne.symm same, is⟩

theorem withJob_self {old : Job} (found : s.jobs[jobId]? = some old) :
    (s.withJob jobId job).jobs[jobId]? = some job := by
  have inside := (List.getElem?_eq_some_iff.mp found).1
  exact List.getElem?_set_self inside

theorem withJob_other (other : j ≠ jobId) : (s.withJob jobId job).jobs[j]? = s.jobs[j]? :=
  List.getElem?_set_ne (Ne.symm other)

theorem kept_edit (found : s.jobs[jobId]? = some job) (running : ¬job.Ended) :
    Kept s (s.withJob jobId row) none := by
  have other (j : Nat) (old : Job) (is : s.jobs[j]? = some old) (ended : old.Ended) : j ≠ jobId := by
    rintro rfl
    cases Option.some.inj (is.symm.trans found)
    exact running ended
  refine ⟨fun j old is ended _ => ?_, fun j old is ended => ⟨old, ?_, ended, rfl, id⟩, rfl⟩
  · rw [withJob_other (other j old is ended)]
    exact is
  · rw [withJob_other (other j old is ended)]
    exact is

theorem Sound.edit (sound : Sound s) (found : s.jobs[jobId]? = some job) (running : ¬job.Ended)
    (good : row.Good) (reverts : row.reverts = job.reverts)
    (checked : row.checkedAt = job.checkedAt) : Sound (s.withJob jobId row) := by
  have kept : Kept s (s.withJob jobId row) none := kept_edit found running
  refine ⟨fun j old is => ?_, fun i worker is => ?_, sound.alone, fun j old is sent waits => ?_⟩
  · rcases withJob_get is with ⟨_, rfl⟩ | ⟨_, there⟩
    · exact good
    · exact sound.jobs j old there
  · exact (sound.workers i worker is).keep kept fun _ _ => nofun
  · rcases withJob_get is with ⟨rfl, rfl⟩ | ⟨_, there⟩
    · exact sound.spent j job found (reverts ▸ sent) (checked ▸ waits)
    · exact sound.spent j old there sent waits

theorem Sound.ask (sound : Sound s) (kpiGuard : Option KpiGuard) (status : JobState) :
    Sound { s with
      jobs := s.jobs ++ [⟨kpiGuard, s.clock, status, [], 0, none, none, 1, 0, 0⟩] } := by
  have there (j : Nat) (job : Job) (is : s.jobs[j]? = some job) (more : List Job) :
      (s.jobs ++ more)[j]? = some job := by
    rw [List.getElem?_append_left (List.getElem?_eq_some_iff.mp is).1]
    exact is
  have cases_ (j : Nat) (job : Job)
      (is : (s.jobs ++ [⟨kpiGuard, s.clock, status, [], 0, none, none, 1, 0, 0⟩])[j]? = some job) :
      s.jobs[j]? = some job ∨ job = ⟨kpiGuard, s.clock, status, [], 0, none, none, 1, 0, 0⟩ := by
    by_cases inside : j < s.jobs.length
    · rw [List.getElem?_append_left inside] at is
      exact .inl is
    · rw [List.getElem?_append_right (by omega)] at is
      exact .inr (List.mem_singleton.mp (List.mem_of_getElem? is))
  have kept : Kept s { s with
      jobs := s.jobs ++ [⟨kpiGuard, s.clock, status, [], 0, none, none, 1, 0, 0⟩] } none :=
    ⟨fun j job is _ _ => there j job is _, fun j job is ended => ⟨job, there j job is _, ended, rfl, id⟩,
      rfl⟩
  refine ⟨fun j job is => ?_, fun i worker is => ?_, sound.alone, fun j job is sent waits => ?_⟩
  · rcases cases_ j job is with was | rfl
    · exact sound.jobs j job was
    · exact ⟨fun _ _ mem => absurd mem List.not_mem_nil, fun _ => rfl, rfl, Nat.zero_le 1⟩
  · exact (sound.workers i worker is).keep kept fun _ _ => nofun
  · rcases cases_ j job is with was | rfl
    · exact sound.spent j job was sent waits
    · cases sent

theorem guarded_ended (guarded : job.guarded = true) : job.Ended := by
  simp only [Job.guarded, Bool.and_eq_true, Bool.or_eq_true, decide_eq_true_eq] at guarded
  exact guarded.2

theorem Sound.select (sound : Sound s) (selected : s.act .select = some s') : Sound s' := by
  have is : s' = { s with workers := s.workers ++ [_] } := (Option.some.inj selected).symm
  have cases_ (i : Nat) (worker : Worker) (at_ : s'.workers[i]? = some worker) :
      s.workers[i]? = some worker ∨ worker.stage = .looking ∧ worker.rest = worker.selected ∧
        ∀ j ∈ worker.selected, ∃ job, s.jobs[j]? = some job ∧ job.Ended := by
    rw [is] at at_
    by_cases inside : i < s.workers.length
    · rw [List.getElem?_append_left inside] at at_
      exact .inl at_
    · rw [List.getElem?_append_right (by omega)] at at_
      cases List.mem_singleton.mp (List.mem_of_getElem? at_)
      refine .inr ⟨rfl, rfl, fun j mem => ?_⟩
      obtain ⟨job, found, guarded⟩ := Option.any_eq_true _ _ |>.mp (List.mem_filter.mp mem).2
      exact ⟨job, found, guarded_ended guarded⟩
  have jobs : s'.jobs = s.jobs := by rw [is]
  have kept : Kept s s' none := kept_of_same jobs (by rw [is])
  refine ⟨fun j job found => ?_, fun i worker at_ => ?_, fun i i' worker worker' j at_ at' hand hand' => ?_,
    fun j job found sent waits => ?_⟩
  · rw [jobs] at found
    exact sound.jobs j job found
  · rcases cases_ i worker at_ with was | ⟨looking, all, ended⟩
    · exact (sound.workers i worker was).keep kept fun _ _ => nofun
    · refine ⟨fun j mem => ?_, fun j holds => ?_, ?_, ?_, fun j mem => .inl (all ▸ mem), ?_⟩
      · rw [jobs]
        exact ended j mem
      · rw [looking, all] at holds
        exact holds.resolve_right (by simp [Stage.job?])
      · simp [looking, Stage.job?]
      · simp [looking, Stage.job?]
      · simp [looking]
  · rcases cases_ i worker at_ with was | ⟨looking, _⟩
    · rcases cases_ i' worker' at' with was' | ⟨looking', _⟩
      · exact sound.alone i i' worker worker' j was was' hand hand'
      · rw [looking'] at hand'
        cases hand'
    · rw [looking] at hand
      cases hand
  · rw [jobs] at found
    obtain ⟨i, worker, at_, spends⟩ := sound.spent j job found sent waits
    refine ⟨i, worker, ?_, spends⟩
    rw [is]
    rw [List.getElem?_append_left (List.getElem?_eq_some_iff.mp at_).1]
    exact at_

end Jobs

section Workers

variable {j : Nat}

theorem not_inHand (free : s.inHand j = false) {i : Nat} (at_ : s.workers[i]? = some worker) :
    worker.stage.job? ≠ some j := by
  intro hand
  have held : s.inHand j = true :=
    List.any_eq_true.mpr ⟨worker, List.mem_of_getElem? at_, decide_eq_true hand⟩
  rw [free] at held
  cases held

theorem Sound.work (sound : Sound s) (at_ : s.workers[w]? = some worker) (kept : Kept s s' written)
    (own : written = none ∨ written = worker.stage.job?)
    (workers : s'.workers = s.workers.set w worker')
    (jobs : ∀ (j : Nat) job, s'.jobs[j]? = some job → job.Good) (good : worker'.Good s')
    (hand : ∀ j, worker'.stage.job? = some j → worker.stage.job? = some j ∨ s.inHand j = false)
    (spent : ∀ (j : Nat) job, s'.jobs[j]? = some job → job.reverts = 1 → job.checkedAt = none →
      worker'.stage.spends j = true ∨ ∃ (i : Nat) (other : Worker), i ≠ w ∧
        s.workers[i]? = some other ∧ other.stage.spends j = true) : Sound s' := by
  have inside := (List.getElem?_eq_some_iff.mp at_).1
  have cases_ (i : Nat) (other : Worker) (is : s'.workers[i]? = some other) :
      i = w ∧ other = worker' ∨ i ≠ w ∧ s.workers[i]? = some other := by
    rw [workers, List.getElem?_set] at is
    by_cases same : w = i
    · subst same
      simp only [if_true, inside, Option.some.injEq] at is
      exact .inl ⟨rfl, is.symm⟩
    · rw [if_neg same] at is
      exact .inr ⟨Ne.symm same, is⟩
  refine ⟨jobs, fun i other is => ?_, fun i i' other other' j is is' holds holds' => ?_,
    fun j job found sent waits => ?_⟩
  · rcases cases_ i other is with ⟨_, rfl⟩ | ⟨differs, was⟩
    · exact good
    · refine (sound.workers i other was).keep kept fun j holds same => differs ?_
      rcases own with none_ | mine
      · rw [none_] at same
        cases same
      · exact sound.alone i w other worker j was at_ holds (mine ▸ same.symm)
  · rcases cases_ i other is with ⟨rfl, rfl⟩ | ⟨differs, was⟩
    · rcases cases_ i' other' is' with ⟨rfl, _⟩ | ⟨_, was'⟩
      · rfl
      · rcases hand j holds with mine | free
        · exact sound.alone i i' worker other' j at_ was' mine holds'
        · exact absurd holds' (not_inHand free was')
    · rcases cases_ i' other' is' with ⟨rfl, rfl⟩ | ⟨_, was'⟩
      · rcases hand j holds' with mine | free
        · exact sound.alone i i' other worker j was at_ holds mine
        · exact absurd holds (not_inHand free was)
      · exact sound.alone i i' other other' j was was' holds holds'
  · rcases spent j job found sent waits with mine | ⟨i, other, differs, was, spends⟩
    · refine ⟨w, worker', ?_, mine⟩
      rw [workers]
      exact List.getElem?_set_self inside
    · refine ⟨i, other, ?_, spends⟩
      rw [workers, List.getElem?_set_ne (Ne.symm differs)]
      exact was

theorem Sound.elsewhere (sound : Sound s) (at_ : s.workers[w]? = some worker)
    (open_ : ∀ j, worker.stage.spends j = false) (j : Nat) (job : Job)
    (found : s.jobs[j]? = some job) (sent : job.reverts = 1) (waits : job.checkedAt = none) :
    ∃ (i : Nat) (other : Worker), i ≠ w ∧ s.workers[i]? = some other ∧
      other.stage.spends j = true := by
  obtain ⟨i, other, was, spends⟩ := sound.spent j job found sent waits
  refine ⟨i, other, ?_, was, spends⟩
  rintro rfl
  cases Option.some.inj (was.symm.trans at_)
  rw [open_ j] at spends
  cases spends

theorem Sound.stage (sound : Sound s) (at_ : s.workers[w]? = some worker) {stage : Stage}
    (open_ : ∀ j, worker.stage.spends j = false) (hand : worker.stage.job? = some j)
    (same : stage.job? = some j)
    (current : ∀ job v, s.jobs[j]? = some job → stage.version? = some v → job.rowVersion = v) :
    Sound (s.withStage w worker stage) := by
  have good := sound.workers w worker at_
  have kept : Kept s (s.withStage w worker stage) none := kept_of_same rfl rfl
  refine sound.work at_ kept (.inl rfl) rfl sound.jobs ?_ (fun j' holds => .inl ?_)
    fun j job found sent waits => .inr (sound.elsewhere at_ open_ j job found sent waits)
  · refine ⟨good.ended, fun j' holds => ?_, fun j' job holds is => ?_, fun j' job v holds is read => ?_,
      fun j' mem => ?_, fun dropped is => ?_⟩
    · refine good.known j' (holds.imp_right fun there => ?_)
      rw [hand, ← same]
      exact there
    · refine good.unchecked j' job ?_ is
      rw [hand, ← same]
      exact holds
    · cases Option.some.inj (same.symm.trans holds)
      exact current job v is read
    · refine (good.given j' mem).imp_right (Or.imp_left fun there => ?_)
      rw [same, ← hand]
      exact there
    · have none_ : stage.job? = none := by
        rw [show stage = .ended dropped from is]
        rfl
      rw [same] at none_
      cases none_
  · rw [hand, ← same]
    exact holds

theorem Sound.look (sound : Sound s) (at_ : s.workers[w]? = some worker)
    (step : s.work w worker (.look w) = some s') (fresh : s.lapses (.look w) = false) : Sound s' := by
  have good := sound.workers w worker at_
  unfold State.work at step
  cases stage : worker.stage with
  | looking =>
    have none_ : worker.stage.job? = none := by rw [stage]; rfl
    have open_ (j : Nat) : worker.stage.spends j = false := by rw [stage]; rfl
    cases rest : worker.rest with
    | nil =>
      simp only [stage, rest, Option.some.injEq] at step
      subst step
      have kept : Kept s (s.withStage w worker (.ended [])) none := kept_of_same rfl rfl
      refine sound.work at_ kept (.inl rfl) rfl sound.jobs ?_ (fun j holds => (by cases holds))
        fun j job found sent waits => .inr (sound.elsewhere at_ open_ j job found sent waits)
      refine ⟨good.ended, fun j holds => good.known j (.inl ?_), fun _ _ holds => (by cases holds),
        fun _ _ _ holds => (by cases holds), fun j mem => .inr (.inr ?_), fun dropped is => ?_⟩
      · rcases holds with there | holds
        · exact there
        · cases holds
      · rcases good.given j mem with there | holds | handled
        · rw [rest] at there
          exact absurd there List.not_mem_nil
        · rw [none_] at holds
          cases holds
        · exact handled
      · cases is
        exact ⟨rfl, rest⟩
    | cons j later =>
      simp only [stage, rest] at step
      cases found : s.jobs[j]? with
      | none =>
        rw [found] at step
        cases step
      | some job =>
        simp only [found] at step
        have sub (j' : Nat) (mem : j' ∈ later) : j' ∈ worker.selected :=
          good.known j' (.inl (rest ▸ List.mem_cons_of_mem _ mem))
        have given (j' : Nat) (mem : j' ∈ worker.selected) : j' ∈ later ∨ j' = j ∨
            ∀ job, s.jobs[j']? = some job → job.windowEnds + s.grace ≤ worker.now →
              job.checkedAt.isSome := by
          rcases good.given j' mem with there | holds | handled
          · rw [rest] at there
            exact (List.mem_cons.mp there).elim (fun same => .inr (.inl same)) .inl
          · rw [none_] at holds
            cases holds
          · exact .inr (.inr handled)
        split_ifs at step with early
        · cases step
          have kept : Kept s (s.withStage w { worker with rest := later } .looking) none :=
            kept_of_same rfl rfl
          refine sound.work at_ kept (.inl rfl) rfl sound.jobs ?_ (fun j holds => (by cases holds))
            fun j job found sent waits => .inr (sound.elsewhere at_ open_ j job found sent waits)
          refine ⟨good.ended, fun j' holds => ?_, fun _ _ holds => (by cases holds),
            fun _ _ _ holds => (by cases holds), fun j' mem => ?_, fun _ is => (by cases is)⟩
          · exact sub j' (holds.resolve_right fun holds => (by cases holds))
          · rcases given j' mem with there | rfl | handled
            · exact .inl there
            · refine .inr (.inr fun job' is due => ?_)
              cases Option.some.inj (is.symm.trans found)
              have late : job.windowEnds + s.grace ≤ worker.now := due
              omega
            · exact .inr (.inr handled)
        · cases step
          simp only [State.lapses, at_, Option.any_some, rest, List.head?_cons, found,
            Bool.or_eq_false_iff] at fresh
          have kept : Kept s (s.withStage w { worker with rest := later }
              (.loaded j job.rowVersion)) none := kept_of_same rfl rfl
          refine sound.work at_ kept (.inl rfl) rfl sound.jobs ?_ (fun j' holds => .inr ?_)
            fun j job found sent waits => .inr (sound.elsewhere at_ open_ j job found sent waits)
          · refine ⟨good.ended, fun j' holds => ?_, fun j' row holds is => ?_,
              fun j' row v holds is read => ?_, fun j' mem => ?_, fun _ is => (by cases is)⟩
            · rcases holds with there | holds
              · exact sub j' there
              · cases holds
                exact good.known j (.inl (rest ▸ List.mem_cons_self))
            · cases holds
              cases Option.some.inj (is.symm.trans found)
              exact Option.not_isSome_iff_eq_none.mp (by simp [fresh.1])
            · cases holds
              cases read
              cases Option.some.inj (is.symm.trans found)
              rfl
            · rcases given j' mem with there | rfl | handled
              · exact .inl there
              · exact .inr (.inl rfl)
              · exact .inr (.inr handled)
          · cases holds
            exact fresh.2
  | _ => simp [stage] at step

theorem Sound.judge (sound : Sound s) (at_ : s.workers[w]? = some worker) {comparison : Comparison}
    (step : s.work w worker (.judge w comparison) = some s') : Sound s' := by
  have good := sound.workers w worker at_
  unfold State.work at step
  cases stage : worker.stage with
  | loaded j v =>
    have hand : worker.stage.job? = some j := by rw [stage]; rfl
    have open_ (j : Nat) : worker.stage.spends j = false := by rw [stage]; rfl
    simp only [stage] at step
    obtain ⟨job, found, is⟩ := Option.map_eq_some_iff.mp step
    subst is
    have read := good.current j job v hand found (by rw [stage]; rfl)
    have goes : (State.judged job j v comparison).job? = some j ∧
        ∀ v', (State.judged job j v comparison).version? = some v' → job.rowVersion = v' := by
      unfold State.judged
      cases comparison with
      | raised => exact ⟨rfl, fun v' is => by cases is; rfl⟩
      | insufficientData | ok => exact ⟨rfl, fun v' is => by cases is; exact read⟩
      | regressed elements =>
        dsimp only
        split_ifs
        · exact ⟨rfl, fun v' is => by cases is; exact read⟩
        · exact ⟨rfl, fun v' is => by cases is; exact read⟩
        · exact ⟨rfl, fun v' is => by cases is; exact read⟩
    refine sound.stage at_ open_ hand goes.1 fun job' v' is => ?_
    cases Option.some.inj (is.symm.trans found)
    exact goes.2 v'
  | _ => simp [stage] at step

theorem Sound.compare (sound : Sound s) (at_ : s.workers[w]? = some worker) {possible : Bool}
    (step : s.work w worker (.compare w possible) = some s') : Sound s' := by
  unfold State.work at step
  cases stage : worker.stage with
  | comparing j v regressed =>
    have hand : worker.stage.job? = some j := by rw [stage]; rfl
    have open_ (j : Nat) : worker.stage.spends j = false := by rw [stage]; rfl
    simp only [stage] at step
    obtain ⟨job, found, is⟩ := Option.map_eq_some_iff.mp step
    subst is
    split_ifs
    · exact sound.stage at_ open_ hand rfl fun _ _ _ is => by cases is
    · refine sound.stage at_ open_ hand rfl fun job' v' is read => ?_
      cases Option.some.inj (is.symm.trans found)
      cases read
      rfl
  | _ => simp [stage] at step

theorem kept_written {job row : Job} (found : s.jobs[j]? = some job)
    (status : row.status = job.status) (ends : row.windowEnds = job.windowEnds)
    (unchecked : job.checkedAt = none) : Kept s (s.withJob j row) (some j) := by
  refine ⟨fun j' old is _ differs => ?_, fun j' old is ended => ?_, rfl⟩
  · rw [withJob_other fun same => differs (congrArg some same)]
    exact is
  · by_cases same : j' = j
    · subst same
      cases Option.some.inj (is.symm.trans found)
      refine ⟨row, withJob_self found, ?_, ends, fun checked => ?_⟩
      · unfold Job.Ended
        rw [status]
        exact ended
      · rw [unchecked] at checked
        cases checked
    · exact ⟨old, (withJob_other same).trans is, ended, rfl, id⟩

theorem Kept.stage {s'' : State} (kept : Kept s s' written) (jobs : s''.jobs = s'.jobs)
    (grace : s''.grace = s'.grace) : Kept s s'' written := by
  refine ⟨fun j job is ended differs => ?_, fun j job is ended => ?_, grace.trans kept.grace⟩
  · rw [jobs]
    exact kept.rows j job is ended differs
  · rw [jobs]
    exact kept.row j job is ended

theorem Sound.send (sound : Sound s) (at_ : s.workers[w]? = some worker)
    {before : String → String → String} {undo : Undo}
    (step : s.work w worker (.send w before undo) = some s')
    (fresh : s.lapses (.send w before undo) = false) : Sound s' := by
  have good := sound.workers w worker at_
  unfold State.work at step
  cases stage : worker.stage with
  | reverting j regressed =>
    have hand : worker.stage.job? = some j := by rw [stage]; rfl
    have open_ (j : Nat) : worker.stage.spends j = false := by rw [stage]; rfl
    simp only [stage] at step
    obtain ⟨job, found, is⟩ := Option.map_eq_some_iff.mp step
    simp only [State.lapses, at_, Option.any_some, Bool.or_eq_false_iff,
      decide_eq_false_iff_not] at fresh
    simp only [if_neg fresh.1] at is
    have unchecked := good.unchecked j job hand found
    have unsent : job.reverts = 0 := by
      have once := (sound.jobs j job found).once
      by_contra some_
      obtain ⟨i, other, differs, was, spends⟩ :=
        sound.elsewhere at_ open_ j job found (by omega) unchecked
      exact differs (sound.alone i w other worker j was at_ (Stage.job_of_spends spends) hand)
    subst is
    have kept : Kept s (s.withJob j { job with reverts := job.reverts + 1 }) (some j) :=
      kept_written found rfl rfl unchecked
    have jobs_ (j' : Nat) (row : Job)
        (is : (s.withJob j { job with reverts := job.reverts + 1 }).jobs[j']? = some row) :
        j' = j ∧ row = { job with reverts := job.reverts + 1 } ∨ j' ≠ j ∧ s.jobs[j']? = some row :=
      withJob_get is
    refine sound.work at_ (kept.stage rfl rfl) (.inr hand.symm) rfl (fun j' row is => ?_) ?_
      (fun j' holds => .inl (hand.trans holds)) fun j' row is sent waits => ?_
    · rcases jobs_ j' row is with ⟨rfl, rfl⟩ | ⟨_, was⟩
      · have old := sound.jobs j' job found
        exact ⟨old.timely, old.unstarted, old.counted, by simp [unsent]⟩
      · exact sound.jobs j' row was
    · refine ⟨fun j' mem => ?_, fun j' holds => ?_, fun j' row holds is => ?_,
        fun j' row v holds is read => ?_, fun j' mem => ?_, fun _ is => by cases is⟩
      · obtain ⟨old, was, ended⟩ := good.ended j' mem
        obtain ⟨new, is, ended', _⟩ := kept.row j' old was ended
        exact ⟨new, is, ended'⟩
      · exact good.known j' (holds.imp_right fun there => hand.trans there)
      · cases holds
        rcases jobs_ j row is with ⟨_, rfl⟩ | ⟨differs, _⟩
        · exact unchecked
        · exact absurd rfl differs
      · cases holds
        cases read
        rcases jobs_ j row is with ⟨_, rfl⟩ | ⟨differs, _⟩
        · rfl
        · exact absurd rfl differs
      · rcases good.given j' mem with there | holds | handled
        · exact .inl there
        · exact .inr (.inl (hand.symm.trans holds))
        · refine .inr (.inr fun row is due => ?_)
          rcases jobs_ j' row is with ⟨rfl, rfl⟩ | ⟨_, was⟩
          · exact handled job found due
          · exact handled row was due
    · rcases jobs_ j' row is with ⟨rfl, rfl⟩ | ⟨_, was⟩
      · exact .inl (by simp [Stage.spends])
      · exact .inr (sound.elsewhere at_ open_ j' row was sent waits)
  | _ => simp [stage] at step

theorem Sound.record (sound : Sound s) (at_ : s.workers[w]? = some worker)
    (step : s.work w worker (.record w) = some s') : Sound s' := by
  have good := sound.workers w worker at_
  unfold State.work at step
  cases stage : worker.stage with
  | recording j v result =>
    have hand : worker.stage.job? = some j := by rw [stage]; rfl
    simp only [stage] at step
    obtain ⟨job, found, is⟩ := Option.map_eq_some_iff.mp step
    have read : job.rowVersion = v := good.current j job v hand found (by rw [stage]; rfl)
    rw [if_pos read] at is
    have unchecked := good.unchecked j job hand found
    have none_ : job.finals = 0 := by
      have counted := (sound.jobs j job found).counted
      rw [unchecked] at counted
      exact counted
    subst is
    have kept : Kept s (s.withJob j (s.recorded worker.now job result)) (some j) :=
      kept_written found rfl rfl unchecked
    have jobs_ (j' : Nat) (row : Job)
        (is : (s.withJob j (s.recorded worker.now job result)).jobs[j']? = some row) :
        j' = j ∧ row = s.recorded worker.now job result ∨ j' ≠ j ∧ s.jobs[j']? = some row :=
      withJob_get is
    refine sound.work at_ (kept.stage rfl rfl) (.inr hand.symm) rfl (fun j' row is => ?_) ?_
      (fun j' holds => by cases holds) fun j' row is sent waits => ?_
    · rcases jobs_ j' row is with ⟨rfl, rfl⟩ | ⟨_, was⟩
      · have old := sound.jobs j' job found
        refine ⟨old.timely, old.unstarted, ?_, old.once⟩
        unfold State.recorded
        cases s.isFinal worker.now job result <;> simp [none_]
      · exact sound.jobs j' row was
    · refine ⟨fun j' mem => ?_, fun j' holds => ?_, fun _ _ holds => (by cases holds),
        fun _ _ _ holds => (by cases holds), fun j' mem => ?_, fun _ is => by cases is⟩
      · obtain ⟨old, was, ended⟩ := good.ended j' mem
        obtain ⟨new, is, ended', _⟩ := kept.row j' old was ended
        exact ⟨new, is, ended'⟩
      · exact good.known j' (.inl (holds.resolve_right fun holds => by cases holds))
      · rcases good.given j' mem with there | holds | handled
        · exact .inl there
        · cases Option.some.inj (hand.symm.trans holds)
          refine .inr (.inr fun row is due => ?_)
          rcases jobs_ j row is with ⟨_, rfl⟩ | ⟨differs, _⟩
          · have late : job.windowEnds + s.grace ≤ worker.now := due
            have final : s.isFinal worker.now job result = true := by simp [State.isFinal, late]
            simp [State.recorded, final]
          · exact absurd rfl differs
        · refine .inr (.inr fun row is due => ?_)
          rcases jobs_ j' row is with ⟨rfl, rfl⟩ | ⟨_, was⟩
          · have checked := handled job found due
            rw [unchecked] at checked
            cases checked
          · exact handled row was due
    · rcases jobs_ j' row is with ⟨rfl, rfl⟩ | ⟨differs, was⟩
      · obtain ⟨i, other, was, spends⟩ := sound.spent j' job found sent unchecked
        have mine := sound.alone i w other worker j' was at_ (Stage.job_of_spends spends) hand
        subst mine
        rw [Option.some.inj (was.symm.trans at_), stage] at spends
        have regressed : result.verdict = .regressed := by simpa [Stage.spends] using spends
        have final : s.isFinal worker.now job result = true := by simp [State.isFinal, regressed]
        simp [State.recorded, final] at waits
      · obtain ⟨i, other, there, spends⟩ := sound.spent j' row was sent waits
        refine .inr ⟨i, other, ?_, there, spends⟩
        rintro rfl
        cases Option.some.inj (there.symm.trans at_)
        have mine := Stage.job_of_spends spends
        rw [hand] at mine
        exact differs (Option.some.inj mine).symm
  | _ => simp [stage] at step

end Workers

section Runs_

variable {job : Job} {from_ : List JobState} {element name : String} {j v : Nat}
  {regressed : List String} {comparison : Comparison}

theorem running_not_ended (status : job.status ∈ from_) (completed : JobState.completed ∉ from_)
    (partial_ : JobState.partialSuccess ∉ from_) : ¬job.Ended := by
  rintro (is | is)
  · rw [is] at status
    exact completed status
  · rw [is] at status
    exact partial_ status

def Act.worker? : Act → Option Nat
  | .look w | .judge w _ | .compare w _ | .send w _ _ | .record w => some w
  | _ => none

theorem work_of_step (worker? : a.worker? = some w) (step : State.Step s a s') :
    ∃ worker, s.workers[w]? = some worker ∧ s.work w worker a = some s' := by
  cases a with
  | look _ | judge _ _ | compare _ _ | send _ _ _ | record _ =>
    cases worker?
    cases at_ : s.workers[w]? with
    | none => simp [State.Step, State.act, at_] at step
    | some worker => exact ⟨worker, rfl, by simpa [State.Step, State.act, at_] using step⟩
  | _ => cases worker?

theorem Sound.act (sound : Sound s) (fresh : s.lapses a = false) (step : State.Step s a s') :
    Sound s' := by
  cases a with
  | tick minutes | overwrite element name value =>
    cases step
    exact sound.of_same rfl rfl rfl
  | ask kpiGuard held =>
    cases step
    exact sound.ask kpiGuard _
  | start jobId =>
    obtain ⟨job, found, status, rfl⟩ := edit_cases step
    have old := sound.jobs jobId job found
    have nothing := old.unstarted (by simpa using status)
    refine sound.edit found (running_not_ended status (by decide) (by decide)) ?_ rfl rfl
    exact ⟨fun _ write mem => absurd (nothing ▸ mem) List.not_mem_nil, fun _ => nothing, old.counted,
      old.once⟩
  | apply jobId element name value =>
    obtain ⟨edited, is, rfl⟩ := Option.map_eq_some_iff.mp step
    obtain ⟨job, found, status, rfl⟩ := edit_cases is
    have old := sound.jobs jobId job found
    have running : job.status = .processing := List.mem_singleton.mp status
    have next : Sound (s.withJob jobId { job with
        applied := job.applied ++ [⟨element, name, value, s.clock⟩]
        rowVersion := job.rowVersion + 1 }) := by
      refine sound.edit found (running_not_ended status (by decide) (by decide))
        ⟨fun guarded write mem => ?_, fun waits => ?_, old.counted, old.once⟩ rfl rfl
      · simp only [State.lapses, found, Option.any_some, Bool.and_eq_false_iff,
          decide_eq_false_iff_not, ne_eq, not_not] at fresh
        rcases List.mem_append.mp mem with before | now
        · exact old.timely guarded write before
        · rw [List.mem_singleton.mp now]
          refine fresh.resolve_left fun unguarded => ?_
          rw [show job.kpiGuard.isSome = true from guarded] at unguarded
          cases unguarded
      · rcases waits with is | is <;>
          · rw [show job.status = _ from is] at running
            cases running
    exact next.of_same rfl rfl rfl
  | reject jobId | halt jobId =>
    obtain ⟨job, found, status, rfl⟩ := edit_cases step
    have old := sound.jobs jobId job found
    have running : job.status = .processing := List.mem_singleton.mp status
    refine sound.edit found (running_not_ended status (by decide) (by decide))
      ⟨old.timely, fun waits => ?_, old.counted, old.once⟩ rfl rfl
    rcases waits with is | is <;> simp [running] at is
  | resume jobId =>
    obtain ⟨job, found, status, rfl⟩ := edit_cases step
    have old := sound.jobs jobId job found
    refine sound.edit found (running_not_ended status (by decide) (by decide))
      ⟨old.timely, fun waits => ?_, old.counted, old.once⟩ rfl rfl
    rcases waits with is | is <;> cases is
  | finish jobId =>
    obtain ⟨job, found, status, rfl⟩ := edit_cases step
    have old := sound.jobs jobId job found
    refine sound.edit found (running_not_ended status (by decide) (by decide))
      ⟨old.timely, fun waits => ?_, old.counted, old.once⟩ rfl rfl
    have ends : job.aggregate ≠ .pendingApproval ∧ job.aggregate ≠ .scheduled := by
      unfold Job.aggregate
      split_ifs <;> decide
    exact absurd waits (not_or.mpr ends)
  | select => exact sound.select step
  | look w =>
    obtain ⟨worker, at_, work⟩ := work_of_step rfl step
    exact sound.look at_ work fresh
  | judge w comparison =>
    obtain ⟨worker, at_, work⟩ := work_of_step rfl step
    exact sound.judge at_ work
  | compare w possible =>
    obtain ⟨worker, at_, work⟩ := work_of_step rfl step
    exact sound.compare at_ work
  | send w before undo =>
    obtain ⟨worker, at_, work⟩ := work_of_step rfl step
    exact sound.send at_ work fresh
  | record w =>
    obtain ⟨worker, at_, work⟩ := work_of_step rfl step
    exact sound.record at_ work

theorem sound_start : Sound {} :=
  ⟨fun _ _ is => by simp at is, fun _ _ is => by simp at is, fun _ _ _ _ _ is => by simp at is,
    fun _ _ is => by simp at is⟩

structure Verdict.Kept (s s' : State) : Prop where
  row : ∀ (j : Nat) job, s.jobs[j]? = some job → job.checkedAt.isSome →
    ∃ job', s'.jobs[j]? = some job' ∧ job'.result = job.result ∧ job'.checkedAt = job.checkedAt

theorem verdict_kept_of_same (jobs : s'.jobs = s.jobs) : Verdict.Kept s s' :=
  ⟨fun j job is _ => ⟨job, jobs ▸ is, rfl, rfl⟩⟩

theorem verdict_kept_written {job row : Job} (found : s.jobs[jobId]? = some job)
    (kept : job.checkedAt.isSome → row.result = job.result ∧ row.checkedAt = job.checkedAt) :
    Verdict.Kept s (s.withJob jobId row) := by
  refine ⟨fun j old is checked => ?_⟩
  by_cases same : j = jobId
  · subst same
    cases Option.some.inj (is.symm.trans found)
    exact ⟨row, withJob_self found, kept checked⟩
  · exact ⟨old, (withJob_other same).trans is, rfl, rfl⟩

theorem verdict_kept_edit {change : Job → Job} (edited : s.edit jobId from_ change = some s')
    (keeps : ∀ job, (change job).result = job.result ∧ (change job).checkedAt = job.checkedAt) :
    Verdict.Kept s s' := by
  obtain ⟨job, found, _, rfl⟩ := edit_cases edited
  exact verdict_kept_written found fun _ => keeps job

theorem Sound.verdict_kept (sound : Sound s) (step : State.Step s a s') : Verdict.Kept s s' := by
  cases a with
  | tick minutes | overwrite element name value =>
    cases step
    exact verdict_kept_of_same rfl
  | ask kpiGuard held =>
    cases step
    refine ⟨fun j job is _ => ⟨job, ?_, rfl, rfl⟩⟩
    rw [List.getElem?_append_left (List.getElem?_eq_some_iff.mp is).1]
    exact is
  | start jobId | reject jobId | halt jobId | resume jobId | finish jobId =>
    exact verdict_kept_edit step fun _ => ⟨rfl, rfl⟩
  | apply jobId element name value =>
    obtain ⟨edited, is, rfl⟩ := Option.map_eq_some_iff.mp step
    have kept := verdict_kept_edit is fun _ => ⟨rfl, rfl⟩
    exact ⟨kept.row⟩
  | select =>
    cases step
    exact verdict_kept_of_same rfl
  | look w =>
    obtain ⟨worker, _, work⟩ := work_of_step rfl step
    unfold State.work at work
    cases stage : worker.stage with
    | looking =>
      cases rest : worker.rest with
      | nil =>
        simp only [stage, rest, Option.some.injEq] at work
        subst work
        exact verdict_kept_of_same rfl
      | cons j later =>
        simp only [stage, rest] at work
        cases found : s.jobs[j]? with
        | none =>
          rw [found] at work
          cases work
        | some job =>
          simp only [found] at work
          split_ifs at work <;>
            · cases work
              exact verdict_kept_of_same rfl
    | _ => simp [stage] at work
  | judge w comparison =>
    obtain ⟨worker, _, work⟩ := work_of_step rfl step
    unfold State.work at work
    cases stage : worker.stage with
    | loaded j v =>
      simp only [stage] at work
      obtain ⟨job, _, is⟩ := Option.map_eq_some_iff.mp work
      subst is
      exact verdict_kept_of_same rfl
    | _ => simp [stage] at work
  | compare w possible =>
    obtain ⟨worker, _, work⟩ := work_of_step rfl step
    unfold State.work at work
    cases stage : worker.stage with
    | comparing j v regressed =>
      simp only [stage] at work
      obtain ⟨job, _, is⟩ := Option.map_eq_some_iff.mp work
      subst is
      exact verdict_kept_of_same rfl
    | _ => simp [stage] at work
  | send w before undo =>
    obtain ⟨worker, _, work⟩ := work_of_step rfl step
    unfold State.work at work
    cases stage : worker.stage with
    | reverting j regressed =>
      simp only [stage] at work
      obtain ⟨job, found, is⟩ := Option.map_eq_some_iff.mp work
      subst is
      exact ⟨(@verdict_kept_written s j job { job with reverts := job.reverts + 1 } found
        fun _ => ⟨rfl, rfl⟩).row⟩
    | _ => simp [stage] at work
  | record w =>
    obtain ⟨worker, at_, work⟩ := work_of_step rfl step
    unfold State.work at work
    cases stage : worker.stage with
    | recording j v result =>
      simp only [stage] at work
      obtain ⟨job, found, is⟩ := Option.map_eq_some_iff.mp work
      have unchecked := (sound.workers w worker at_).unchecked j job (by rw [stage]; rfl) found
      subst is
      split_ifs
      · refine ⟨(@verdict_kept_written s j job (s.recorded worker.now job result) found
          fun checked => ?_).row⟩
        rw [unchecked] at checked
        cases checked
      · exact verdict_kept_of_same rfl
    | _ => simp [stage] at work

theorem touched_iff {elements : List String} : (element, name) ∈ job.touched elements ↔
      element ∈ elements ∧ ∃ write ∈ job.applied, write.element = element ∧ write.name = name := by
  constructor
  · intro mem
    obtain ⟨write, among, is⟩ := List.mem_map.mp mem
    obtain ⟨there, hit⟩ := List.mem_filter.mp among
    cases is
    exact ⟨of_decide_eq_true hit, write, there, rfl, rfl⟩
  · rintro ⟨hit, write, there, rfl, rfl⟩
    exact List.mem_map.mpr ⟨write, List.mem_filter.mpr ⟨there, decide_eq_true hit⟩, rfl⟩

structure Touches (s : State) (job : Job) (regressed : List String) (element name : String) :
    Prop where
  regressed : element ∈ regressed
  written : ∃ write ∈ job.applied, write.element = element ∧ write.name = name
  left : job.left element name = some (s.values element name)

theorem send_touches {before : String → String → String} {undo : Undo}
    (step : State.Step s (.send w before undo) s') (fresh : s.lapses (.send w before undo) = false)
    (at_ : s.workers[w]? = some worker) (stage : worker.stage = .reverting j regressed)
    (found : s.jobs[j]? = some job) (changed : s'.values element name ≠ s.values element name) :
    Touches s job regressed element name := by
  obtain ⟨worker', is, work⟩ := work_of_step rfl step
  cases Option.some.inj (is.symm.trans at_)
  simp only [State.work, stage, found, Option.map_some, Option.some.injEq] at work
  subst work
  simp only [State.lapses, at_, Option.any_some, stage, found, Bool.or_eq_false_iff,
    Bool.not_eq_false'] at fresh
  have touched : (element, name) ∈ job.touched regressed := by
    by_contra outside
    exact changed (if_neg outside)
  obtain ⟨hit, wrote⟩ := touched_iff.mp touched
  have same := List.all_eq_true.mp fresh.2 _ touched
  exact ⟨hit, wrote, by simpa using same⟩

theorem judged_found {j' v' : Nat}
    (is : State.judged job j v comparison = .comparing j' v' regressed) :
    j' = j ∧ ∃ elements, comparison = .regressed elements ∧
      ∀ element ∈ regressed, element ∈ elements ∧ element ∈ job.elements := by
  unfold State.judged at is
  cases comparison with
  | regressed elements =>
    dsimp only at is
    split_ifs at is
    cases is
    refine ⟨rfl, elements, rfl, fun element mem => ?_⟩
    exact ⟨of_decide_eq_true (List.mem_filter.mp mem).2, (List.mem_filter.mp mem).1⟩
  | _ => cases is

structure Found (t : Runs.Step State Act) (w : Nat) (comparison : Comparison) (j : Nat)
    (regressed : List String) : Prop where
  shown : ∃ elements, comparison = .regressed elements ∧ ∀ element ∈ regressed, element ∈ elements
  own : ∀ job, t.before.jobs[j]? = some job → ∀ element ∈ regressed, element ∈ job.elements

theorem judge_found (step : State.Step s (.judge w comparison) s')
    (after : s'.workers[w]? = some worker') (stage : worker'.stage = .comparing j v regressed) :
    Found ⟨s, .judge w comparison, s'⟩ w comparison j regressed := by
  obtain ⟨worker, at_, work⟩ := work_of_step rfl step
  unfold State.work at work
  cases before : worker.stage with
  | loaded j₀ v₀ =>
    simp only [before] at work
    obtain ⟨job, found, is⟩ := Option.map_eq_some_iff.mp work
    subst is
    have inside := (List.getElem?_eq_some_iff.mp at_).1
    have self : (s.workers.set w
        { worker with stage := State.judged job j₀ v₀ comparison })[w]? = some _ :=
      List.getElem?_set_self inside
    cases Option.some.inj (after.symm.trans self)
    obtain ⟨rfl, elements, is, both⟩ := judged_found stage
    refine ⟨⟨elements, is, fun element mem => (both element mem).1⟩, fun job' found' element mem => ?_⟩
    cases Option.some.inj (found'.symm.trans found)
    exact (both element mem).2
  | _ => simp [before] at work

/-- What is promised of the guards along a run: a job gets one final verdict and one revert at most,
and the verdict once a worker that came after the grace time is done; the verdict stays; the windows of
a job lie before and after its writes; a revert touches what regressed and still holds what the job
wrote; no worker leaves jobs it selected. -/
structure GuardsHold (trace : List (Runs.Step State Act)) (s : State) : Prop where
  once : ∀ (j : Nat) job, s.jobs[j]? = some job → job.finals ≤ 1 ∧ job.reverts ≤ 1
  given : ∀ (i : Nat) worker dropped, s.workers[i]? = some worker → worker.stage = .ended dropped →
    dropped = [] ∧ ∀ j ∈ worker.selected, ∀ job, s.jobs[j]? = some job →
      job.windowEnds + s.grace ≤ worker.now → job.finals = 1
  kept : ∀ t ∈ trace, Verdict.Kept t.before t.after
  windows : ∀ (j : Nat) job guard, s.jobs[j]? = some job → job.kpiGuard = some guard →
    ∀ write ∈ job.applied,
      (∀ sample, job.anchor ≤ sample + guard.baselineMinutes → sample < job.anchor →
        sample ≤ write.time) ∧
      write.time + guard.observationMinutes ≤ job.windowEnds
  found : ∀ t ∈ trace, ∀ w comparison worker j v regressed, t.label = .judge w comparison →
    t.after.workers[w]? = some worker → worker.stage = .comparing j v regressed →
    Found t w comparison j regressed
  reverts : ∀ t ∈ trace, ∀ w before undo worker j regressed job, t.label = .send w before undo →
    t.before.workers[w]? = some worker → worker.stage = .reverting j regressed →
    t.before.jobs[j]? = some job → ∀ element name,
      t.after.values element name ≠ t.before.values element name →
      Touches t.before job regressed element name

variable {trace : List (Runs.Step State Act)}

end Runs_

def inOrder : List Act :=
  [.ask (some ⟨60, 60, true⟩) false, .apply 0 "gnb-1" "txPower" "45", .finish 0, .tick 60, .select,
    .look 0, .judge 0 (.regressed ["gnb-1"]), .compare 0 true, .send 0 (fun _ _ => "43") .completed,
    .record 0, .look 0]

def staged : List Act :=
  [.ask (some ⟨60, 60, true⟩) false, .apply 0 "gnb-1" "txPower" "45", .halt 0, .tick 30, .resume 0,
    .apply 0 "gnb-2" "txPower" "45", .finish 0, .tick 30, .select, .look 0, .judge 0 .ok, .record 0]

end Smo.RanNfOam.KpiGuards
