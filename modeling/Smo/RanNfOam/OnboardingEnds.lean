import Smo.RanNfOam.Onboarding

/-! Every apply of an onboarding template ends: the row is in APPLYING only while a call is applying it,
each transition into APPLYING starts at most one config job, and the row leaves it as that job ended,
in every run in which no template is deleted before the apply reads it again. -/
namespace Smo.RanNfOam.Onboarding

def State.Held (s : State) : Prop := ∃ row, s.row = some row ∧ row.status = .applying

def Stage.Good (s : State) : Stage → Prop
  | .loaded _ (some copy) => ∃ row, s.row = some row ∧ copy.version ≤ row.version ∧
      (copy.version = row.version → copy = row)
  | .applying _ e | .reloaded _ e => s.Held ∧ e + 1 = s.entries ∧ ∀ job ∈ s.jobs, job.entry ≠ e
  | .running job e => s.Held ∧ e + 1 = s.entries ∧ s.jobs[job]? = some { entry := e }
  | .failing e => s.Held ∧ e + 1 = s.entries ∧ ∀ job ∈ s.jobs, job.entry = e → job.completed ≠ some true
  | _ => True

structure State.Sound (s : State) : Prop where
  stages : ∀ stage ∈ s.calls, stage.Good s
  alone : ∀ (i j : Nat) (stage stage' : Stage), s.calls[i]? = some stage → s.calls[j]? = some stage' →
    stage.active = true → stage'.active = true → i = j
  holder : s.Held → ∃ stage ∈ s.calls, stage.active = true
  started : ∀ job ∈ s.jobs, job.entry < s.entries
  once : (s.jobs.map Job.entry).Nodup

section Steps

variable {s s' : State} {i : Nat} {stage next : Stage}

theorem fire_applying {status : OnboardingState} {event : OnboardingEvent} {status' : OnboardingState}
    (fires : fire status event = some status') :
    (status = .applying ↔ event = .applied ∨ event = .applyFailed) ∧ (status' = .applying ↔ event = .apply) := by
  cases status <;> cases event <;> cases fires <;> decide

theorem Stage.Good.held (good : stage.Good s) (active : stage.active = true) : s.Held := by
  cases stage with
  | applying | reloaded | running | failing => exact good.1
  | begun | loaded | ended => cases active

theorem Stage.Good.idle (good : stage.Good s) (idle : stage.active = false)
    (grows : ∀ row, s.row = some row → ∃ row', s'.row = some row' ∧
      (row' = row ∨ row.version < row'.version)) : stage.Good s' := by
  cases stage with
  | loaded request copy =>
    cases copy with
    | none => trivial
    | some copy =>
      obtain ⟨row, stored, older, same⟩ := good
      obtain ⟨row', stored', is | newer⟩ := grows row stored
      · exact ⟨row', stored', is ▸ older, is ▸ same⟩
      · exact ⟨row', stored', by omega, by omega⟩
  | begun | ended => trivial
  | applying | reloaded | running | failing => cases idle

theorem State.Sound.set (sound : s.Sound) (calls : s'.calls = s.calls.set i next)
    (within : s.calls[i]? = some stage) (good : next.Good s')
    (others : ∀ (j : Nat) (other : Stage), j ≠ i → s.calls[j]? = some other → other.Good s')
    (apart : next.active = true → stage.active = true ∨ ¬ s.Held)
    (holder : s'.Held → next.active = true ∨ ∃ (j : Nat) (other : Stage), j ≠ i ∧
      s.calls[j]? = some other ∧ other.active = true)
    (started : ∀ job ∈ s'.jobs, job.entry < s'.entries) (once : (s'.jobs.map Job.entry).Nodup) :
    s'.Sound := by
  have here : i < s.calls.length := (List.getElem?_eq_some_iff.mp within).1
  have lone : ∀ (j : Nat) (other : Stage), j ≠ i → s.calls[j]? = some other → next.active = true →
      other.active = false := by
    intro j other differs there active
    refine Bool.eq_false_iff.mpr fun active' => ?_
    rcases apart active with mine | nobody
    · exact differs (sound.alone j i other stage there within active' mine)
    · exact nobody ((sound.stages other (List.mem_of_getElem? there)).held active')
  refine ⟨fun other mem => ?_, fun j k other other' there there' active active' => ?_, fun held => ?_,
    started, once⟩
  · rw [calls] at mem
    rcases Table.mem_set_cases mem with rfl | ⟨j, differs, old⟩
    · exact good
    · exact others j other differs old
  · rw [calls] at there there'
    rcases Table.set_cases there with ⟨rfl, rfl⟩ | ⟨differs, old⟩ <;>
      rcases Table.set_cases there' with ⟨rfl, rfl⟩ | ⟨differs', old'⟩
    · rfl
    · rw [lone k other' differs' old' active] at active'
      cases active'
    · rw [lone j other differs old active'] at active
      cases active
    · exact sound.alone j k other other' old old' active active'
  · rw [calls]
    rcases holder held with active | ⟨j, other, differs, there, active⟩
    · exact ⟨next, List.mem_of_getElem? (List.getElem?_set_self here), active⟩
    · exact ⟨other, List.mem_of_getElem? ((List.getElem?_set_ne (Ne.symm differs)).trans there), active⟩

theorem State.Sound.call (sound : s.Sound) (within : s.calls[i]? = some stage) (good : next.Good s)
    (same : stage.active = next.active) : (s.call i next).Sound := by
  refine sound.set rfl within good (fun j other _ there => sound.stages other (List.mem_of_getElem? there))
    (fun active => .inl (same ▸ active)) (fun held => ?_) sound.started sound.once
  obtain ⟨other, mem, active⟩ := sound.holder held
  obtain ⟨j, there⟩ := List.mem_iff_getElem?.mp mem
  by_cases mine : j = i
  · subst mine
    rw [within] at there
    cases there
    exact .inl (same ▸ active)
  · exact .inr ⟨j, other, mine, there, active⟩

theorem State.Sound.idle (sound : s.Sound) (free : ¬ s.Held) : ∀ stage ∈ s.calls, stage.active = false :=
  fun _ mem => Bool.eq_false_iff.mpr fun active => free ((sound.stages _ mem).held active)

theorem State.Sound.others (sound : s.Sound) (within : s.calls[i]? = some stage)
    (active : stage.active = true) {j : Nat} {other : Stage} (differs : j ≠ i)
    (there : s.calls[j]? = some other) : other.active = false :=
  Bool.eq_false_iff.mpr fun active' => differs (sound.alone j i other stage there within active' active)

theorem State.Sound.arrive (sound : s.Sound) (request : Request) :
    State.Sound { s with calls := s.calls ++ [.begun request] } := by
  have old : ∀ (j : Nat) (stage : Stage), (s.calls ++ [.begun request])[j]? = some stage →
      stage.active = true → s.calls[j]? = some stage := by
    intro j stage there active
    rcases Table.append_cases there with ⟨-, rfl⟩ | there
    · cases active
    · exact there
  refine ⟨fun stage mem => ?_, fun j k stage stage' there there' active active' => ?_, fun held => ?_,
    sound.started, sound.once⟩
  · rcases List.mem_append.mp mem with earlier | last
    · exact sound.stages stage earlier
    · rw [List.mem_singleton.mp last]
      trivial
  · exact sound.alone j k stage stage' (old j stage there active) (old k stage' there' active') active active'
  · obtain ⟨stage, mem, active⟩ := sound.holder held
    exact ⟨stage, List.mem_append_left _ mem, active⟩

theorem State.Sound.templates (sound : s.Sound) (templates : List Template) :
    State.Sound { s with templates } :=
  ⟨sound.stages, sound.alone, sound.holder, sound.started, sound.once⟩

variable {request : Request} {loaded row row' : ElementOnboarding} {name version : Option String}
  {entry job : Nat}

theorem State.Sound.load (sound : s.Sound) (within : s.calls[i]? = some (.begun request)) :
    (s.call i (.loaded request s.row)).Sound := by
  refine sound.call within ?_ rfl
  cases stored : s.row with
  | none => trivial
  | some row => exact ⟨row, stored, Nat.le_refl _, fun _ => rfl⟩

theorem State.Sound.copy (sound : s.Sound)
    (within : s.calls[i]? = some (.loaded request (some loaded)))
    (current : s.current loaded = true) : s.row = some loaded := by
  obtain ⟨row, stored, -, same⟩ := sound.stages _ (List.mem_of_getElem? within)
  rw [State.current, stored] at current
  have version : loaded.version = row.version := by simpa using Eq.symm (by simpa using current)
  rw [same version]
  exact stored

theorem State.Sound.replace (sound : s.Sound) (within : s.calls[i]? = some stage) (free : ¬ s.Held)
    (status : row.status ≠ .applying)
    (version : ∀ old, s.row = some old → row.version = old.version) :
    ((s.store row).call i .ended).Sound := by
  refine @State.Sound.set s _ i stage .ended sound rfl within trivial (fun j other _ there => ?_) nofun
    ?_ sound.started sound.once
  · have mem := List.mem_of_getElem? there
    refine (sound.stages other mem).idle (sound.idle free other mem) fun old stored => ?_
    refine ⟨_, rfl, .inr ?_⟩
    have := version old stored
    simp only
    omega
  · rintro ⟨_, ⟨⟩, applying⟩
    exact absurd applying status

theorem selected_status (selects : s.selected row name version = some row') :
    row.status ≠ .applying ∧ row'.status ≠ .applying ∧ row'.version = row.version := by
  obtain ⟨template, -, selects⟩ := Option.bind_eq_some_iff.mp selects
  obtain ⟨status, fires, selects⟩ := Option.bind_eq_some_iff.mp selects
  cases selects
  have cases := fire_applying fires
  refine ⟨fun is => ?_, fun is => ?_, rfl⟩
  · rcases cases.1.mp is with event | event <;> split_ifs at event
  · have event := cases.2.mp is
    split_ifs at event

theorem applied_status {template : Template}
    (applies : s.applied row version = some (template, row')) :
    row.status ≠ .applying ∧ row'.status = .applying ∧ row'.version = row.version := by
  obtain ⟨status, fires, applies⟩ := Option.bind_eq_some_iff.mp applies
  obtain ⟨template', -, applies⟩ := Option.bind_eq_some_iff.mp applies
  cases applies
  have cases := fire_applying fires
  refine ⟨fun is => ?_, cases.2.mpr rfl, rfl⟩
  rcases cases.1.mp is with event | event <;> cases event

theorem free_of_status (stored : s.row = some row) (status : row.status ≠ .applying) :
    ¬ s.Held := by
  rintro ⟨other, stored', applying⟩
  rw [stored] at stored'
  cases stored'
  exact status applying

theorem State.Sound.commitSelect (sound : s.Sound) {loaded : Option ElementOnboarding}
    (within : s.calls[i]? = some (.loaded request loaded)) :
    (s.commitSelect i loaded name version).Sound := by
  unfold State.commitSelect
  cases selects : s.selected (loaded.getD {}) name version with
  | none => exact sound.call within trivial rfl
  | some row =>
    obtain ⟨before, after, kept⟩ := selected_status selects
    simp only
    split_ifs with known current absent
    · obtain ⟨copy, rfl⟩ := Option.isSome_iff_exists.mp known
      have stored := sound.copy within (by simpa [State.current, kept] using current)
      refine sound.replace within (free_of_status stored before) after fun old is => ?_
      rw [stored] at is
      cases is
      exact kept
    · exact sound.call within trivial rfl
    · have nothing : s.row = none := Option.isNone_iff_eq_none.mp absent
      refine sound.replace within ?_ after fun old is => ?_
      · rintro ⟨_, stored, -⟩
        rw [nothing] at stored
        cases stored
      · rw [nothing] at is
        cases is
    · exact sound.call within trivial rfl

theorem State.Sound.commitApply (sound : s.Sound)
    (within : s.calls[i]? = some (.loaded request (some loaded))) :
    (s.commitApply i loaded version).Sound := by
  unfold State.commitApply
  cases applies : s.applied loaded version with
  | none => exact sound.call within trivial rfl
  | some pair =>
    obtain ⟨template, row⟩ := pair
    obtain ⟨before, after, kept⟩ := applied_status applies
    simp only
    split_ifs with current
    · have stored := sound.copy within current
      have free := free_of_status stored before
      refine @State.Sound.set s _ i _ (.applying template.name s.entries) sound rfl within ?_
        (fun j other _ there => ?_) (fun _ => .inr free) (fun _ => .inl rfl) ?_ sound.once
      · exact ⟨⟨_, rfl, after⟩, rfl, fun job mem => Nat.ne_of_lt (sound.started job mem)⟩
      · have mem := List.mem_of_getElem? there
        refine (sound.stages other mem).idle (sound.idle free other mem) fun old is => ?_
        rw [stored] at is
        cases is
        exact ⟨_, rfl, .inr (by simp only [kept]; omega)⟩
      · exact fun job mem => Nat.lt_succ_of_lt (sound.started job mem)
    · exact sound.call within trivial rfl

theorem State.Sound.advance (sound : s.Sound) (stored : s.row = some row)
    (within : s.calls[i]? = some stage) (active : stage.active = true) (jobs : List Job)
    (version : row'.version = row.version) (good : next.Good ({ s with jobs }.store row'))
    (holds : row'.status = .applying → next.active = true)
    (started : ∀ job ∈ jobs, job.entry < s.entries) (once : (jobs.map Job.entry).Nodup) :
    (({ s with jobs }.store row').call i next).Sound := by
  refine @State.Sound.set s _ i stage next sound rfl within ?_ (fun j other differs there => ?_)
    (fun _ => .inl active) ?_ started once
  · cases next <;> exact good
  · refine (sound.stages other (List.mem_of_getElem? there)).idle (sound.others within active differs there)
      fun old is => ?_
    rw [stored] at is
    cases is
    exact ⟨_, rfl, .inr (by simp only [version]; omega)⟩
  · rintro ⟨_, ⟨⟩, applying⟩
    exact .inl (holds applying)

theorem State.Sound.reload (sound : s.Sound) {name : String}
    (within : s.calls[i]? = some (.applying name entry)) (careful : s.lapses (.reload i) = false)
    (step : s.act (.reload i) = some s') : s'.Sound := by
  simp only [State.lapses, within, Option.isNone_eq_false_iff, Option.isSome_iff_exists] at careful
  obtain ⟨template, found⟩ := careful
  simp only [State.act, within, found, Option.some.injEq] at step
  subst step
  have good := sound.stages _ (List.mem_of_getElem? within)
  exact sound.call within good rfl

theorem State.Sound.write (sound : s.Sound) (step : s.act (.write i) = some s') : s'.Sound := by
  simp only [State.act] at step
  split at step
  · next template entry row within stored =>
    obtain ⟨held, last, unstarted⟩ := sound.stages _ (List.mem_of_getElem? within)
    have lone : ∀ (j : Nat) (other : Stage), j ≠ i → s.calls[j]? = some other → other.active = false :=
      fun _ _ differs there => sound.others within rfl differs there
    split_ifs at step
    · cases step
      exact sound.call within ⟨held, last, fun job mem same => absurd same (unstarted job mem)⟩ rfl
    · cases step
      refine @State.Sound.set s _ i _ (.running s.jobs.length entry) sound rfl within
        ⟨held, last, by simp⟩ (fun j other differs there => ?_) (fun _ => .inl rfl) (fun _ => .inl rfl) ?_ ?_
      · exact (sound.stages other (List.mem_of_getElem? there)).idle (lone j other differs there)
          fun row stored => ⟨row, stored, .inl rfl⟩
      · intro job mem
        rcases List.mem_append.mp mem with earlier | newest
        · exact sound.started job earlier
        · rw [List.mem_singleton.mp newest]
          exact Nat.lt_of_succ_le last.le
      · simp only [List.map_append, List.map_singleton, List.nodup_append]
        refine ⟨sound.once, List.nodup_singleton _, fun e earlier e' newest same => ?_⟩
        obtain ⟨job, mem, rfl⟩ := List.mem_map.mp earlier
        exact unstarted job mem (same.trans (List.mem_singleton.mp newest))
  · cases step

theorem State.Sound.mine (sound : s.Sound) (runs : s.jobs[job]? = some { entry })
    (completed : Option Bool) : ∀ other ∈ s.jobs.set job { entry, completed }, other.entry = entry →
      other.completed = completed := by
  intro other mem same
  rcases Table.mem_set_cases mem with rfl | ⟨k, differs, old⟩
  · rfl
  · have there := List.getElem?_map (f := Job.entry) (l := s.jobs) (i := k)
    have here := List.getElem?_map (f := Job.entry) (l := s.jobs) (i := job)
    rw [old] at there
    rw [runs] at here
    have within : k < (s.jobs.map Job.entry).length := (List.getElem?_eq_some_iff.mp there).1
    exact absurd ((List.getElem?_inj within sound.once).mp (by rw [there, here, Option.map_some,
      Option.map_some, same])) differs

theorem State.Sound.jobs_set (sound : s.Sound) (runs : s.jobs[job]? = some { entry })
    (completed : Option Bool) :
    (∀ other ∈ s.jobs.set job { entry, completed }, other.entry < s.entries) ∧
      ((s.jobs.set job { entry, completed }).map Job.entry).Nodup := by
  constructor
  · intro other mem
    rcases Table.mem_set_cases mem with rfl | ⟨k, -, old⟩
    · exact sound.started ({ entry } : Job) (List.mem_of_getElem? runs)
    · exact sound.started other (List.mem_of_getElem? old)
  · have same : (s.jobs.set job { entry, completed }).map Job.entry = s.jobs.map Job.entry := by
      rw [List.map_set]
      exact Table.set_self (by rw [List.getElem?_map, runs, Option.map_some])
    rw [same]
    exact sound.once

theorem State.Sound.finish (sound : s.Sound) {outcome : Outcome}
    (step : s.act (.finish i outcome) = some s') : s'.Sound := by
  simp only [State.act] at step
  split at step
  · next job entry row within stored =>
    obtain ⟨held, last, runs⟩ := sound.stages _ (List.mem_of_getElem? within)
    cases outcome with
    | refused =>
      cases step
      refine sound.call within ⟨held, last, fun other mem same => ?_⟩ rfl
      have unset : s.jobs.set job { entry } = s.jobs := Table.set_self runs
      rw [sound.mine runs none other (by rwa [unset]) same]
      nofun
    | ended completed =>
      obtain ⟨started, once⟩ := sound.jobs_set runs (some completed)
      simp only at step
      cases completed with
      | true =>
        rw [if_pos rfl] at step
        obtain ⟨status, fires, rfl⟩ := Option.map_eq_some_iff.mp step
        refine sound.advance stored within rfl _ rfl trivial (fun applying => ?_) started once
        cases (fire_applying fires).2.mp applying
      | false =>
        rw [if_neg Bool.false_ne_true] at step
        cases step
        obtain ⟨_, stored', applying⟩ := held
        rw [stored] at stored'
        cases stored'
        refine sound.advance stored within rfl _ rfl ⟨⟨_, rfl, applying⟩, last, fun other mem same => ?_⟩
          (fun _ => rfl) started once
        rw [sound.mine runs (some false) other mem same]
        nofun
  · cases step

theorem State.Sound.fail (sound : s.Sound) (step : s.act (.fail i) = some s') : s'.Sound := by
  simp only [State.act] at step
  split at step
  · next entry row within stored =>
    obtain ⟨status, fires, rfl⟩ := Option.map_eq_some_iff.mp step
    refine sound.advance stored within rfl s.jobs rfl trivial (fun applying => ?_) sound.started sound.once
    cases (fire_applying fires).2.mp applying
  · cases step

theorem State.Sound.commit (sound : s.Sound) (step : s.act (.commit i) = some s') : s'.Sound := by
  simp only [State.act] at step
  split at step
  · next version within =>
    split_ifs at step
    · cases step
      exact sound.commitSelect within
    · cases step
      exact sound.call within trivial rfl
  · next name version loaded within =>
    cases step
    exact sound.commitSelect within
  · next version loaded within =>
    cases step
    exact sound.commitApply within
  · next loaded within =>
    split_ifs at step
    · cases step
      exact sound.commitApply within
    · cases step
      exact sound.call within trivial rfl
  · next within =>
    cases step
    exact sound.call within trivial rfl
  · cases step

theorem State.Sound.step (sound : s.Sound) {label : Act} (step : State.Step s label s')
    (careful : s.lapses label = false) : s'.Sound := by
  cases label with
  | arrive request =>
    cases step
    exact sound.arrive request
  | putTemplate template =>
    cases step
    exact sound.templates _
  | deleteTemplate name =>
    cases step
    exact sound.templates _
  | load i =>
    simp only [State.Step, State.act] at step
    split at step
    · next request within =>
      cases step
      exact sound.load within
    · cases step
  | commit i => exact sound.commit step
  | reload i =>
    have took := step
    simp only [State.Step, State.act] at took
    split at took
    · next name entry within => exact sound.reload within careful step
    · cases took
  | write i => exact sound.write step
  | finish i outcome => exact sound.finish step
  | fail i => exact sound.fail step

end Steps

/-- Each transition into APPLYING starts at most one config job, the row stays in APPLYING only while a
call is applying it, and otherwise a template can be selected and, once one is, applied. -/
structure State.Free (s : State) : Prop where
  once : (s.jobs.map Job.entry).Nodup ∧ ∀ job ∈ s.jobs, job.entry < s.entries
  applying : s.Held → ∃ stage ∈ s.calls, stage.active = true
  free : (∀ stage ∈ s.calls, stage.active = false) → ∀ row, s.row = some row →
    fire row.status .templateMatched = some .templateSelected ∧
      fire row.status .noMatch = some .noTemplate ∧
      (fire row.status .apply = some .applying ∨ row.status = .discovered ∨ row.status = .noTemplate)

/-- What a step does to the row: entries into APPLYING are counted, it is left as the job of the entry
ended, and an apply that is refused at its commit leaves it as it was. -/
structure Moves (s : State) (label : Act) (s' : State) : Prop where
  entries : s'.entries = s.entries ∧ (s'.Held → s.Held) ∨ s'.entries = s.entries + 1 ∧ ¬ s.Held
  leaves : s.Held → s'.Held ∨ ∃ row e, s'.row = some row ∧ e + 1 = s.entries ∧
    (row.status = .onboarded ∧ (∃ job ∈ s'.jobs, job.entry = e ∧ job.completed = some true) ∨
      row.status = .failed ∧ ∀ job ∈ s'.jobs, job.entry = e → job.completed ≠ some true)
  refused : ∀ i request loaded, label = .commit i → s.calls[i]? = some (.loaded request loaded) →
    (request = .heartbeat ∨ ∃ version, request = .apply version) → s'.calls[i]? = some .ended →
      s'.row = s.row

section Moving

variable {s s' : State} {i : Nat} {stage next : Stage} {label : Act}

theorem Moves.same (row : s'.row = s.row) (entries : s'.entries = s.entries) : Moves s label s' := by
  have held : s'.Held ↔ s.Held := by simp only [State.Held, row]
  exact ⟨.inl ⟨entries, held.mp⟩, fun is => .inl (held.mpr is), fun _ _ _ _ _ _ _ => row⟩

variable {request : Request} {version : Option String}

theorem commitSelect_moves (sound : s.Sound) {loaded : Option ElementOnboarding}
    {name : Option String} (within : s.calls[i]? = some (.loaded request loaded))
    (select : request ≠ .heartbeat ∧ ∀ version, request ≠ .apply version) :
    Moves s (.commit i) (s.commitSelect i loaded name version) := by
  have stored : ∀ row : ElementOnboarding, ¬ s.Held → row.status ≠ .applying →
      Moves s (.commit i) ((s.store row).call i .ended) := by
    intro row free status
    refine ⟨.inl ⟨rfl, ?_⟩, fun held => absurd held free, ?_⟩
    · rintro ⟨_, ⟨⟩, applying⟩
      exact absurd applying status
    · rintro _ request' loaded' ⟨⟩ within' applies
      rw [within] at within'
      cases within'
      rcases applies with rfl | ⟨version, rfl⟩
      · exact absurd rfl select.1
      · exact absurd rfl (select.2 version)
  unfold State.commitSelect
  cases selects : s.selected (loaded.getD {}) name version with
  | none => exact .same rfl rfl
  | some row =>
    obtain ⟨before, after, kept⟩ := selected_status selects
    simp only
    split_ifs with known current absent
    · obtain ⟨copy, rfl⟩ := Option.isSome_iff_exists.mp known
      exact stored row (free_of_status (sound.copy within (by simpa [State.current, kept] using current))
        before) after
    · exact .same rfl rfl
    · refine stored row ?_ after
      rintro ⟨_, is, -⟩
      rw [Option.isNone_iff_eq_none.mp absent] at is
      cases is
    · exact .same rfl rfl

theorem commitApply_moves (sound : s.Sound) {loaded : ElementOnboarding}
    (within : s.calls[i]? = some (.loaded request (some loaded))) :
    Moves s (.commit i) (s.commitApply i loaded version) := by
  have here : i < s.calls.length := (List.getElem?_eq_some_iff.mp within).1
  unfold State.commitApply
  cases applies : s.applied loaded version with
  | none => exact .same rfl rfl
  | some pair =>
    obtain ⟨template, row⟩ := pair
    obtain ⟨before, -, -⟩ := applied_status applies
    simp only
    split_ifs with current
    · have free := free_of_status (sound.copy within current) before
      refine ⟨.inr ⟨rfl, free⟩, fun held => absurd held free, ?_⟩
      rintro _ _ _ ⟨⟩ _ _ ended
      simp [State.call, State.store, here] at ended
    · exact .same rfl rfl

theorem finish_moves (sound : s.Sound) {outcome : Outcome} (step : s.act (.finish i outcome) = some s') :
    Moves s (.finish i outcome) s' := by
  simp only [State.act] at step
  split at step
  · next job entry row within stored =>
    obtain ⟨held, last, runs⟩ := sound.stages _ (List.mem_of_getElem? within)
    cases outcome with
    | refused =>
      cases step
      exact .same rfl rfl
    | ended completed =>
      have mem : { entry, completed := some completed } ∈ s.jobs.set job { entry, completed := some completed } :=
        List.mem_set (List.getElem?_eq_some_iff.mp runs).1 _
      simp only at step
      cases completed with
      | true =>
        rw [if_pos rfl] at step
        obtain ⟨status, fires, rfl⟩ := Option.map_eq_some_iff.mp step
        have onboarded : status = .onboarded := by
          obtain ⟨_, stored', applying⟩ := held
          rw [stored] at stored'
          cases stored'
          rw [applying] at fires
          cases fires
          rfl
        exact ⟨.inl ⟨rfl, fun _ => held⟩,
          fun _ => .inr ⟨_, entry, rfl, last, .inl ⟨onboarded, _, mem, rfl, rfl⟩⟩,
          fun _ _ _ other => by cases other⟩
      | false =>
        rw [if_neg Bool.false_ne_true] at step
        cases step
        obtain ⟨_, stored', applying⟩ := held
        rw [stored] at stored'
        cases stored'
        exact ⟨.inl ⟨rfl, fun _ => ⟨row, stored, applying⟩⟩, fun _ => .inl ⟨_, rfl, applying⟩,
          fun _ _ _ other => by cases other⟩
  · cases step

theorem fail_moves (sound : s.Sound) (step : s.act (.fail i) = some s') : Moves s (.fail i) s' := by
  simp only [State.act] at step
  split at step
  · next entry row within stored =>
    obtain ⟨held, last, uncompleted⟩ := sound.stages _ (List.mem_of_getElem? within)
    obtain ⟨status, fires, rfl⟩ := Option.map_eq_some_iff.mp step
    have failed : status = .failed := by
      obtain ⟨_, stored', applying⟩ := held
      rw [stored] at stored'
      cases stored'
      rw [applying] at fires
      cases fires
      rfl
    exact ⟨.inl ⟨rfl, fun _ => held⟩, fun _ => .inr ⟨_, entry, rfl, last, .inr ⟨failed, uncompleted⟩⟩,
      fun _ _ _ other => by cases other⟩
  · cases step

theorem State.Sound.moves (sound : s.Sound) (step : State.Step s label s') : Moves s label s' := by
  cases label with
  | arrive request =>
    cases step
    exact .same rfl rfl
  | putTemplate template =>
    cases step
    exact .same rfl rfl
  | deleteTemplate name =>
    cases step
    exact .same rfl rfl
  | load i =>
    simp only [State.Step, State.act] at step
    split at step <;> cases step
    exact .same rfl rfl
  | commit i =>
    simp only [State.Step, State.act] at step
    split at step
    · next version within =>
      split_ifs at step <;> cases step
      · exact commitSelect_moves sound within ⟨nofun, nofun⟩
      · exact .same rfl rfl
    · next within =>
      cases step
      exact commitSelect_moves sound within ⟨nofun, nofun⟩
    · next within =>
      cases step
      exact commitApply_moves sound within
    · next within =>
      split_ifs at step <;> cases step
      · exact commitApply_moves sound within
      · exact .same rfl rfl
    · cases step
      exact .same rfl rfl
    · cases step
  | reload i =>
    simp only [State.Step, State.act] at step
    split at step
    · split at step <;> cases step <;> exact .same rfl rfl
    · cases step
  | write i =>
    simp only [State.Step, State.act] at step
    split at step
    · split_ifs at step <;> cases step <;> exact .same rfl rfl
    · cases step
  | finish i outcome => exact finish_moves sound step
  | fail i => exact fail_moves sound step

theorem State.Sound.free (sound : s.Sound) : s.Free := by
  refine ⟨⟨sound.once, sound.started⟩, sound.holder, fun idle row stored => ?_⟩
  have status : row.status ≠ .applying := fun applying => by
    obtain ⟨stage, mem, active⟩ := sound.holder ⟨row, stored, applying⟩
    rw [idle stage mem] at active
    cases active
  revert status
  cases row.status <;> decide

/-- In every run in which no template is deleted between the commit of APPLYING and the read that
follows it, every apply ends and each step moves the row as it should. -/
theorem onboarding_ends {start : State} (fresh : start.row = none ∧ start.calls = [] ∧ start.jobs = [])
    {trace : List (Runs.Step State Act)} (run : Runs.Run State.Step start trace s)
    (careful : ∀ t ∈ trace, t.before.lapses t.label = false) :
    s.Free ∧ ∀ t ∈ trace, Moves t.before t.label t.after := by
  obtain ⟨row, calls, jobs⟩ := fresh
  have init : start.Sound := by
    refine ⟨by simp [calls], fun i j stage stage' there => by simp [calls] at there, ?_, by simp [jobs],
      by simp [jobs]⟩
    rintro ⟨_, stored, -⟩
    rw [row] at stored
    cases stored
  have keeps : ∀ s label s', s.Sound → s.lapses label = false → State.Step s label s' → s'.Sound :=
    fun _ _ _ sound careful step => sound.step step careful
  exact ⟨(run.invariant_of_guarded State.Sound (fun s label => s.lapses label = false) init keeps
      careful).free,
    run.transitions_of_guarded State.Sound (fun s label => s.lapses label = false) init keeps
      (fun t => Moves t.before t.label t.after) (fun _ _ _ sound _ step => sound.moves step) careful⟩

def nextState : State → Act → State := Runs.nextOf State.act

def site : State :=
  { entityType := "gNB", templates := [{ name := "gnb", entityType := "gNB", autoApply := true }] }

def firstHeartbeat : List Act :=
  [.arrive (.register (some "1.0")), .load 0, .commit 0, .arrive .heartbeat, .load 1, .commit 1,
    .reload 1, .write 1, .finish 1 (.ended true)]

theorem onboarded_ends : (firstHeartbeat.foldl nextState site).Free ∧
    (firstHeartbeat.foldl nextState site).row.map ElementOnboarding.status = some .onboarded := by
  have run : Runs.Run State.Step site (Runs.stepsOf nextState site firstHeartbeat)
      (firstHeartbeat.foldl nextState site) := Runs.run_enabled (by decide +kernel)
  exact ⟨(onboarding_ends ⟨rfl, rfl, rfl⟩ run (by decide +kernel)).1, by decide +kernel⟩

/-- The template is deleted after the commit of APPLYING; a select and an apply follow. -/
def templateGone : List Act :=
  [.arrive (.register (some "1.0")), .load 0, .commit 0, .arrive .heartbeat, .load 1, .commit 1,
    .deleteTemplate "gnb", .reload 1, .putTemplate { name := "gnb", entityType := "gNB" },
    .arrive (.select (some "gnb") none), .load 2, .commit 2, .arrive (.apply none), .load 3, .commit 3]

/-- The row stays in APPLYING with no call under way, and neither selecting nor applying moves it. -/
theorem template_gone_sticks :
    Runs.Run State.Step site (Runs.stepsOf nextState site templateGone)
      (templateGone.foldl nextState site) ∧
    (templateGone.foldl nextState site).row.map ElementOnboarding.status = some .applying ∧
    (templateGone.foldl nextState site).calls = [.ended, .ended, .ended, .ended] ∧
    (templateGone.foldl nextState site).jobs = [] :=
  ⟨Runs.run_enabled (by decide +kernel), by decide +kernel, by decide +kernel, by decide +kernel⟩

end Moving

end Smo.RanNfOam.Onboarding
