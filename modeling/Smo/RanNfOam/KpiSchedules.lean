import Mathlib.Data.List.Chain
import Mathlib.Data.List.Sort
import Smo.Lib.Runs
import Smo.Lib.Table

/-! The KPI schedules (`app/main.py`): the runs of the worker, between the requests that make, change
and delete schedules, and the windows that they publish. Times are in seconds. -/
namespace Smo.RanNfOam.KpiSchedules

inductive GroupBy
  | cell
  | element
  | sectorGroup
  | incidentZone
  | all
  deriving DecidableEq

/-- `KpiScheduleRequest`, within the bounds of its fields. -/
structure KpiScheduleRequest where
  kpi : String
  intervalSeconds : Nat
  lookbackSeconds : Option Nat := none
  groupBy : GroupBy := .cell
  managedElementRef : Option String := none
  cellId : Option String := none
  enabled : Bool := true
  interval_bounds : 60 ≤ intervalSeconds ∧ intervalSeconds ≤ 86400 := by decide
  lookback_bounds : ∀ seconds ∈ lookbackSeconds, 60 ≤ seconds ∧ seconds ≤ 604800 := by decide

inductive Status
  | ok
  | error
  deriving DecidableEq

structure KpiSchedule where
  scheduleId : String
  kpi : String
  intervalSeconds : Nat
  lookbackSeconds : Nat
  groupBy : GroupBy := .cell
  managedElementRef : Option String := none
  cellId : Option String := none
  enabled : Bool := true
  lastRunAt : Option Int := none
  lastStatus : Option Status := none
  lastDetail : Option String := none
  deriving DecidableEq

def KpiScheduleRequest.row (body : KpiScheduleRequest) (scheduleId : String)
    (existing : Option KpiSchedule) : KpiSchedule where
  scheduleId := scheduleId
  kpi := body.kpi
  intervalSeconds := body.intervalSeconds
  lookbackSeconds := body.lookbackSeconds.getD body.intervalSeconds
  groupBy := body.groupBy
  managedElementRef := body.managedElementRef
  cellId := body.cellId
  enabled := body.enabled
  lastRunAt := existing.bind (·.lastRunAt)
  lastStatus := existing.bind (·.lastStatus)
  lastDetail := existing.bind (·.lastDetail)

def KpiSchedule.due (row : KpiSchedule) (now : Int) : Bool :=
  row.lastRunAt.all fun last => last + row.intervalSeconds ≤ now

/-- The samples from `start` on and before `stop`. -/
structure Window where
  start : Int
  stop : Int
  deriving DecidableEq

def KpiSchedule.window (row : KpiSchedule) (now : Int) : Window := ⟨now - row.lookbackSeconds, now⟩

inductive Stage
  | looping
  | computing (row : KpiSchedule)
  | marking (scheduleId : String) (status : Status) (detail : String)

/-- A run of the worker, with the schedules whose turn has not come and what it has run. -/
structure Worker where
  now : Int
  todo : List String
  stage : Stage := .looping
  ran : List (String × Status × String) := []

structure State where
  schedules : List KpiSchedule := []
  worker : Option Worker := none

/-- `permitted`: the caller's scope covers it, and for a PUT the KPI is defined. A KPI that cannot be
computed or published fails with the text of the exception. -/
inductive Act
  | put (scheduleId : String) (body : KpiScheduleRequest) (permitted : Bool)
  | delete (scheduleId : String) (permitted : Bool)
  | start (now : Int)
  | take
  | publish (outcome : Except String String)
  | mark

namespace State

variable (s : State)

def schedule? (scheduleId : String) : Option KpiSchedule :=
  Table.get KpiSchedule.scheduleId s.schedules scheduleId

def put (row : KpiSchedule) : State :=
  { s with
    schedules :=
      if (s.schedule? row.scheduleId).isSome then
        Table.modify KpiSchedule.scheduleId s.schedules row.scheduleId fun _ => row
      else s.schedules ++ [row] }

/-- The ids that `run_due_kpi_schedules` goes through. -/
def enabledIds : List String :=
  ((s.schedules.filter (·.enabled)).map (·.scheduleId)).insertionSort (· ≤ ·)

/-- The turn of the next schedule: `get_one` raises when it is gone, which ends the run. -/
def take (worker : Worker) : State :=
  match worker.todo with
  | [] => { s with worker := none }
  | scheduleId :: rest =>
    match s.schedule? scheduleId with
    | none => { s with worker := none }
    | some row =>
      let stage := if row.due worker.now then Stage.computing row else .looping
      { s with worker := some { worker with todo := rest, stage } }

def mark (worker : Worker) (scheduleId : String) (status : Status) (detail : String) : State :=
  match s.schedule? scheduleId with
  | none => { s with worker := none }
  | some row =>
    { schedules := Table.modify KpiSchedule.scheduleId s.schedules scheduleId fun _ =>
        { row with lastRunAt := some worker.now, lastStatus := some status, lastDetail := some detail }
      worker := some { worker with
        stage := .looping
        ran := worker.ran ++ [(scheduleId, status, detail)] } }

/-- `except Exception`: the status and the detail that a schedule gets. -/
def outcomeOf : Except String String → Status × String
  | .ok detail => (.ok, detail)
  | .error text => (.error, String.ofList (text.toList.take 500))

def act : Act → Option State
  | .put scheduleId body permitted =>
    if permitted then some (s.put (body.row scheduleId (s.schedule? scheduleId))) else some s
  | .delete scheduleId permitted =>
    if permitted then some { s with schedules := s.schedules.filter (·.scheduleId ≠ scheduleId) }
    else some s
  | .start now =>
    match s.worker with
    | none => some { s with worker := some { now, todo := s.enabledIds } }
    | some _ => none
  | .take =>
    match s.worker with
    | some worker =>
      match worker.stage with
      | .looping => some (s.take worker)
      | _ => none
    | none => none
  | .publish outcome =>
    match s.worker with
    | some worker =>
      match worker.stage with
      | .computing row =>
        let (status, detail) := outcomeOf outcome
        some { s with worker := some { worker with
          stage := .marking row.scheduleId status detail } }
      | _ => none
    | none => none
  | .mark =>
    match s.worker with
    | some worker =>
      match worker.stage with
      | .marking scheduleId status detail => some (s.mark worker scheduleId status detail)
      | _ => none
    | none => none

def Step (s : State) (a : Act) (s' : State) : Prop := s.act a = some s'

def publishes : Act → Option (String × Window)
  | .publish (.ok _) =>
    match s.worker with
    | some worker =>
      match worker.stage with
      | .computing row => some (row.scheduleId, row.window worker.now)
      | _ => none
    | none => none
  | _ => none

end State

def Act.changes : Act → Option String
  | .put scheduleId _ permitted | .delete scheduleId permitted =>
    if permitted then some scheduleId else none
  | _ => none

def windows (trace : List (Runs.Step State Act)) (scheduleId : String) : List Window :=
  trace.foldl (fun published t =>
    if t.label.changes = some scheduleId then []
    else
      match t.before.publishes t.label with
      | some (other, window) => if other = scheduleId then published ++ [window] else published
      | none => published) []

def Worker.left (worker : Worker) : List String :=
  match worker.stage with
  | .looping => worker.todo.tail
  | _ => worker.todo

/-- After the transitions before it, an act publishes a window that does not begin where the schedule's
last one ended, or ends a run of the worker in which other schedules wait for their turn. -/
def State.lapses (earlier : List (Runs.Step State Act)) (s : State) : Act → Bool
  | .publish (.ok _) =>
    match s.worker with
    | some worker =>
      match worker.stage with
      | .computing row =>
        row.lookbackSeconds = row.intervalSeconds && windows earlier row.scheduleId ≠ [] &&
          !(row.lastStatus = some .ok &&
            row.lastRunAt.any fun last => last + row.intervalSeconds = worker.now)
      | _ => false
    | none => false
  | .take =>
    s.worker.any fun worker =>
      match worker.todo with
      | [] => false
      | scheduleId :: rest => (s.schedule? scheduleId).isNone && rest ≠ []
  | .mark =>
    s.worker.any fun worker =>
      match worker.stage with
      | .marking scheduleId _ _ => (s.schedule? scheduleId).isNone && worker.todo ≠ []
      | _ => false
  | _ => false

def careful (steps : List (Runs.Step State Act)) : Bool :=
  (List.range steps.length).all fun n =>
    steps[n]?.all fun t => !t.before.lapses (steps.take n) t.label

def Window.holds (window : Window) (at_ : Int) : Prop := window.start ≤ at_ ∧ at_ < window.stop

/-- The windows of a schedule with the default look-back meet, a time since the first of them and
before the end of the last is in one alone, and a run of the worker leaves no schedule out. -/
structure Published (trace : List (Runs.Step State Act)) (s : State) : Prop where
  meet : ∀ id row, s.schedule? id = some row → row.lookbackSeconds = row.intervalSeconds →
    (windows trace id).IsChain fun before after => after.start = before.stop
  once : ∀ id row, s.schedule? id = some row → row.lookbackSeconds = row.intervalSeconds →
    ∀ first last, (windows trace id).head? = some first → (windows trace id).getLast? = some last →
      ∀ at_, first.start ≤ at_ → at_ < last.stop →
        ∃! k : Nat, ∃ window, (windows trace id)[k]? = some window ∧ window.holds at_
  whole : ∀ t ∈ trace, ∀ worker, t.before.worker = some worker → t.after.worker = none →
    worker.left = []

section Windows

variable {window : Window} {rest : List Window} {at_ : Int}

theorem later_start (meet : (window :: rest).IsChain fun before after => after.start = before.stop)
    (valid : ∀ other ∈ rest, other.start ≤ other.stop) :
    ∀ other ∈ rest, window.stop ≤ other.start := by
  induction rest generalizing window with
  | nil => exact fun _ mem => absurd mem List.not_mem_nil
  | cons next rest ih =>
    obtain ⟨same, meet⟩ := List.isChain_cons_cons.mp meet
    obtain ⟨first, valid⟩ := List.forall_mem_cons.mp valid
    refine List.forall_mem_cons.mpr ⟨Int.le_of_eq same.symm, fun other mem => ?_⟩
    have later := ih meet valid other mem
    omega

theorem holds_once {published : List Window}
    (meet : published.IsChain fun before after => after.start = before.stop)
    (valid : ∀ other ∈ published, other.start ≤ other.stop) {first last : Window}
    (isFirst : published.head? = some first) (isLast : published.getLast? = some last)
    (since : first.start ≤ at_) (before : at_ < last.stop) :
    ∃! k : Nat, ∃ window, published[k]? = some window ∧ window.holds at_ := by
  induction published generalizing first with
  | nil => cases isFirst
  | cons window rest ih =>
    cases isFirst
    obtain ⟨-, validRest⟩ := List.forall_mem_cons.mp valid
    have later := later_start meet validRest
    by_cases inFirst : at_ < window.stop
    · refine ⟨0, ⟨window, rfl, since, inFirst⟩, ?_⟩
      rintro (_ | k) ⟨other, found, holds⟩
      · rfl
      · have begins := later other (List.mem_of_getElem? (by simpa using found))
        have := holds.1
        omega
    · cases rest with
      | nil =>
        cases isLast
        exact absurd before inFirst
      | cons next rest =>
        obtain ⟨same, meet⟩ := List.isChain_cons_cons.mp meet
        obtain ⟨k, ⟨other, found, holds⟩, only⟩ := ih meet validRest rfl
          (by simpa [List.getLast?_cons_cons] using isLast) (by omega)
        refine ⟨k + 1, ⟨other, by simpa using found, holds⟩, ?_⟩
        rintro (_ | j) ⟨another, found', holds'⟩
        · cases found'
          exact absurd holds'.2 inFirst
        · rw [only j ⟨another, by simpa using found', holds'⟩]

end Windows

section Runs

variable {s s' : State} {a : Act} {trace : List (Runs.Step State Act)} {id : String}
  {row : KpiSchedule} {worker : Worker}

theorem windows_snoc (t : Runs.Step State Act) : windows (trace ++ [t]) id =
    if t.label.changes = some id then []
    else
      match t.before.publishes t.label with
      | some (other, window) =>
        if other = id then windows trace id ++ [window] else windows trace id
      | none => windows trace id := by
  rw [windows, List.foldl_append]
  rfl

theorem schedule_put : (s.put row).schedule? id =
    if row.scheduleId = id then some row else s.schedule? id := by
  unfold State.put State.schedule?
  split
  · next there =>
    rw [Table.get_put]
    split
    · next own =>
      obtain ⟨old, found⟩ := Option.isSome_iff_exists.mp there
      rw [← own, found, Option.map_some]
    · rfl
  · next absent => exact Table.get_snoc (Option.not_isSome_iff_eq_none.mp absent)

def Marks (s : State) (id : String) : Prop :=
  ∃ worker status detail, s.worker = some worker ∧ worker.stage = .marking id status detail

structure Kept (trace : List (Runs.Step State Act)) (s : State) (id : String) (row : KpiSchedule) :
    Prop where
  meet : row.lookbackSeconds = row.intervalSeconds →
    (windows trace id).IsChain fun before after => after.start = before.stop
  link : ¬ Marks s id → ∀ last, (windows trace id).getLast? = some last →
    ∃ ran, row.lastRunAt = some ran ∧ (row.lastStatus = some .ok → ran = last.stop)
  computing : ∀ worker loaded, s.worker = some worker → worker.stage = .computing loaded →
    loaded.scheduleId = id → windows trace id ≠ [] → row = loaded
  marking : ∀ worker detail, s.worker = some worker → worker.stage = .marking id .ok detail →
    ∀ last, (windows trace id).getLast? = some last → last.stop = worker.now

structure Sound (trace : List (Runs.Step State Act)) (s : State) : Prop where
  valid : ∀ id, ∀ window ∈ windows trace id, window.start ≤ window.stop
  kept : ∀ id row, s.schedule? id = some row → Kept trace s id row
  whole : ∀ t ∈ trace, ∀ worker, t.before.worker = some worker → t.after.worker = none →
    worker.left = []

theorem Kept.of_none (none : windows trace id = []) : Kept trace s id row where
  meet _ := none ▸ .nil
  link _ last is := by
    rw [none] at is
    cases is
  computing _ _ _ _ _ some := absurd none some
  marking _ _ _ _ last is := by
    rw [none] at is
    cases is

theorem mem_snoc_whole (whole : ∀ t ∈ trace, ∀ worker, t.before.worker = some worker →
      t.after.worker = none → worker.left = []) (t : Runs.Step State Act)
    (ends : ∀ worker, t.before.worker = some worker → t.after.worker = none → worker.left = []) :
    ∀ u ∈ trace ++ [t], ∀ worker, u.before.worker = some worker → u.after.worker = none →
      worker.left = [] := by
  intro u mem
  rcases List.mem_append.mp mem with before | last
  · exact whole u before
  · rw [List.mem_singleton.mp last]
    exact ends

theorem Sound.changed (sound : Sound trace s) (changes : a.changes = some id)
    (worker : s'.worker = s.worker) (quiet : s.publishes a = none)
    (others : ∀ other row, other ≠ id → s'.schedule? other = some row →
      s.schedule? other = some row) : Sound (trace ++ [⟨s, a, s'⟩]) s' := by
  have own : windows (trace ++ [⟨s, a, s'⟩]) id = [] := by
    rw [windows_snoc]
    exact if_pos changes
  have same : ∀ other, other ≠ id → windows (trace ++ [⟨s, a, s'⟩]) other = windows trace other := by
    intro other differs
    rw [windows_snoc, if_neg (by simpa [changes] using Ne.symm differs)]
    rw [quiet]
  refine ⟨fun other => ?_, fun other row found => ?_, mem_snoc_whole sound.whole _ ?_⟩
  · by_cases mine : other = id
    · rw [mine, own]
      exact fun _ mem => absurd mem List.not_mem_nil
    · rw [same other mine]
      exact sound.valid other
  · by_cases mine : other = id
    · exact .of_none (mine ▸ own)
    · have kept := sound.kept other row (others other row mine found)
      refine ⟨?_, ?_, ?_, ?_⟩
      · rw [same other mine]
        exact kept.meet
      · rw [same other mine, Marks, worker]
        exact kept.link
      · rw [same other mine, worker]
        exact kept.computing
      · rw [same other mine, worker]
        exact kept.marking
  · intro w was now
    rw [worker, was] at now
    cases now

theorem Sound.worked (sound : Sound trace s) (changes : a.changes = none)
    (quiet : s.publishes a = none)
    (kept : ∀ id row, s'.schedule? id = some row → Kept trace s' id row)
    (ends : ∀ worker, s.worker = some worker → s'.worker = none → worker.left = []) :
    Sound (trace ++ [⟨s, a, s'⟩]) s' := by
  have same : ∀ id, windows (trace ++ [⟨s, a, s'⟩]) id = windows trace id := by
    intro id
    rw [windows_snoc, if_neg (by simp [changes])]
    rw [quiet]
  refine ⟨fun id => ?_, fun id row found => ?_, mem_snoc_whole sound.whole _ ends⟩
  · rw [same]
    exact sound.valid id
  · have holds := kept id row found
    refine ⟨?_, ?_, ?_, ?_⟩
    · rw [same]
      exact holds.meet
    · rw [same]
      exact holds.link
    · rw [same]
      exact holds.computing
    · rw [same]
      exact holds.marking

theorem Kept.loops (kept : Kept trace s id row) (before : ¬ Marks s id)
    (loops : ∀ worker, s'.worker = some worker → worker.stage = .looping) : Kept trace s' id row where
  meet := kept.meet
  link _ := kept.link before
  computing worker loaded is stage := by
    cases (loops worker is).symm.trans stage
  marking worker detail is stage := by
    cases (loops worker is).symm.trans stage

theorem not_marks {stage : Stage} (is : s.worker = some worker) (at_ : worker.stage = stage)
    (other : ∀ status detail, stage ≠ .marking id status detail) : ¬ Marks s id := by
  rintro ⟨worker', status, detail, is', stage'⟩
  cases is.symm.trans is'
  exact other status detail (at_.symm.trans stage')

theorem Sound.take (sound : Sound trace s) (is : s.worker = some worker)
    (loops : worker.stage = .looping) (careful : s.lapses trace .take = false) :
    Sound (trace ++ [⟨s, .take, s.take worker⟩]) (s.take worker) := by
  have before : ∀ id, ¬ Marks s id := fun id => not_marks is loops fun _ _ => by simp
  have ended : ∀ id row, Kept trace s id row → Kept trace { s with worker := none } id row :=
    fun id row kept => kept.loops (before id) fun _ none => by cases none
  unfold State.take
  cases todo : worker.todo with
  | nil =>
    refine sound.worked rfl rfl (fun id row found => ended id row (sound.kept id row found)) ?_
    rintro w was -
    cases is.symm.trans was
    simp [Worker.left, loops, todo]
  | cons scheduleId rest =>
    dsimp only
    cases found : s.schedule? scheduleId with
    | none =>
      refine sound.worked rfl rfl (fun id row found => ended id row (sound.kept id row found)) ?_
      rintro w was -
      cases is.symm.trans was
      simpa [State.lapses, is, todo, found, Worker.left, loops] using careful
    | some loaded =>
      dsimp only
      refine sound.worked rfl rfl (fun id row there => ?_) fun _ _ none => by cases none
      have kept := sound.kept id row there
      split
      · refine ⟨kept.meet, fun _ => kept.link (before id), ?_, fun w detail now stage => ?_⟩
        · rintro w r now stage own -
          cases now
          cases stage
          have key := Table.key_of_get found
          rw [own] at key
          subst key
          exact Option.some.inj (there.symm.trans found)
        · cases now
          cases stage
      · refine kept.loops (before id) fun w now => ?_
        cases now
        rfl

theorem Sound.fails (sound : Sound trace s) {loaded : KpiSchedule} {text : String}
    (is : s.worker = some worker) (computes : worker.stage = .computing loaded) {detail : String} :
    Sound (trace ++ [⟨s, .publish (.error text), { s with worker := some { worker with
      stage := .marking loaded.scheduleId .error detail } }⟩]) { s with worker := some { worker with
      stage := .marking loaded.scheduleId .error detail } } := by
  refine sound.worked rfl rfl (fun id row there => ?_) fun _ _ none => by cases none
  have kept := sound.kept id row there
  have before : ¬ Marks s id := not_marks is computes fun _ _ => by simp
  refine ⟨kept.meet, fun _ => kept.link before, fun w r now stage => ?_, fun w detail now stage => ?_⟩
  · cases now
    cases stage
  · cases now
    cases stage

theorem Sound.publishes (sound : Sound trace s) {loaded : KpiSchedule} {text : String}
    (is : s.worker = some worker) (computes : worker.stage = .computing loaded)
    (careful : s.lapses trace (.publish (.ok text)) = false) :
    Sound (trace ++ [⟨s, .publish (.ok text), { s with worker := some { worker with
      stage := .marking loaded.scheduleId .ok text } }⟩]) { s with worker := some { worker with
      stage := .marking loaded.scheduleId .ok text } } := by
  have quiet : s.publishes (.publish (.ok text)) =
      some (loaded.scheduleId, loaded.window worker.now) := by
    simp [State.publishes, is, computes]
  have next : ∀ s' id, windows (trace ++ [⟨s, .publish (.ok text), s'⟩]) id =
      if loaded.scheduleId = id then windows trace id ++ [loaded.window worker.now]
      else windows trace id := by
    intro s' id
    rw [windows_snoc, if_neg (by simp [Act.changes])]
    rw [quiet]
  have before : ∀ id, ¬ Marks s id := fun id => not_marks is computes fun _ _ => by simp
  refine ⟨fun id window mem => ?_, fun id row there => ?_, mem_snoc_whole sound.whole _ ?_⟩
  · rw [next] at mem
    split at mem
    · rcases List.mem_append.mp mem with was | new
      · exact sound.valid id window was
      · rw [List.mem_singleton.mp new]
        simp only [KpiSchedule.window]
        omega
    · exact sound.valid id window mem
  · have kept := sound.kept id row there
    by_cases own : loaded.scheduleId = id
    · refine ⟨fun default => ?_, fun unmarked => ?_, fun w r now stage => ?_,
        fun w detail now stage last isLast => ?_⟩
      · rw [next, if_pos own]
        refine List.isChain_append.mpr ⟨kept.meet default, .singleton _, ?_⟩
        intro last isLast new isNew
        obtain rfl := Option.some.inj isNew
        have some_ : windows trace id ≠ [] := by
          intro none
          rw [none] at isLast
          cases isLast
        obtain rfl := kept.computing worker loaded is computes own some_
        obtain ⟨ran, at_, ended⟩ := kept.link (before id) last isLast
        have onTime : row.lastStatus = some .ok ∧ ran + row.intervalSeconds = worker.now := by
          simpa [State.lapses, is, computes, default, own, some_, at_] using careful
        rw [KpiSchedule.window, default, ← ended onTime.1, ← onTime.2]
        exact Int.add_sub_cancel _ _
      · subst own
        exact absurd ⟨_, _, _, rfl, rfl⟩ unmarked
      · cases now
        cases stage
      · cases now
        rw [next, if_pos own, List.getLast?_concat] at isLast
        cases isLast
        rfl
    · refine ⟨?_, ?_, fun w r now stage => ?_, fun w detail now stage => ?_⟩
      · rw [next, if_neg own]
        exact kept.meet
      · rw [next, if_neg own]
        exact fun _ => kept.link (before id)
      · cases now
        cases stage
      · cases now
        cases stage
        exact absurd rfl own
  · rintro w - none
    cases none

theorem Sound.mark (sound : Sound trace s) {status : Status} {detail : String}
    (is : s.worker = some worker) (marks : worker.stage = .marking id status detail)
    (careful : s.lapses trace .mark = false) :
    Sound (trace ++ [⟨s, .mark, s.mark worker id status detail⟩]) (s.mark worker id status detail) := by
  have before : ∀ other, other ≠ id → ¬ Marks s other := fun other differs =>
    not_marks is marks fun _ _ same => by
      cases same
      exact differs rfl
  unfold State.mark
  cases found : s.schedule? id with
  | none =>
    refine sound.worked rfl rfl (fun other row there => ?_) ?_
    · have differs : other ≠ id := by
        rintro rfl
        cases found.symm.trans there
      exact (sound.kept other row there).loops (before other differs) fun _ none => by cases none
    · rintro w was -
      cases is.symm.trans was
      simpa [State.lapses, is, marks, found, Worker.left] using careful
  | some old =>
    refine sound.worked rfl rfl (fun other row there => ?_) fun _ _ none => by cases none
    have key := Table.key_of_get found
    have reads : Table.get KpiSchedule.scheduleId (Table.modify KpiSchedule.scheduleId s.schedules id
        fun _ => { old with
          lastRunAt := some worker.now, lastStatus := some status, lastDetail := some detail }) other =
        if id = other then some { old with
          lastRunAt := some worker.now, lastStatus := some status, lastDetail := some detail }
        else s.schedule? other := by
      subst key
      have put : ∀ row : KpiSchedule, Table.get KpiSchedule.scheduleId
          (Table.modify KpiSchedule.scheduleId s.schedules row.scheduleId fun _ => row) other =
            if row.scheduleId = other then (s.schedule? other).map fun _ => row
            else s.schedule? other := fun row => Table.get_put row
      refine (put { old with
        lastRunAt := some worker.now, lastStatus := some status, lastDetail := some detail }).trans ?_
      split
      · next own =>
        rw [← own]
        exact congrArg (Option.map _) found
      · rfl
    have now := reads.symm.trans there
    split at now
    · next own =>
      subst own
      cases now
      have kept := sound.kept id old found
      refine ⟨kept.meet, fun _ last isLast => ⟨worker.now, rfl, fun ok => ?_⟩, ?_, ?_⟩
      · obtain rfl := Option.some.inj ok
        exact (kept.marking worker detail is marks last isLast).symm
      · rintro w loaded now stage
        cases now
        cases stage
      · rintro w detail now stage
        cases now
        cases stage
    · next differs =>
      refine (sound.kept other row now).loops (before other (Ne.symm differs)) fun w now => ?_
      cases now
      rfl

theorem Sound.act (sound : Sound trace s) (careful : s.lapses trace a = false)
    (step : State.Step s a s') : Sound (trace ++ [⟨s, a, s'⟩]) s' := by
  cases a with
  | put scheduleId body permitted =>
    cases permitted with
    | false =>
      cases step
      exact sound.worked rfl rfl sound.kept fun w was now => by cases was.symm.trans now
    | true =>
      cases step
      refine sound.changed rfl rfl rfl fun other row differs found => ?_
      rw [schedule_put] at found
      split at found
      · next own => exact absurd own.symm differs
      · exact found
  | delete scheduleId permitted =>
    cases permitted with
    | false =>
      cases step
      exact sound.worked rfl rfl sound.kept fun w was now => by cases was.symm.trans now
    | true =>
      cases step
      refine sound.changed rfl rfl rfl fun other row differs found => ?_
      have reads : Table.get KpiSchedule.scheduleId
          (s.schedules.filter fun row => decide (row.scheduleId ≠ scheduleId)) other =
            if decide (other ≠ scheduleId) then s.schedule? other else none :=
        Table.get_filter_key fun id => decide (id ≠ scheduleId)
      simp only [differs, ne_eq, not_false_eq_true, decide_true, if_true] at reads
      exact reads.symm.trans found
  | start now =>
    simp only [State.Step, State.act] at step
    split at step
    · next none =>
      cases step
      refine sound.worked rfl rfl (fun id row found => ?_) fun w was => by cases none.symm.trans was
      refine (sound.kept id row found).loops ?_ fun w now => ?_
      · rintro ⟨w, -, -, was, -⟩
        cases none.symm.trans was
      · cases now
        rfl
    · cases step
  | take =>
    simp only [State.Step, State.act] at step
    split at step
    · next worker is =>
      split at step
      · next loops =>
        cases step
        exact sound.take is loops careful
      · cases step
    · cases step
  | publish outcome =>
    simp only [State.Step, State.act] at step
    split at step
    · next worker is =>
      split at step
      · next loaded computes =>
        cases outcome with
        | error text =>
          cases step
          exact sound.fails is computes
        | ok text =>
          cases step
          exact sound.publishes is computes careful
      · cases step
    · cases step
  | mark =>
    simp only [State.Step, State.act] at step
    split at step
    · next worker is =>
      split at step
      · next marks =>
        cases step
        exact sound.mark is marks careful
      · cases step
    · cases step

end Runs

/-- The windows of the schedules meet, and no schedule is left out, in a run without a lapse. -/
theorem schedules_published {trace : List (Runs.Step State Act)} {s : State}
    (run : Runs.Run State.Step {} trace s) (careful : careful trace = true) : Published trace s := by
  have sound : Sound trace s := by
    refine run.invariant_of_guarded_history Sound (fun trace s a => s.lapses trace a = false) ?_
      (fun _ _ _ _ sound careful step => sound.act careful step) ?_
    · refine ⟨fun _ _ mem => absurd mem List.not_mem_nil, fun id row found => ?_,
        fun _ mem => absurd mem List.not_mem_nil⟩
      cases found
    · rintro earlier t later rfl
      have all := List.all_eq_true.mp careful earlier.length (List.mem_range.mpr (by simp))
      simpa using all
  refine ⟨fun id row found default => (sound.kept id row found).meet default,
    fun id row found default first last isFirst isLast at_ since before => ?_, sound.whole⟩
  exact holds_once ((sound.kept id row found).meet default) (sound.valid id) isFirst isLast since before

section Sample

def hourly : KpiScheduleRequest where
  kpi := "prbUtilisation"
  intervalSeconds := 3600

def computes (now : Int) : List Act :=
  [.start now, .take, .publish (.ok "3 groups, 3 records to 1 data jobs"), .mark, .take]

def onTime : List Act := .put "kpi-1" hourly true :: computes 7200 ++ computes 10800

theorem hours_meet : Published (Runs.stepsOf (Runs.nextOf State.act) {} onTime)
    (onTime.foldl (Runs.nextOf State.act) {}) :=
  schedules_published (Runs.run_enabled (by decide +kernel)) (by decide +kernel)

def late : List Act := .put "kpi-1" hourly true :: computes 7200 ++ computes 10810

theorem seconds_missed : ¬ ∀ (trace : List (Runs.Step State Act)) (s : State),
    Runs.Run State.Step {} trace s → Published trace s := by
  intro always
  have run : Runs.Run State.Step {} (Runs.stepsOf (Runs.nextOf State.act) {} late)
      (late.foldl (Runs.nextOf State.act) {}) := Runs.run_enabled (by decide +kernel)
  obtain ⟨row, found⟩ := Option.isSome_iff_exists.mp
    (show ((late.foldl (Runs.nextOf State.act) {}).schedule? "kpi-1").isSome by decide +kernel)
  have default : ((late.foldl (Runs.nextOf State.act) {}).schedule? "kpi-1").all
      (fun row => row.lookbackSeconds = row.intervalSeconds) = true := by decide +kernel
  have meet := (always _ _ run).meet "kpi-1" row found (by simpa [found] using default)
  have gap : windows (Runs.stepsOf (Runs.nextOf State.act) {} late) "kpi-1" =
      [⟨3600, 7200⟩, ⟨7210, 10810⟩] := by decide +kernel
  rw [gap] at meet
  simp at meet

end Sample

end Smo.RanNfOam.KpiSchedules
