import Smo.SaSmos.O1Cm

/-! What the reports of an intent's pushes may be believed to say: which changes DME executed for it, and
under which registration they were asked for. -/
namespace Smo.SaSmos.O1Cm

variable {V : Type} (service : Service V)

/-- What DME executed under the id of an expectation's action, when that came to `COMPLETED`, has all the
changes of the expectation. -/
def coveredIn [DecidableEq V] (dme : List (Execution V)) (intentId : String)
    (cmTargets : List (String × List String)) (expectation : Expectation V) : Bool :=
  dme.all fun first => first.actionId ≠ actionId service intentId expectation ||
    first.status ≠ successStatus ||
    (changesFor service cmTargets expectation).1.all (· ∈ first.changes)

def covered [DecidableEq V] (intentId : String) (cmTargets : List (String × List String))
    (progress : Progress V) :
    List (Expectation V × Outcome) → Bool
  | [] => true
  | (expectation, outcome) :: rest =>
    coveredIn service progress.dme intentId cmTargets expectation &&
      match enactOne service intentId cmTargets progress expectation outcome with
      | (_, none) => true
      | (_, some next) => covered intentId cmTargets next rest

def Push.covered [DecidableEq V] (intent : Intent V) (s : State V) (a : Push) : Bool :=
  O1Cm.covered service intent.intentId a.cmTargets ⟨s.dme, ⟨intent.intentId, false, [], [], []⟩⟩
    (intent.intentExpectations.zip a.outcomes)

/-- Each change that a target stands for was in an action of the intent that was executed and came to
`COMPLETED`. -/
def Written (dme : List (Execution V)) (intentId : String) (expectation : Expectation V)
    (target : ExpectationTarget V) : Prop :=
  ∀ change ∈ changesOf service expectation target, ∃ done ∈ dme,
    done.actionId = actionId service intentId expectation ∧ done.status = successStatus ∧
      change ∈ done.changes

/-- A target that is called fulfilled was written, with the value it is said to have; an expectation is
called so only if each of its targets is. -/
structure ResultGood (intent : Intent V) (dme : List (Execution V)) (result : ExpectationResult V) :
    Prop where
  written : ∀ told ∈ result.targets, told.fulfilled = true →
    ∃ expectation ∈ intent.intentExpectations, expectation.expectationId = result.expectationId ∧
      ∃ target ∈ expectation.expectationTargets, target.targetName = told.targetName ∧
        told.achieved = some target.targetValueRange ∧
        Written service dme intent.intentId expectation target
  unsaid : ∀ told ∈ result.targets, told.fulfilled = false → told.achieved = none
  all : result.fulfilled = true → ∀ told ∈ result.targets, told.fulfilled = true

structure ReportGood (intent : Intent V) (dme : List (Execution V)) (report : Report V) : Prop where
  results : ∀ result ∈ report.expectations, ResultGood service intent dme result
  all : report.fulfilled = true → ∀ result ∈ report.expectations, result.fulfilled = true

/-- An action has the changes of the supported targets of an expectation, and no others. -/
def Made (intent : Intent V) (cmTargets : List (String × List String)) (done : Execution V) : Prop :=
  ∃ expectation ∈ intent.intentExpectations,
    done.actionId = actionId service intent.intentId expectation ∧
      ∀ change ∈ done.changes, ∃ target ∈ expectation.expectationTargets,
        reason? service cmTargets expectation.objectInstance target = none ∧
          change ∈ changesOf service expectation target

section Post

variable {service : Service V} {dme dme' : List (Execution V)} {id : String} {changes : List (Change V)}
  {outcome : Outcome} {answer : Option Answer}

theorem post_keeps (is : post dme id changes outcome = (dme', answer)) : dme ⊆ dme' := by
  cases outcome with
  | refuses code =>
    cases is
    exact List.Subset.refl _
  | executes code status =>
    simp only [post] at is
    split at is <;> cases is
    · exact List.Subset.refl _
    · exact List.subset_append_left _ _
  | raises status =>
    simp only [post] at is
    split at is <;> cases is
    · exact List.subset_append_left _ _
    · exact List.Subset.refl _

theorem post_adds (is : post dme id changes outcome = (dme', answer)) :
    ∀ done ∈ dme', done ∈ dme ∨ (done.actionId = id ∧ done.changes = changes) := by
  intro done mem
  have added {status : String} (mem : done ∈ dme ++ [⟨id, changes, status⟩]) :
      done ∈ dme ∨ (done.actionId = id ∧ done.changes = changes) := by
    rcases List.mem_append.mp mem with was | now
    · exact .inl was
    · rw [List.mem_singleton.mp now]
      exact .inr ⟨rfl, rfl⟩
  cases outcome with
  | refuses code =>
    cases is
    exact .inl mem
  | executes code status =>
    simp only [post] at is
    split at is <;> cases is
    · exact .inl mem
    · exact added mem
  | raises status =>
    simp only [post] at is
    split at is <;> cases is
    · exact added mem
    · exact .inl mem

theorem http_read {code : Nat} : some ("HTTP_" ++ code.repr) ≠ some successStatus := by
  intro same
  have first := congrArg (fun text => text.toList.head?) (Option.some.inj same)
  simp [successStatus] at first

theorem post_completed {answer : Answer} (is : post dme id changes outcome = (dme', some answer))
    (completed : answer.read = some successStatus) :
    ∃ done ∈ dme', done.actionId = id ∧ done.status = successStatus ∧
      (done ∈ dme ∨ done.changes = changes) := by
  cases outcome with
  | raises status =>
    simp only [post] at is
    split at is <;> cases is
  | refuses code =>
    cases is
    simp only [Answer.read] at completed
    split at completed
    · cases completed
    · exact absurd completed http_read
  | executes code status =>
    simp only [post] at is
    split at is
    · rename_i first found
      cases is
      refine ⟨first, List.mem_of_find?_eq_some found, ?_, ?_, .inl (List.mem_of_find?_eq_some found)⟩
      · simpa using List.find?_some found
      · simpa [Answer.read] using completed
    · cases is
      simp only [Answer.read] at completed
      refine ⟨_, List.mem_append_right _ (List.mem_singleton_self _), rfl, ?_, .inr rfl⟩
      split at completed
      · split at completed
        · cases completed
        · exact Option.some.inj completed
      · exact absurd completed http_read

end Post

section Enact

variable {service : Service V} {intent : Intent V} {cmTargets : List (String × List String)}
  {expectation : Expectation V} {outcome : Outcome} {progress next : Progress V}
  {dme dme' : List (Execution V)}

theorem ResultGood.more {result : ExpectationResult V} (good : ResultGood service intent dme result)
    (more : dme ⊆ dme') : ResultGood service intent dme' result where
  written told mem fulfilled := by
    obtain ⟨expectation, inIntent, named, target, inTargets, same, achieved, written⟩ :=
      good.written told mem fulfilled
    refine ⟨expectation, inIntent, named, target, inTargets, same, achieved, fun change is => ?_⟩
    obtain ⟨done, inDme, rest⟩ := written change is
    exact ⟨done, more inDme, rest⟩
  unsaid := good.unsaid
  all := good.all

theorem supported_of_unnamed {target : ExpectationTarget V}
    (mem : target ∈ expectation.expectationTargets)
    (unnamed : (changesFor service cmTargets expectation).2.any
      (·.targetName = target.targetName) = false) :
    target ∈ supported service cmTargets expectation := by
  refine List.mem_filter.mpr ⟨mem, ?_⟩
  cases is : reason? service cmTargets expectation.objectInstance target with
  | none => rfl
  | some reason =>
    have listed : (⟨expectation.expectationId, target.targetName, reason⟩ : Unsupported) ∈
        (changesFor service cmTargets expectation).2 :=
      List.mem_filterMap.mpr ⟨target, mem, by rw [is]; rfl⟩
    have differs := List.any_eq_false.mp unnamed _ listed
    simp at differs

theorem result_good {applied : Bool} (inIntent : expectation ∈ intent.intentExpectations)
    (written : applied = true → ∀ change ∈ (changesFor service cmTargets expectation).1,
      ∃ done ∈ dme, done.actionId = actionId service intent.intentId expectation ∧
        done.status = successStatus ∧ change ∈ done.changes) :
    ResultGood service intent dme
      (resultOf expectation applied (changesFor service cmTargets expectation).2) where
  written told mem fulfilled := by
    obtain ⟨target, inTargets, rfl⟩ := List.mem_map.mp mem
    simp only [Bool.and_eq_true, Bool.not_eq_true'] at fulfilled
    have inside := supported_of_unnamed inTargets fulfilled.2
    refine ⟨expectation, inIntent, rfl, target, inTargets, rfl, ?_, fun change is => ?_⟩
    · simp [fulfilled.1, fulfilled.2]
    · exact written fulfilled.1 change (List.mem_flatMap.mpr ⟨target, inside, is⟩)
  unsaid told mem unfulfilled := by
    obtain ⟨target, _, rfl⟩ := List.mem_map.mp mem
    simp only at unfulfilled
    simp [unfulfilled]
  all fulfilled told mem := by
    obtain ⟨target, _, rfl⟩ := List.mem_map.mp mem
    simp only [resultOf, Bool.and_eq_true, List.isEmpty_iff] at fulfilled
    simp [fulfilled.1, fulfilled.2]

theorem changes_written [DecidableEq V] {answer : Answer}
    (covers : coveredIn service dme intent.intentId cmTargets expectation = true)
    (is : post dme (actionId service intent.intentId expectation)
      (changesFor service cmTargets expectation).1 outcome = (dme', some answer))
    (applied : decide (answer.read = some successStatus) = true) :
    ∀ change ∈ (changesFor service cmTargets expectation).1, ∃ done ∈ dme',
      done.actionId = actionId service intent.intentId expectation ∧
        done.status = successStatus ∧ change ∈ done.changes := by
  intro change mem
  obtain ⟨done, inDme, its, completed, how⟩ := post_completed is (of_decide_eq_true applied)
  refine ⟨done, inDme, its, completed, ?_⟩
  rcases how with was | same
  · have all := List.all_eq_true.mp covers done was
    simp only [its, completed, ne_eq, not_true_eq_false, decide_false, Bool.false_or,
      List.all_eq_true, decide_eq_true_eq] at all
    exact all change mem
  · exact same ▸ mem

def Progress.Good (service : Service V) (intent : Intent V) (progress : Progress V) : Prop :=
  ∀ result ∈ progress.report.expectations, ResultGood service intent progress.dme result

theorem enactOne_good [DecidableEq V] (good : progress.Good service intent)
    (inIntent : expectation ∈ intent.intentExpectations)
    (covers : coveredIn service progress.dme intent.intentId cmTargets expectation = true)
    {after : Option (Progress V)}
    (is : enactOne service intent.intentId cmTargets progress expectation outcome = (dme', after)) :
    progress.dme ⊆ dme' ∧ ∀ next ∈ after, next.dme = dme' ∧ next.Good service intent := by
  simp only [enactOne] at is
  split at is
  · cases is
    exact ⟨List.Subset.refl _, by simp⟩
  · split at is
    · cases is
      refine ⟨List.Subset.refl _, ?_⟩
      rintro _ ⟨⟩
      refine ⟨rfl, fun result mem => ?_⟩
      rcases List.mem_append.mp mem with was | now
      · exact good result was
      · rw [List.mem_singleton.mp now]
        exact result_good inIntent (by simp)
    · split at is
      · rename_i posted
        cases is
        exact ⟨post_keeps posted, by simp⟩
      · rename_i dme answer posted
        cases is
        refine ⟨post_keeps posted, ?_⟩
        rintro _ ⟨⟩
        refine ⟨rfl, fun result mem => ?_⟩
        rcases List.mem_append.mp mem with was | now
        · exact (good result was).more (post_keeps posted)
        · rw [List.mem_singleton.mp now]
          exact result_good inIntent fun applied => changes_written covers posted applied

theorem enactOne_made (inIntent : expectation ∈ intent.intentExpectations)
    {after : Option (Progress V)}
    (is : enactOne service intent.intentId cmTargets progress expectation outcome = (dme', after)) :
    (∀ next ∈ after, next.dme = dme') ∧
      ∀ done ∈ dme', done ∈ progress.dme ∨ Made service intent cmTargets done := by
  have made {done : Execution V} {answer : Option Answer}
      (posted : post progress.dme (actionId service intent.intentId expectation)
        (changesFor service cmTargets expectation).1 outcome = (dme', answer)) (mem : done ∈ dme') :
      done ∈ progress.dme ∨ Made service intent cmTargets done := by
    refine (post_adds posted done mem).imp id fun ⟨its, same⟩ => ⟨expectation, inIntent, its, ?_⟩
    intro change inChanges
    rw [same] at inChanges
    obtain ⟨target, inside, is⟩ := List.mem_flatMap.mp inChanges
    obtain ⟨inTargets, free⟩ := List.mem_filter.mp inside
    exact ⟨target, inTargets, Option.isNone_iff_eq_none.mp free, is⟩
  simp only [enactOne] at is
  split at is
  · cases is
    exact ⟨by simp, fun _ => .inl⟩
  · split at is
    · cases is
      exact ⟨by simp, fun _ => .inl⟩
    · split at is
      · rename_i posted
        cases is
        exact ⟨by simp, fun _ => made posted⟩
      · rename_i dme answer posted
        cases is
        exact ⟨by simp, fun _ => made posted⟩

theorem enact_good [DecidableEq V] {work : List (Expectation V × Outcome)}
    (inIntent : ∀ item ∈ work, item.1 ∈ intent.intentExpectations) (good : progress.Good service intent)
    (covers : covered service intent.intentId cmTargets progress work = true) {report : Option (Report V)}
    (is : enact service intent.intentId cmTargets progress work = (dme', report)) :
    progress.dme ⊆ dme' ∧ ∀ told ∈ report, ReportGood service intent dme' told := by
  induction work generalizing progress with
  | nil =>
    cases is
    refine ⟨List.Subset.refl _, ?_⟩
    rintro _ ⟨⟩
    exact ⟨good, List.all_eq_true.mp⟩
  | cons item rest ih =>
    obtain ⟨expectation, outcome⟩ := item
    simp only [covered, Bool.and_eq_true] at covers
    simp only [enact] at is
    have first := inIntent _ List.mem_cons_self
    split at is
    · rename_i one
      cases is
      exact ⟨(enactOne_good good first covers.1 one).1, by simp⟩
    · rename_i dme next one
      obtain ⟨kept, after⟩ := enactOne_good good first covers.1 one
      obtain ⟨same, nextGood⟩ := after next rfl
      have rests := covers.2
      rw [one] at rests
      obtain ⟨grown, told⟩ :=
        ih (fun item mem => inIntent item (List.mem_cons_of_mem _ mem)) nextGood rests is
      exact ⟨List.Subset.trans kept (same ▸ grown), told⟩

theorem enact_made {work : List (Expectation V × Outcome)}
    (inIntent : ∀ item ∈ work, item.1 ∈ intent.intentExpectations) {report : Option (Report V)}
    (is : enact service intent.intentId cmTargets progress work = (dme', report)) :
    ∀ done ∈ dme', done ∈ progress.dme ∨ Made service intent cmTargets done := by
  induction work generalizing progress with
  | nil =>
    cases is
    exact fun _ => .inl
  | cons item rest ih =>
    obtain ⟨expectation, outcome⟩ := item
    simp only [enact] at is
    have first := inIntent _ List.mem_cons_self
    split at is
    · rename_i one
      cases is
      exact (enactOne_made first one).2
    · rename_i dme next one
      obtain ⟨same, made⟩ := enactOne_made first one
      intro done mem
      rcases ih (fun item mem => inIntent item (List.mem_cons_of_mem _ mem)) is done mem with was | now
      · exact made done (same next rfl ▸ was)
      · exact .inr now

end Enact

section Runs

variable {service : Service V} {intent : Intent V} {s : State V}
  {trace : List (Runs.Step (State V) Push)}

/-- What the reports of a run say was written, and no action has a change of a target that was not
supported at its push. -/
structure Honest (service : Service V) (intent : Intent V) (trace : List (Runs.Step (State V) Push))
    (s : State V) : Prop where
  reports : ∀ report ∈ s.reports, ReportGood service intent s.dme report
  actions : ∀ done ∈ s.dme, ∃ t ∈ trace, Made service intent t.label.cmTargets done

theorem Honest.step [DecidableEq V] {s' : State V} {a : Push} (honest : Honest service intent trace s)
    (covers : a.covered service intent s = true) (step : Step service intent s a s') :
    Honest service intent (trace ++ [⟨s, a, s'⟩]) s' := by
  obtain ⟨_, rfl⟩ := step
  have earlier : ∀ done ∈ s.dme, ∃ t ∈ trace ++ [⟨s, a, push service intent s a⟩],
      Made service intent t.label.cmTargets done := by
    intro done mem
    obtain ⟨t, inTrace, made⟩ := honest.actions done mem
    exact ⟨t, List.mem_append_left _ inTrace, made⟩
  simp only [push] at earlier ⊢
  split
  · rename_i skipped
    rw [if_pos skipped] at earlier
    exact ⟨honest.reports, earlier⟩
  · rename_i active
    rw [if_neg active] at earlier
    have inIntent : ∀ item ∈ intent.intentExpectations.zip a.outcomes,
        item.1 ∈ intent.intentExpectations := fun item mem => (List.of_mem_zip mem).1
    obtain ⟨kept, told⟩ := enact_good inIntent (by simp [Progress.Good]) covers rfl
    have made := @enact_made _ service intent a.cmTargets
      ⟨s.dme, ⟨intent.intentId, false, [], [], []⟩⟩ _ _ inIntent _ rfl
    refine ⟨fun report mem => ?_, fun done mem => ?_⟩
    · rcases List.mem_append.mp mem with was | now
      · have old := honest.reports report was
        exact ⟨fun result inReport => (old.results result inReport).more kept, old.all⟩
      · exact told report (Option.mem_toList.mp now)
    · rcases made done mem with was | now
      · exact earlier done was
      · exact ⟨_, List.mem_append_right _ (List.mem_singleton_self _), now⟩

/-- The reports say what was written when each action is new to DME, or the one DME completed under its
id has all of its changes. -/
theorem reports_honest [DecidableEq V] (run : Runs.Run (Step service intent) {} trace s)
    (covers : ∀ t ∈ trace, t.label.covered service intent t.before = true) :
    Honest service intent trace s := by
  refine run.invariant_of_guarded_history (Honest service intent)
    (fun _ s a => a.covered service intent s = true) ⟨by simp, by simp⟩
    (fun trace s a s' honest covers step => honest.step covers step) fun earlier t later same => ?_
  exact covers t (by rw [same]; exact List.mem_append_right _ List.mem_cons_self)

end Runs

section Sample

def office : Service String where
  str := id
  text? := some
  uuid5 := id
  reprList values := ", ".intercalate values

def lockAndTilt : Intent String where
  intentId := "intent"
  rmihId := rmihId
  activated := true
  intentExpectations := [{
    expectationId := "one"
    objectInstance := some "gnb-1"
    objectContexts := [⟨"Cell", .list [.plain "7"]⟩]
    expectationTargets := [⟨"NRCellDU.administrativeState", "IS_EQUAL_TO", "LOCKED"⟩,
      ⟨"CommonBeamformingFunction.digitalTilt", "IS_EQUAL_TO", "4"⟩] }]

def pushed (names : List String) : Push where
  cmTargets := names.map fun name => (name, [])
  outcomes := [.executes 202 "COMPLETED"]

def cellState : String := "NRCellDU.administrativeState"

def tilt : String := "CommonBeamformingFunction.digitalTilt"

def after : List Push → State String := List.foldl (push office lockAndTilt) {}

theorem twice_honest : Honest office lockAndTilt
    [⟨{}, pushed [cellState, tilt], after [pushed [cellState, tilt]]⟩,
      ⟨after [pushed [cellState, tilt]], pushed [cellState, tilt],
        after [pushed [cellState, tilt], pushed [cellState, tilt]]⟩]
    (after [pushed [cellState, tilt], pushed [cellState, tilt]]) :=
  reports_honest (.snoc (.snoc .refl ⟨rfl, rfl⟩) ⟨rfl, rfl⟩) (by decide +kernel)

/-- The second push finds the tilt registered too, and DME answers its action as a replay. -/
theorem tilt_unwritten : ¬∀ (s : State String) (trace : List (Runs.Step (State String) Push)),
    Runs.Run (Step office lockAndTilt) {} trace s → Honest office lockAndTilt trace s := by
  intro always
  have run : Runs.Run (Step office lockAndTilt) {} [⟨{}, pushed [cellState], after [pushed [cellState]]⟩,
      ⟨after [pushed [cellState]], pushed [cellState, tilt],
        after [pushed [cellState], pushed [cellState, tilt]]⟩]
      (after [pushed [cellState], pushed [cellState, tilt]]) :=
    .snoc (.snoc .refl ⟨rfl, rfl⟩) ⟨rfl, rfl⟩
  have honest := always _ _ run
  have told : ∃ report ∈ (after [pushed [cellState], pushed [cellState, tilt]]).reports,
      ∃ result ∈ report.expectations, ∃ target ∈ result.targets,
        target.targetName = tilt ∧ target.fulfilled = true := by decide +kernel
  obtain ⟨report, inReports, result, inReport, target, inResult, named, fulfilled⟩ := told
  obtain ⟨expectation, inIntent, _, wanted, inTargets, same, _, written⟩ :=
    ((honest.reports report inReports).results result inReport).written target inResult fulfilled
  have missing : ∀ expectation ∈ lockAndTilt.intentExpectations,
      ∀ wanted ∈ expectation.expectationTargets, wanted.targetName = tilt →
        ∃ change ∈ changesOf office expectation wanted,
          ∀ done ∈ (after [pushed [cellState], pushed [cellState, tilt]]).dme,
            change ∉ done.changes := by decide +kernel
  obtain ⟨change, is, absent⟩ := missing expectation inIntent wanted inTargets (same.trans named)
  obtain ⟨done, inDme, _, _, inside⟩ := written change is
  exact absent done inDme inside

end Sample

end Smo.SaSmos.O1Cm
