import Smo.Mdaf.Requests

/-! When the verdict of `_request_matches` is the conjunction of the filters, in any order of them. -/
namespace Smo.Mdaf

variable {V : Type} [LinearOrder V] (numbers : Arithmetic V)

def Fired (state : Sides) (threshold : ThresholdInfo V) (value : IEValue V) : Prop :=
  ∃ number, value.number? = some number ∧ ∃ side, threshold.watches side = true ∧
    threshold.reaches number side = true ∧ state threshold.monitoredMDAOutputIE ≠ some side

structure Satisfied (values : Values V) (now : Nat) (state : Sides) (filter : MDAOutputIEFilter V) :
    Prop where
  inTime : ∀ timeOut, filter.timeOut = some timeOut → now < timeOut
  equal : ∀ wanted, filter.filterValue = some wanted →
    (filter.value values).isNull = false ∧ (filter.value values).text = wanted
  fired : ∀ threshold ∈ filter.threshold, Fired state threshold (filter.value values)

structure Satisfies (request : MDARequest V) (report : Report V) (now : Nat) (stored : Option Sides) :
    Prop where
  active : (∀ start, request.startTime = some start → start ≤ now) ∧
    ∀ stop, request.stopTime = some stop → now < stop
  scope : request.managedEntitiesScope = [] ∨ report.managedEntitiesScope = none ∨
    ∃ reported, report.managedEntitiesScope = some reported ∧
      ∃ entity ∈ request.managedEntitiesScope, entity ∈ reported
  output : ∃ wanted ∈ request.requestedMDAOutputs, ∃ values,
    flatEntries report wanted.mDAType = some values ∧
      ∀ filter ∈ wanted.mDAOutputIEFilters, Satisfied values now (sidesOf stored) filter

abbrev Test (V : Type) := ThresholdInfo V × IEValue V

namespace Test

variable (state : Sides)

def fires (test : Test V) : Bool :=
  test.2.number?.any fun number => (thresholdCrossed numbers state test.1 number).1

def side (test : Test V) : Option Side :=
  match test.2.number? with
  | some number => (crossing numbers test.1 (state test.1.monitoredMDAOutputIE) number).2
  | none => state test.1.monitoredMDAOutputIE

def Apart (a b : Test V) : Prop :=
  a.1.monitoredMDAOutputIE = b.1.monitoredMDAOutputIE →
    a.side numbers state = state a.1.monitoredMDAOutputIE ∧
      b.side numbers state = state b.1.monitoredMDAOutputIE

instance (a b : Test V) : Decidable (Apart numbers state a b) := by
  unfold Apart
  infer_instance

theorem apart_symm {a b : Test V} (apart : Apart numbers state a b) : Apart numbers state b a :=
  fun same => (apart same.symm).symm

theorem fires_iff (test : Test V) :
    test.fires numbers state = true ↔ Fired state test.1 test.2 := by
  unfold fires Fired
  cases test.2.number? with
  | none => simp
  | some number =>
    simp only [Option.any_some, thresholdCrossed_eq, Option.some.injEq, exists_eq_left']
    unfold crossing
    constructor
    · split_ifs with up down low high
      · exact fun _ => ⟨.above, up.1, by simpa [ThresholdInfo.reaches] using up.2.1, up.2.2⟩
      · exact fun _ => ⟨.below, down.1, by simpa [ThresholdInfo.reaches] using down.2.1, down.2.2⟩
      all_goals simp
    · rintro ⟨side, watches, reaches, other⟩
      cases side with
      | above =>
        rw [if_pos ⟨watches, by simpa [ThresholdInfo.reaches] using reaches, other⟩]
        rfl
      | below =>
        have below : test.1.watches .below = true ∧ number ≤ test.1.thresholdValue ∧
            state test.1.monitoredMDAOutputIE ≠ some .below :=
          ⟨watches, by simpa [ThresholdInfo.reaches] using reaches, other⟩
        split_ifs <;> rfl

theorem gate_eq (progress : Progress) (threshold : ThresholdInfo V) (value : IEValue V) :
    gate numbers value progress threshold =
      { progress with
        gated := !fires numbers progress.state (threshold, value)
        state := Function.update progress.state threshold.monitoredMDAOutputIE
          (side numbers progress.state (threshold, value)) } := by
  unfold gate fires side
  cases value.number? with
  | none => simp
  | some number => simp [thresholdCrossed_eq]

theorem congr {other : Sides} (test : Test V)
    (same : other test.1.monitoredMDAOutputIE = state test.1.monitoredMDAOutputIE) :
    test.fires numbers other = test.fires numbers state ∧
      test.side numbers other = test.side numbers state := by
  simp only [fires, side, thresholdCrossed_eq, same, and_self]

theorem agrees_after {other : Sides} {test : Test V} {rest : List (Test V)}
    (apart : ∀ later ∈ rest, Apart numbers state test later)
    (agree : ∀ later ∈ test :: rest,
      other later.1.monitoredMDAOutputIE = state later.1.monitoredMDAOutputIE) :
    ∀ later ∈ rest, Function.update other test.1.monitoredMDAOutputIE (test.side numbers other)
      later.1.monitoredMDAOutputIE = state later.1.monitoredMDAOutputIE := by
  intro later mem
  by_cases same : later.1.monitoredMDAOutputIE = test.1.monitoredMDAOutputIE
  · have own := (test.congr numbers state (agree test List.mem_cons_self)).2
    rw [same, Function.update_self, own, (apart later mem same.symm).1]
  · rw [Function.update_of_ne same]
    exact agree later (List.mem_cons_of_mem _ mem)

end Test

def MDAOutputIEFilter.tests (filter : MDAOutputIEFilter V) (values : Values V) : List (Test V) :=
  filter.threshold.map fun threshold => (threshold, filter.value values)

def MDAOutputs.tests (wanted : MDAOutputs V) (values : Values V) : List (Test V) :=
  wanted.mDAOutputIEFilters.flatMap (·.tests values)

def MDAOutputIEFilter.plain (filter : MDAOutputIEFilter V) (values : Values V) (now : Nat) : Bool :=
  !filter.timedOut now && !filter.differs values

def Agree (state other : Sides) (tests : List (Test V)) : Prop :=
  ∀ test ∈ tests, other test.1.monitoredMDAOutputIE = state test.1.monitoredMDAOutputIE

section Filters

variable (state : Sides)

theorem foldl_gate (value : IEValue V) (thresholds : List (ThresholdInfo V)) (rest : List (Test V))
    (progress : Progress)
    (apart : (thresholds.map (·, value) ++ rest).Pairwise (Test.Apart numbers state))
    (agree : Agree state progress.state (thresholds.map (·, value) ++ rest)) :
    let after := thresholds.foldl (gate numbers value) progress
    after.ok = progress.ok ∧
      after.gated = ((thresholds.map (·, value)).foldl (fun _ test => !Test.fires numbers state test)
        progress.gated) ∧ Agree state after.state rest := by
  induction thresholds generalizing progress with
  | nil => exact ⟨rfl, rfl, agree⟩
  | cons threshold thresholds ih =>
    rw [List.map_cons, List.cons_append, List.pairwise_cons] at apart
    have later := Test.agrees_after numbers state apart.1 agree
    have fires := (Test.congr numbers state _ (agree _ List.mem_cons_self)).1
    have done := ih (gate numbers value progress threshold) apart.2
      (by rw [Test.gate_eq]; exact later)
    rw [Test.gate_eq, fires] at done
    simpa only [List.foldl_cons, List.map_cons, Test.gate_eq, fires] using done

theorem passes_spec (values : Values V) (now : Nat) (filters : List (MDAOutputIEFilter V))
    (rest : List (Test V)) (progress : Progress)
    (apart : (filters.flatMap (·.tests values) ++ rest).Pairwise (Test.Apart numbers state))
    (agree : Agree state progress.state (filters.flatMap (·.tests values) ++ rest)) :
    let after := passes numbers values now progress filters
    after.ok = (progress.ok && filters.all (·.plain values now)) ∧
      (filters.all (·.plain values now) = true →
        after.gated = ((filters.flatMap (·.tests values)).foldl
          (fun _ test => !Test.fires numbers state test) progress.gated)) ∧
      Agree state after.state rest := by
  induction filters generalizing progress with
  | nil => exact ⟨by simp [passes], fun _ => rfl, agree⟩
  | cons filter filters ih =>
    rw [List.flatMap_cons, List.append_assoc] at apart agree
    have skipped : Agree state progress.state rest := fun test mem =>
      agree test (List.mem_append_right _ (List.mem_append_right _ mem))
    obtain ⟨ok, gated, later⟩ := foldl_gate numbers state _ _ _ progress apart agree
    obtain ⟨oks, gates, last⟩ := ih _ (List.pairwise_append.mp apart).2.1 later
    simp only [passes, List.all_cons, MDAOutputIEFilter.plain]
    split_ifs with late other
    · exact ⟨by simp [late], by simp [late], skipped⟩
    · exact ⟨by simp [late, other], by simp [late, other], skipped⟩
    · refine ⟨by simp [oks, ok, late, other, MDAOutputIEFilter.plain], fun plain => ?_, last⟩
      have plains : filters.all (·.plain values now) = true := by
        simpa [late, other, MDAOutputIEFilter.plain] using plain
      rw [gates plains, gated, List.flatMap_cons, List.foldl_append]
      rfl

theorem foldl_last {α : Type} (f : α → Bool) (list : List α) (first : Bool) :
    list.foldl (fun _ x => f x) first = (list.getLast?.map f).getD first := by
  induction list generalizing first with
  | nil => rfl
  | cons x rest ih =>
    rw [List.foldl_cons, ih]
    cases rest with
    | nil => rfl
    | cons y rest => simp [List.getLast?_cons]

end Filters

namespace MDAOutputs

variable (now : Nat) (state : Sides) (wanted : MDAOutputs V) (values : Values V)

def passed : Bool :=
  wanted.mDAOutputIEFilters.all (·.plain values now) &&
    (wanted.tests values).all (Test.fires numbers state)

def lastPassed : Bool :=
  wanted.mDAOutputIEFilters.all (·.plain values now) &&
    (wanted.tests values).getLast?.all (Test.fires numbers state)

def mixed : Bool :=
  wanted.mDAOutputIEFilters.all (·.plain values now) &&
    (wanted.tests values).any (Test.fires numbers state) &&
    (wanted.tests values).any (!Test.fires numbers state ·)

def present (wanted : MDAOutputs V) (values : Values V) : Bool :=
  wanted.mDAOutputIEFilters.all fun filter =>
    !(filter.value values).isNull || filter.filterValue ≠ some (IEValue.null (V := V)).text

theorem lastPassed_of_passed (passes : wanted.passed numbers now state values = true) :
    wanted.lastPassed numbers now state values = true := by
  obtain ⟨plain, fires⟩ := Bool.and_eq_true_iff.mp passes
  refine Bool.and_eq_true_iff.mpr ⟨plain, ?_⟩
  cases last : (wanted.tests values).getLast? with
  | none => rfl
  | some test => exact List.all_eq_true.mp fires test (List.mem_of_getLast? last)

theorem passed_of_lastPassed (passes : wanted.lastPassed numbers now state values = true)
    (unmixed : wanted.mixed numbers now state values = false) :
    wanted.passed numbers now state values = true := by
  obtain ⟨plain, fires⟩ := Bool.and_eq_true_iff.mp passes
  refine Bool.and_eq_true_iff.mpr ⟨plain, List.all_eq_true.mpr fun test mem => ?_⟩
  cases last : (wanted.tests values).getLast? with
  | none => simp [List.getLast?_eq_none_iff.mp last] at mem
  | some final =>
    rw [last] at fires
    have one : (wanted.tests values).any (Test.fires numbers state) = true :=
      List.any_eq_true.mpr ⟨final, List.mem_of_getLast? last, fires⟩
    rw [mixed, plain, one, Bool.true_and, Bool.true_and] at unmixed
    simpa using List.any_eq_false.mp unmixed test mem

end MDAOutputs

namespace MDARequest

variable (request : MDARequest V) (report : Report V) (now : Nat)

def foundAll (p : MDAOutputs V → Values V → Bool) : Bool :=
  request.requestedMDAOutputs.all fun wanted => (flatEntries report wanted.mDAType).all (p wanted)

def foundAny (p : MDAOutputs V → Values V → Bool) : Bool :=
  request.requestedMDAOutputs.any fun wanted => (flatEntries report wanted.mDAType).any (p wanted)

def testsOf (entries : String → Option (Values V)) (wanted : MDAOutputs V) : List (Test V) :=
  (entries wanted.mDAType).elim [] wanted.tests

def tests : List (Test V) := request.requestedMDAOutputs.flatMap (testsOf (flatEntries report))

omit [LinearOrder V] in
theorem foundAll_iff (p : MDAOutputs V → Values V → Bool) :
    request.foundAll report p = true ↔ ∀ wanted ∈ request.requestedMDAOutputs, ∀ values,
      flatEntries report wanted.mDAType = some values → p wanted values = true := by
  simp [foundAll, Option.all_eq_true]

omit [LinearOrder V] in
theorem foundAny_iff (p : MDAOutputs V → Values V → Bool) :
    request.foundAny report p = true ↔ ∃ wanted ∈ request.requestedMDAOutputs, ∃ values,
      flatEntries report wanted.mDAType = some values ∧ p wanted values = true := by
  simp [foundAny, Option.any_eq_true]

/-- The tests are apart, no missing value is asked for by the text of null, and no output has a threshold
that fires beside one that does not, unless the request is met anyway. -/
def clear (state : Sides) : Bool :=
  decide ((request.tests report).Pairwise (Test.Apart numbers state)) &&
    request.foundAll report MDAOutputs.present &&
    (request.foundAny report (·.passed numbers now state) ||
      request.foundAll report (!·.mixed numbers now state ·))

theorem foldl_matchOne (entries : String → Option (Values V)) (state : Sides)
    (outputs : List (MDAOutputs V)) (so : Bool × Sides)
    (apart : (outputs.flatMap (testsOf entries)).Pairwise (Test.Apart numbers state))
    (agree : Agree state so.2 (outputs.flatMap (testsOf entries))) :
    (outputs.foldl (matchOne numbers entries now) so).1 = (so.1 || outputs.any fun wanted =>
      (entries wanted.mDAType).any (wanted.lastPassed numbers now state)) := by
  induction outputs generalizing so with
  | nil => simp
  | cons wanted rest ih =>
    rw [List.flatMap_cons] at apart agree
    rw [List.foldl_cons, List.any_cons]
    have later := (List.pairwise_append.mp apart).2.1
    cases is : entries wanted.mDAType with
    | none =>
      rw [show matchOne numbers entries now so wanted = so by simp only [matchOne, is]]
      rw [ih so later fun test mem => agree test (List.mem_append_right _ mem)]
      simp
    | some values =>
      rw [show testsOf entries wanted = wanted.tests values by simp [testsOf, is]] at apart agree
      obtain ⟨ok, gated, agrees⟩ := passes_spec numbers state values now wanted.mDAOutputIEFilters _
        ⟨true, false, so.2⟩ apart agree
      simp only [matchOne, is]
      rw [ih _ later agrees, ok]
      cases plain : wanted.mDAOutputIEFilters.all (·.plain values now) with
      | false => simp [MDAOutputs.lastPassed, plain]
      | true =>
        rw [gated plain, foldl_last]
        simp only [Option.any_some, MDAOutputs.lastPassed, plain, MDAOutputs.tests]
        cases (wanted.mDAOutputIEFilters.flatMap (·.tests values)).getLast? <;>
          simp [Bool.or_assoc]

theorem matches_of_clear (stored : Option Sides)
    (clear : request.isActive now = true → request.outOfScope report = false →
      request.clear numbers report now (sidesOf stored) = true) :
    (requestMatches numbers request report now stored).1 =
      (request.isActive now && !request.outOfScope report &&
        request.foundAny report (·.passed numbers now (sidesOf stored))) := by
  unfold requestMatches
  cases active : request.isActive now with
  | false => rfl
  | true =>
    cases scope : request.outOfScope report with
    | true => rfl
    | false =>
      have whole := clear active scope
      simp only [MDARequest.clear, Bool.and_eq_true, Bool.or_eq_true, decide_eq_true_eq] at whole
      obtain ⟨⟨apart, -⟩, unmixed⟩ := whole
      have verdict := foldl_matchOne numbers now (flatEntries report) (sidesOf stored)
        request.requestedMDAOutputs (false, sidesOf stored) apart fun _ _ => rfl
      simp only [Bool.not_true, Bool.false_eq_true, if_false, Bool.not_false, Bool.and_true, Bool.true_and]
      rw [verdict, Bool.false_or, Bool.eq_iff_iff]
      refine Iff.trans (foundAny_iff request report (·.lastPassed numbers now (sidesOf stored)))
        (Iff.trans ⟨?_, ?_⟩ (foundAny_iff request report _).symm)
      · rintro ⟨wanted, mem, values, is, passes⟩
        rcases unmixed with met | all
        · exact (foundAny_iff request report _).mp met
        · have unmixed := (foundAll_iff request report _).mp all wanted mem values is
          exact ⟨wanted, mem, values, is, wanted.passed_of_lastPassed numbers now _ values passes
            (by simpa using unmixed)⟩
      · rintro ⟨wanted, mem, values, is, passes⟩
        exact ⟨wanted, mem, values, is, wanted.lastPassed_of_passed numbers now _ values passes⟩

theorem satisfied_iff (filter : MDAOutputIEFilter V) (values : Values V) (state : Sides)
    (present : (filter.value values).isNull = true →
      filter.filterValue ≠ some (IEValue.null (V := V)).text) :
    Satisfied values now state filter ↔ filter.plain values now = true ∧
      ∀ test ∈ filter.tests values, Test.fires numbers state test = true := by
  constructor
  · rintro ⟨inTime, equal, fired⟩
    refine ⟨?_, fun test mem => ?_⟩
    · simp only [MDAOutputIEFilter.plain, MDAOutputIEFilter.timedOut, MDAOutputIEFilter.differs,
        Bool.and_eq_true, Bool.not_eq_true', Option.any_eq_false, decide_eq_false_iff_not]
      exact ⟨fun at_ is => Nat.not_le.mpr (inTime at_ is), fun wanted is => by
        simpa using (equal wanted is).2⟩
    · obtain ⟨threshold, inList, rfl⟩ := List.mem_map.mp mem
      exact (Test.fires_iff numbers state _).mpr (fired threshold inList)
  · rintro ⟨plain, fires⟩
    simp only [MDAOutputIEFilter.plain, MDAOutputIEFilter.timedOut, MDAOutputIEFilter.differs,
      Bool.and_eq_true, Bool.not_eq_true', Option.any_eq_false, decide_eq_false_iff_not] at plain
    refine ⟨fun at_ is => Nat.not_le.mp (plain.1 at_ is), fun wanted is => ?_, fun threshold mem => ?_⟩
    · have same : (filter.value values).text = wanted := by simpa using plain.2 wanted is
      refine ⟨Bool.eq_false_iff.mpr fun null => present null ?_, same⟩
      cases value : filter.value values with
      | null => rw [is, ← same, value]
      | number | predictions | other => simp [value, IEValue.isNull] at null
    · exact (Test.fires_iff numbers state _).mp (fires _ (List.mem_map_of_mem mem))

theorem passed_iff (wanted : MDAOutputs V) (values : Values V) (state : Sides)
    (present : wanted.present values = true) :
    wanted.passed numbers now state values = true ↔
      ∀ filter ∈ wanted.mDAOutputIEFilters, Satisfied values now state filter := by
  have each : ∀ filter ∈ wanted.mDAOutputIEFilters, Satisfied values now state filter ↔ _ :=
    fun filter mem => satisfied_iff numbers now filter values state fun null => by
      have := List.all_eq_true.mp present filter mem
      simpa [null] using this
  rw [MDAOutputs.passed, Bool.and_eq_true, List.all_eq_true, List.all_eq_true]
  constructor
  · intro ⟨plain, fires⟩ filter mem
    exact (each filter mem).mpr ⟨plain filter mem, fun test inTests =>
      fires test (List.mem_flatMap.mpr ⟨filter, mem, inTests⟩)⟩
  · intro all
    refine ⟨fun filter mem => ((each filter mem).mp (all filter mem)).1, fun test mem => ?_⟩
    obtain ⟨filter, inFilters, inTests⟩ := List.mem_flatMap.mp mem
    exact ((each filter inFilters).mp (all filter inFilters)).2 test inTests

omit [LinearOrder V] in
theorem outOfScope_iff : request.outOfScope report = false ↔
    (request.managedEntitiesScope = [] ∨ report.managedEntitiesScope = none ∨
      ∃ reported, report.managedEntitiesScope = some reported ∧
        ∃ entity ∈ request.managedEntitiesScope, entity ∈ reported) := by
  unfold outOfScope
  cases report.managedEntitiesScope with
  | none => simp
  | some reported => simp [imp_iff_not_or]

omit [LinearOrder V] in
theorem isActive_iff : request.isActive now = true ↔
    (∀ start, request.startTime = some start → start ≤ now) ∧
      ∀ stop, request.stopTime = some stop → now < stop := by
  simp [isActive, Option.all_eq_true]

/-- The condition on a read: the request is not active, or not in scope, or the case is clear. -/
def clearAt (stored : Option Sides) : Bool :=
  !request.isActive now || request.outOfScope report || request.clear numbers report now (sidesOf stored)

theorem clear_of_clearAt {stored : Option Sides}
    (clear : request.clearAt numbers report now stored = true) :
    request.isActive now = true → request.outOfScope report = false →
      request.clear numbers report now (sidesOf stored) = true := by
  intro active scope
  simpa [clearAt, active, scope] using clear

theorem matches_iff_satisfies (stored : Option Sides)
    (clear : request.clearAt numbers report now stored = true) :
    (requestMatches numbers request report now stored).1 = true ↔
      Satisfies request report now stored := by
  have whole := request.clear_of_clearAt numbers report now clear
  rw [matches_of_clear numbers request report now stored whole, Bool.and_eq_true, Bool.and_eq_true,
    Bool.not_eq_true', foundAny_iff]
  constructor
  · rintro ⟨⟨active, scope⟩, wanted, mem, values, is, passes⟩
    have present := (Bool.and_eq_true_iff.mp (Bool.and_eq_true_iff.mp (whole active scope)).1).2
    exact ⟨(isActive_iff request now).mp active, (outOfScope_iff request report).mp scope, wanted, mem,
      values, is, (passed_iff numbers now wanted values _
        ((foundAll_iff request report _).mp present wanted mem values is)).mp passes⟩
  · rintro ⟨isActive, inScope, wanted, mem, values, is, satisfied⟩
    have active := (isActive_iff request now).mpr isActive
    have scope := (outOfScope_iff request report).mpr inScope
    have present := (Bool.and_eq_true_iff.mp (Bool.and_eq_true_iff.mp (whole active scope)).1).2
    exact ⟨⟨active, scope⟩, wanted, mem, values, is, (passed_iff numbers now wanted values _
      ((foundAll_iff request report _).mp present wanted mem values is)).mpr satisfied⟩

end MDARequest

end Smo.Mdaf
