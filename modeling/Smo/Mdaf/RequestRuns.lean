import Smo.Mdaf.RequestVerdict

/-! The requests of MDAF over any number of publishes at once: their verdicts, in any order of the request's
parts, their deliveries, and the threshold state. -/
namespace Smo.Mdaf

variable {V : Type}

structure SameFilter (a b : MDAOutputIEFilter V) : Prop where
  name : b.mDAOutputIEName = a.mDAOutputIEName
  filterValue : b.filterValue = a.filterValue
  timeOut : b.timeOut = a.timeOut
  threshold : b.threshold.Perm a.threshold

structure SameOutputs (a b : MDAOutputs V) : Prop where
  mDAType : b.mDAType = a.mDAType
  filters : Multiset.Rel SameFilter (b.mDAOutputIEFilters : Multiset (MDAOutputIEFilter V))
    (a.mDAOutputIEFilters)

/-- The same request, but for the order of its outputs, of their filters and of the thresholds. -/
structure Reordered (request other : MDARequest V) : Prop where
  startTime : other.startTime = request.startTime
  stopTime : other.stopTime = request.stopTime
  scope : other.managedEntitiesScope = request.managedEntitiesScope
  outputs : Multiset.Rel SameOutputs (other.requestedMDAOutputs : Multiset (MDAOutputs V))
    (request.requestedMDAOutputs)

section Related

variable {α β γ : Type} {r : α → β → Prop} {xs : List α} {ys : List β}

theorem perm_map_of_rel (related : Multiset.Rel r (↑xs) (↑ys)) {p : α → γ} {q : β → γ}
    (same : ∀ x y, r x y → p x = q y) : (xs.map p).Perm (ys.map q) := by
  rw [← Multiset.coe_eq_coe, ← Multiset.map_coe, ← Multiset.map_coe, ← Multiset.rel_eq, Multiset.rel_map]
  exact related.mono fun x _ y _ xy => same x y xy

theorem all_of_rel (related : Multiset.Rel r (↑xs) (↑ys)) {p : α → Bool} {q : β → Bool}
    (same : ∀ x y, r x y → p x = q y) : xs.all p = ys.all q := by
  have perm := (perm_map_of_rel related same).all_eq (f := id)
  simpa using perm

theorem any_of_rel (related : Multiset.Rel r (↑xs) (↑ys)) {p : α → Bool} {q : β → Bool}
    (same : ∀ x y, r x y → p x = q y) : xs.any p = ys.any q := by
  have perm := (perm_map_of_rel related same).any_eq (f := id)
  simpa using perm

theorem perm_flatMap_of_rel (related : Multiset.Rel r (↑xs) (↑ys)) {f : α → List γ} {g : β → List γ}
    (same : ∀ x y, r x y → (f x).Perm (g y)) : (xs.flatMap f).Perm (ys.flatMap g) := by
  rw [← Multiset.coe_eq_coe, ← Multiset.coe_bind, ← Multiset.coe_bind, ← Multiset.rel_eq]
  refine Multiset.rel_bind (fun x y xy => ?_) related
  rw [Multiset.rel_eq, Multiset.coe_eq_coe]
  exact same x y xy

end Related

variable [LinearOrder V] (numbers : Arithmetic V)

section Same

variable {f f' : MDAOutputIEFilter V} {w w' : MDAOutputs V} (values : Values V) (now : Nat) (state : Sides)

omit [LinearOrder V] in
theorem SameFilter.value (same : SameFilter f f') : f'.value values = f.value values := by
  rw [MDAOutputIEFilter.value, MDAOutputIEFilter.value, same.name]

omit [LinearOrder V] in
theorem SameFilter.plain (same : SameFilter f f') : f'.plain values now = f.plain values now := by
  simp only [MDAOutputIEFilter.plain, MDAOutputIEFilter.timedOut, MDAOutputIEFilter.differs,
    same.value values, same.timeOut, same.filterValue]

omit [LinearOrder V] in
theorem SameFilter.tests (same : SameFilter f f') : (f'.tests values).Perm (f.tests values) := by
  rw [MDAOutputIEFilter.tests, MDAOutputIEFilter.tests, same.value values]
  exact same.threshold.map _

namespace SameOutputs

omit [LinearOrder V] in
theorem plain (same : SameOutputs w w') : w'.mDAOutputIEFilters.all (·.plain values now) =
    w.mDAOutputIEFilters.all (·.plain values now) :=
  all_of_rel same.filters fun _ _ each => (each.plain values now).symm

omit [LinearOrder V] in
theorem tests (same : SameOutputs w w') : (w'.tests values).Perm (w.tests values) :=
  perm_flatMap_of_rel same.filters fun _ _ each => (each.tests values).symm

theorem passed (same : SameOutputs w w') :
    w'.passed numbers now state values = w.passed numbers now state values := by
  rw [MDAOutputs.passed, MDAOutputs.passed, same.plain, (same.tests values).all_eq]

theorem mixed (same : SameOutputs w w') :
    w'.mixed numbers now state values = w.mixed numbers now state values := by
  rw [MDAOutputs.mixed, MDAOutputs.mixed, same.plain, (same.tests values).any_eq,
    (same.tests values).any_eq]

omit [LinearOrder V] in
theorem present (same : SameOutputs w w') : w'.present values = w.present values :=
  all_of_rel same.filters fun _ _ each => by rw [each.value values, each.filterValue]

end SameOutputs

namespace Reordered

variable {request other : MDARequest V} (report : Report V)

omit [LinearOrder V] in
theorem tests (same : Reordered request other) : (other.tests report).Perm (request.tests report) := by
  refine perm_flatMap_of_rel same.outputs fun wanted wanted' each => ?_
  rw [MDARequest.testsOf, MDARequest.testsOf, each.mDAType]
  cases flatEntries report wanted.mDAType with
  | none => exact .refl _
  | some values => exact (each.tests values).symm

omit [LinearOrder V] in
theorem foundAll (same : Reordered request other) {p : MDAOutputs V → Values V → Bool}
    (alike : ∀ w w' values, SameOutputs w w' → p w' values = p w values) :
    other.foundAll report p = request.foundAll report p := by
  refine all_of_rel same.outputs fun wanted wanted' each => ?_
  rw [each.mDAType]
  exact congrArg (Option.all · _) (funext fun values => (alike wanted wanted' values each).symm)

omit [LinearOrder V] in
theorem foundAny (same : Reordered request other) {p : MDAOutputs V → Values V → Bool}
    (alike : ∀ w w' values, SameOutputs w w' → p w' values = p w values) :
    other.foundAny report p = request.foundAny report p := by
  refine any_of_rel same.outputs fun wanted wanted' each => ?_
  rw [each.mDAType]
  exact congrArg (Option.any · _) (funext fun values => (alike wanted wanted' values each).symm)

theorem clear (same : Reordered request other) :
    other.clear numbers report now state = request.clear numbers report now state := by
  have apart : (other.tests report).Pairwise (Test.Apart numbers state) ↔ _ :=
    (same.tests report).pairwise_iff (Test.apart_symm numbers state)
  unfold MDARequest.clear
  rw [decide_eq_decide.mpr apart, same.foundAll report fun _ _ values each => each.present values,
    same.foundAny report fun _ _ values each => each.passed numbers values now state,
    same.foundAll report fun _ _ values each => by rw [each.mixed numbers values now state]]

theorem verdict (same : Reordered request other) (stored : Option Sides)
    (clear : request.clearAt numbers report now stored = true) :
    (requestMatches numbers other report now stored).1 =
      (requestMatches numbers request report now stored).1 := by
  have whole := request.clear_of_clearAt numbers report now clear
  have active : other.isActive now = request.isActive now := by
    rw [MDARequest.isActive, MDARequest.isActive, same.startTime, same.stopTime]
  have scope : other.outOfScope report = request.outOfScope report := by
    rw [MDARequest.outOfScope, MDARequest.outOfScope, same.scope]
  rw [request.matches_of_clear numbers report now stored whole,
    other.matches_of_clear numbers report now stored (by rwa [active, scope, same.clear]), active, scope,
    same.foundAny report fun _ _ values each => each.passed numbers values now _]

end Reordered

end Same

section Frame

variable (values : Values V) (now : Nat) {ie : String}

theorem gate_frame (value : IEValue V) (thresholds : List (ThresholdInfo V)) (progress : Progress)
    (other : ∀ threshold ∈ thresholds, threshold.monitoredMDAOutputIE ≠ ie) :
    (thresholds.foldl (gate numbers value) progress).state ie = progress.state ie := by
  induction thresholds generalizing progress with
  | nil => rfl
  | cons threshold rest ih =>
    rw [List.foldl_cons, ih _ fun later mem => other later (List.mem_cons_of_mem _ mem), Test.gate_eq]
    exact Function.update_of_ne (other threshold List.mem_cons_self).symm _ _

theorem passes_frame (filters : List (MDAOutputIEFilter V)) (progress : Progress)
    (other : ∀ filter ∈ filters, ∀ threshold ∈ filter.threshold, threshold.monitoredMDAOutputIE ≠ ie) :
    (passes numbers values now progress filters).state ie = progress.state ie := by
  induction filters generalizing progress with
  | nil => rfl
  | cons filter rest ih =>
    rw [passes]
    split_ifs
    · rfl
    · rfl
    · rw [ih _ fun later mem => other later (List.mem_cons_of_mem _ mem),
        gate_frame numbers _ _ progress (other filter List.mem_cons_self)]

theorem foldl_frame (entries : String → Option (Values V)) (outputs : List (MDAOutputs V))
    (so : Bool × Sides)
    (other : ∀ wanted ∈ outputs, ∀ filter ∈ wanted.mDAOutputIEFilters, ∀ threshold ∈ filter.threshold,
      threshold.monitoredMDAOutputIE ≠ ie) :
    (outputs.foldl (matchOne numbers entries now) so).2 ie = so.2 ie := by
  induction outputs generalizing so with
  | nil => rfl
  | cons wanted rest ih =>
    rw [List.foldl_cons, ih _ fun later mem => other later (List.mem_cons_of_mem _ mem)]
    unfold matchOne
    cases entries wanted.mDAType with
    | none => rfl
    | some values => exact passes_frame numbers values now _ _ (other wanted List.mem_cons_self)

theorem requestMatches_frame (request : MDARequest V) (report : Report V) (stored : Option Sides)
    (other : ie ∉ request.monitored) :
    sidesOf (requestMatches numbers request report now stored).2 ie = sidesOf stored ie := by
  unfold requestMatches
  split_ifs
  · rfl
  · rfl
  · refine foldl_frame numbers now (flatEntries report) _ (false, sidesOf stored)
      fun wanted mem filter inFilters threshold inList same => other ?_
    simp only [MDARequest.monitored, List.mem_flatMap, List.mem_map]
    exact ⟨wanted, mem, filter, inFilters, threshold, inList, same⟩

theorem requestMatches_stored (request : MDARequest V) (report : Report V) (stored : Option Sides)
    (none_after : (requestMatches numbers request report now stored).2 = none) : stored = none := by
  unfold requestMatches at none_after
  split_ifs at none_after
  · exact none_after
  · exact none_after

theorem changed_of_ne (request : MDARequest V) (report : Report V) (seen : Option Sides)
    (ne : sidesOf (requestMatches numbers request report now seen).2 ie ≠ sidesOf seen ie) :
    request.changed seen (requestMatches numbers request report now seen).2 = true := by
  have isMonitored : ie ∈ request.monitored := by
    by_contra other
    exact ne (requestMatches_frame numbers now request report seen other)
  cases after : (requestMatches numbers request report now seen).2 with
  | none =>
    rw [requestMatches_stored numbers now request report seen after] at ne after
    exact absurd (by rw [after]) ne
  | some state =>
    rw [after] at ne
    cases seen with
    | none => rfl
    | some seen => exact List.any_eq_true.mpr ⟨ie, isMonitored, by simpa [sidesOf] using ne⟩

end Frame

namespace RequestRow

variable (request : MDARequest V)

/-- A publish reads in a clear case, and where it writes the threshold state, each side in the row is the
one it had read or the one it stores. -/
def Guarded (s : RequestRow V) : PublishAct V → Prop
  | .ask _ => True
  | .read i now => ∀ report, s.publishes[i]? = some (.asked report) →
    request.clearAt numbers report now s.thresholdState = true
  | .commit i => ∀ report now seen verdict state,
    s.publishes[i]? = some (.read report now seen verdict state) → request.changed seen state = true →
      ∀ ie, sidesOf s.thresholdState ie = sidesOf seen ie ∨
        sidesOf s.thresholdState ie = sidesOf state ie

/-- A read's verdict does not depend on the order of the request's parts; a commit stores every side that
the publish moved, and replaces no side but one that it had read. -/
def Keeps (t : Runs.Step (RequestRow V) (PublishAct V)) : Prop :=
  match t.label with
  | .ask _ => t.after.thresholdState = t.before.thresholdState
  | .read i now => t.after.thresholdState = t.before.thresholdState ∧
    ∀ report, t.before.publishes[i]? = some (.asked report) → ∀ other, Reordered request other →
      (requestMatches numbers other report now t.before.thresholdState).1 =
        (requestMatches numbers request report now t.before.thresholdState).1
  | .commit i => ∀ report now seen verdict state,
    t.before.publishes[i]? = some (.read report now seen verdict state) →
      ∀ ie, (sidesOf state ie ≠ sidesOf seen ie →
          sidesOf t.after.thresholdState ie = sidesOf state ie) ∧
        (sidesOf t.after.thresholdState ie ≠ sidesOf t.before.thresholdState ie →
          sidesOf t.before.thresholdState ie = sidesOf seen ie)

/-- Each verdict is the one the claim of a request makes, and the deliveries are the publishes that were
committed with it. -/
structure Sound (s : RequestRow V) : Prop where
  read : ∀ (i : Nat) report now seen verdict state,
    s.publishes[i]? = some (.read report now seen verdict state) →
      (verdict, state) = requestMatches numbers request report now seen ∧
        (verdict = true ↔ Satisfies request report now seen)
  committed : ∀ (i : Nat) report now seen verdict,
    s.publishes[i]? = some (.committed report now seen verdict) →
      (verdict = true ↔ Satisfies request report now seen)
  nodup : s.deliveries.Nodup
  delivered : ∀ i, i ∈ s.deliveries ↔
    ∃ report now seen, s.publishes[i]? = some (.committed report now seen true)

variable {request} {s s' : RequestRow V} {a : PublishAct V}

theorem step_cases (taken : Step numbers request s a s') :
    (∃ report, a = .ask report ∧ s' = { s with publishes := s.publishes ++ [.asked report] }) ∨
    (∃ i now report, a = .read i now ∧ s.publishes[i]? = some (.asked report) ∧
      s' = { s with publishes := s.publishes.set i (.read report now s.thresholdState
        (requestMatches numbers request report now s.thresholdState).1
        (requestMatches numbers request report now s.thresholdState).2) }) ∨
    ∃ i report now seen verdict state, a = .commit i ∧
      s.publishes[i]? = some (.read report now seen verdict state) ∧
      s' = {
        publishes := s.publishes.set i (.committed report now seen verdict)
        deliveries := if verdict then s.deliveries ++ [i] else s.deliveries
        thresholdState := if request.changed seen state then state else s.thresholdState } := by
  cases a with
  | ask report => exact .inl ⟨report, rfl, (Option.some.inj taken).symm⟩
  | read i now =>
    simp only [Step, act] at taken
    split at taken
    · next report is => exact .inr (.inl ⟨i, now, report, rfl, is, (Option.some.inj taken).symm⟩)
    · cases taken
  | commit i =>
    simp only [Step, act] at taken
    split at taken
    · next report now seen verdict state is =>
      exact .inr (.inr ⟨i, report, now, seen, verdict, state, rfl, is, (Option.some.inj taken).symm⟩)
    · cases taken

theorem sound_start (stored : Option Sides) :
    Sound numbers request { thresholdState := stored } := by
  refine ⟨?_, ?_, List.nodup_nil, ?_⟩ <;> simp

omit [LinearOrder V] in
theorem set_committed {publishes : List (Publish V)} {i j : Nat} {old next committed : Publish V}
    (is : publishes[i]? = some old) (ne : old ≠ committed) :
    (publishes.set i next)[j]? = some committed ↔
      (j = i ∧ next = committed) ∨ publishes[j]? = some committed := by
  rw [List.getElem?_set]
  by_cases same : i = j
  · subst same
    have within := (List.getElem?_eq_some_iff.mp is).1
    rw [is]
    simp [within, ne]
  · simp [same, Ne.symm same]

theorem Sound.step (sound : Sound numbers request s) (guarded : Guarded numbers request s a)
    (taken : Step numbers request s a s') : Sound numbers request s' := by
  obtain ⟨report, rfl, rfl⟩ | ⟨i, now, report, rfl, is, rfl⟩ |
    ⟨i, report, now, seen, verdict, state, rfl, is, rfl⟩ := step_cases numbers taken
  · refine ⟨fun j _ _ _ _ _ found => ?_, fun j _ _ _ _ found => ?_, sound.nodup, fun j => ?_⟩
    · rcases Table.append_cases found with ⟨-, new⟩ | old
      · cases new
      · exact sound.read j _ _ _ _ _ old
    · rcases Table.append_cases found with ⟨-, new⟩ | old
      · cases new
      · exact sound.committed j _ _ _ _ old
    · rw [sound.delivered]
      constructor
      · rintro ⟨_, _, _, was⟩
        exact ⟨_, _, _, (List.getElem?_append_left (List.getElem?_eq_some_iff.mp was).1).trans was⟩
      · rintro ⟨_, _, _, found⟩
        rcases Table.append_cases found with ⟨-, new⟩ | old
        · cases new
        · exact ⟨_, _, _, old⟩
  · refine ⟨fun j _ _ _ _ _ found => ?_, fun j _ _ _ _ found => ?_, sound.nodup, fun j => ?_⟩
    · rcases Table.set_cases found with ⟨-, new⟩ | ⟨-, old⟩
      · cases new
        exact ⟨rfl, request.matches_iff_satisfies numbers report now _ (guarded report is)⟩
      · exact sound.read j _ _ _ _ _ old
    · rcases Table.set_cases found with ⟨-, new⟩ | ⟨-, old⟩
      · cases new
      · exact sound.committed j _ _ _ _ old
    · rw [sound.delivered]
      simp only [set_committed is (by simp : Publish.asked report ≠ .committed _ _ _ true), reduceCtorEq,
        and_false, false_or]
  · have read := sound.read i _ _ _ _ _ is
    refine ⟨fun j _ _ _ _ _ found => ?_, fun j _ _ _ _ found => ?_, ?_, fun j => ?_⟩
    · rcases Table.set_cases found with ⟨-, new⟩ | ⟨-, old⟩
      · cases new
      · exact sound.read j _ _ _ _ _ old
    · rcases Table.set_cases found with ⟨-, new⟩ | ⟨-, old⟩
      · cases new
        exact read.2
      · exact sound.committed j _ _ _ _ old
    · dsimp only
      split
      · refine List.nodup_append.mpr ⟨sound.nodup, List.nodup_singleton _, fun j mem _ inNew same => ?_⟩
        obtain rfl := List.mem_singleton.mp inNew
        obtain ⟨_, _, _, was⟩ := (sound.delivered j).mp mem
        rw [same, is] at was
        cases was
      · exact sound.nodup
    · simp only [set_committed is (by simp : Publish.read report now seen verdict state ≠
        .committed _ _ _ true), Publish.committed.injEq]
      cases verdict with
      | false => simp [sound.delivered]
      | true =>
        rw [if_pos rfl, List.mem_append, List.mem_singleton, sound.delivered]
        constructor
        · rintro (⟨_, _, _, was⟩ | rfl)
          · exact ⟨_, _, _, .inr was⟩
          · exact ⟨_, _, _, .inl ⟨rfl, rfl, rfl, rfl, rfl⟩⟩
        · rintro ⟨_, _, _, ⟨rfl, -⟩ | was⟩
          · exact .inr rfl
          · exact .inl ⟨_, _, _, was⟩

theorem Sound.keeps (sound : Sound numbers request s) (guarded : Guarded numbers request s a)
    (taken : Step numbers request s a s') : Keeps numbers request ⟨s, a, s'⟩ := by
  obtain ⟨report, rfl, rfl⟩ | ⟨i, now, report, rfl, is, rfl⟩ |
    ⟨i, report, now, seen, verdict, state, rfl, is, rfl⟩ := step_cases numbers taken
  · rfl
  · refine ⟨rfl, fun report' is' other reordered => ?_⟩
    exact reordered.verdict numbers now report' _ (guarded report' is')
  · intro report' now' seen' verdict' state' is' ie
    cases is.symm.trans is'
    obtain ⟨made, -⟩ := sound.read i _ _ _ _ _ is
    have writes : sidesOf state ie ≠ sidesOf seen ie → request.changed seen state = true := by
      rw [(Prod.mk.inj made).2]
      exact changed_of_ne numbers now request report seen
    dsimp only
    cases changed : request.changed seen state with
    | false =>
      rw [if_neg Bool.false_ne_true]
      refine ⟨fun ne => ?_, fun ne => absurd rfl ne⟩
      rw [writes ne] at changed
      cases changed
    | true =>
      rw [if_pos rfl]
      refine ⟨fun _ => rfl, fun ne => ?_⟩
      rcases guarded report now seen verdict state is changed ie with was | same
      · exact was
      · exact absurd same.symm ne

end RequestRow

section Runs

variable {request : MDARequest V} {s : RequestRow V} {stored : Option Sides}

/-- A request is delivered the reports that satisfy it, each once, in any order of its parts, and the
publishes lose no side, when each publish reads in a clear case and commits over what it had read. -/
theorem deliveries_hold {trace : List (Runs.Step (RequestRow V) (PublishAct V))}
    (run : Runs.Run (RequestRow.Step numbers request) { thresholdState := stored } trace s)
    (guarded : ∀ t ∈ trace, RequestRow.Guarded numbers request t.before t.label) :
    s.deliveries.Nodup ∧
      (∀ i ∈ s.deliveries, ∃ report now seen,
        s.publishes[i]? = some (.committed report now seen true)) ∧
      (∀ (i : Nat) report now seen verdict,
        s.publishes[i]? = some (.committed report now seen verdict) →
          (i ∈ s.deliveries ↔ Satisfies request report now seen)) ∧
      ∀ t ∈ trace, RequestRow.Keeps numbers request t := by
  have sound := run.invariant_of_guarded (RequestRow.Sound numbers request)
    (RequestRow.Guarded numbers request) (RequestRow.sound_start numbers stored)
    (fun _ _ _ sound guarded taken => sound.step numbers guarded taken) guarded
  refine ⟨sound.nodup, fun i mem => (sound.delivered i).mp mem, ?_, ?_⟩
  · intro i report now seen verdict is
    rw [← sound.committed i report now seen verdict is, sound.delivered]
    constructor
    · rintro ⟨_, _, _, was⟩
      cases is.symm.trans was
      rfl
    · rintro rfl
      exact ⟨report, now, seen, is⟩
  · exact run.transitions_of_guarded (RequestRow.Sound numbers request)
      (RequestRow.Guarded numbers request) (RequestRow.sound_start numbers stored)
      (fun _ _ _ sound guarded taken => sound.step numbers guarded taken) _
      (fun _ _ _ sound guarded taken => sound.keeps numbers guarded taken) guarded

end Runs

section Sample

def loadRequest (threshold : List (ThresholdInfo Int)) : MDARequest Int where
  startTime := none
  stopTime := none
  managedEntitiesScope := []
  requestedMDAOutputs := [⟨"LOAD", [⟨"load", none, threshold, none⟩]⟩]

def loadReport : Report Int := ⟨[⟨"LOAD", [("load", .number 12 "12")]⟩], none⟩

def published : List (PublishAct Int) := [.ask loadReport, .read 0 5, .commit 0]

def publishing (threshold : List (ThresholdInfo Int)) : RequestRow Int → PublishAct Int → RequestRow Int :=
  Runs.nextOf (RequestRow.act integers (loadRequest threshold))

theorem publish_delivered : (published.foldl (publishing [⟨"load", .up, 10, 2⟩]) {}).deliveries.Nodup := by
  refine (deliveries_hold integers (Runs.run_enabled (by decide +kernel)) ?_).1
  intro t mem
  rcases List.mem_cons.mp mem with rfl | mem
  · trivial
  rcases List.mem_cons.mp mem with rfl | mem
  · intro report is
    cases is
    decide +kernel
  · obtain rfl := List.mem_singleton.mp mem
    intro report now seen verdict state is _ ie
    cases is
    exact .inl rfl

/-- The load fires the second threshold, not the first, and the report is delivered. -/
theorem gate_overwritten : ∃ trace s,
    Runs.Run (RequestRow.Step integers (loadRequest [⟨"load", .up, 20, 2⟩, ⟨"peak", .up, 10, 2⟩])) {}
      trace s ∧ 0 ∈ s.deliveries ∧
      s.publishes[0]? = some (.committed loadReport 5 none true) ∧
      ¬Satisfies (loadRequest [⟨"load", .up, 20, 2⟩, ⟨"peak", .up, 10, 2⟩]) loadReport 5 none := by
  refine ⟨_, published.foldl (publishing [⟨"load", .up, 20, 2⟩, ⟨"peak", .up, 10, 2⟩]) {},
    Runs.run_enabled (by decide +kernel), by decide +kernel, rfl, ?_⟩
  rintro ⟨-, -, wanted, mem, values, is, satisfied⟩
  obtain rfl := List.mem_singleton.mp mem
  have fired := (satisfied _ (List.mem_singleton_self _)).fired ⟨"load", .up, 20, 2⟩ List.mem_cons_self
  cases is
  have fires := (Test.fires_iff integers _ (_, _)).mpr fired
  exact absurd fires (by decide +kernel)

end Sample

end Smo.Mdaf
