import Smo.IntentService.Decided
import Smo.Lib.Selection

/-! What a region scope makes of the expectations of a dispatch, and when it narrows them.
A cell is known by the text that `str` gives of it. -/
namespace Smo.IntentService

open Json (Text Value)
open Selection (Choice selection chosen)

section Cells

variable (repr : Value → Text)

def names (value : Value) : List Text := (listed value).map (·.toStr repr)

def Context.choice (ctx : Context) : Choice Condition Text :=
  let items := ctx.contextValueRange.elim [] (names repr)
  match ctx.contextCondition with
  | .isAllOf | .isOneOf | .isEqualTo => .only items
  | .isNotOneOf => .except items
  | condition => .other condition items

/-- The `Cell` contexts of some contexts, as choices. -/
def choices (contexts : List Context) : List (Choice Condition Text) :=
  (contexts.filter (·.isCell)).map (·.choice repr)

/-- The cells that an expectation selects: those that all its `Cell` contexts choose. -/
def selected (unknown : Condition → List Text → Set Text) (exp : IntentExpectation Text) :
    Set Text :=
  selection unknown (choices repr exp.expectationObject.objectContexts)

end Cells

section Statement

variable (repr : Value → Text) (families : Families) (scope : RegionScope)

def RegionScope.regionInstance (scope : RegionScope) : Option Value :=
  (scope.get? "objectInstance").filter (·.truthy)

def RegionScope.regionCells (scope : RegionScope) : Option Value :=
  (scope.get? "cells").filter (·.truthy)

/-- The second expectation is about the region's instance, and selects no cell that the first
does not select or that is none of the region's, whatever the other conditions select. -/
structure Narrowed (exp exp' : IntentExpectation Text) : Prop where
  objectInstance : ∀ region, scope.regionInstance = some region →
    exp'.expectationObject.objectInstance.map .str = some region
  cells : ∀ unknown, selected repr unknown exp' ⊆ selected repr unknown exp
  region : ∀ cells, scope.get? "cells" = some cells →
    ∀ unknown, selected repr unknown exp' ⊆ {c | c ∈ names repr cells}

def Outside (exp : IntentExpectation Text) : Prop :=
  ∃ region own, scope.regionInstance = some region ∧
    exp.expectationObject.objectInstance = some own ∧ own ≠ [] ∧ (Value.str own).same region = false

/-- A `Cell` context lists an allowed cell. -/
def Context.Reaches (allowed : List Text) (ctx : Context) : Prop :=
  ctx.isCell = true →
    ∃ value, ctx.contextValueRange = some value ∧ ∃ c ∈ names repr value, c ∈ allowed

/-- A `Cell` context lists cells, none of them allowed. -/
def Context.Misses (allowed : List Text) (ctx : Context) : Prop :=
  ctx.isCell = true ∧
    ∃ value, ctx.contextValueRange = some value ∧ ∀ c ∈ names repr value, c ∉ allowed

/-- Nothing in the expectation is out of the region, and the region's cells can be gone through. -/
def Admitted (exp : IntentExpectation Text) : Prop :=
  ¬Outside scope exp ∧ ∀ cells, scope.regionCells = some cells →
    ∃ items, iterate cells = some items ∧
      ∀ ctx ∈ exp.expectationObject.objectContexts, ctx.Reaches repr (items.map (·.toStr repr))

/-- The expectation is out of the region by its instance or, before anything is wrong with a
value, by the cells of a context. -/
def OutOfRegion (exp : IntentExpectation Text) : Prop :=
  Outside scope exp ∨ ∃ cells items, scope.regionCells = some cells ∧ iterate cells = some items ∧
    ∃ before ctx after, exp.expectationObject.objectContexts = before ++ ctx :: after ∧
      (∀ earlier ∈ before, earlier.Reaches repr (items.map (·.toStr repr))) ∧
      ctx.Misses repr (items.map (·.toStr repr))

/-- What the region adds to an expectation is valid there, and every value is there. -/
def Storable (exp : IntentExpectation Text) : Prop :=
  exp.hasValues = true ∧
  (∀ region, scope.regionInstance = some region → ∃ name, region = .str name) ∧
  ∀ cells, scope.regionCells = some cells →
    exp.expectationObject.objectContexts.any (·.isCell) = false →
    checkContext families exp.expectationObject.objectType
      { contextAttribute := cell, contextCondition := .isAllOf, contextValueRange := some cells } = true

def allowed (cells : Value) : List Text := ((iterate cells).getD []).map (·.toStr repr)

/-- Where the region has a list of cells, a `Cell` context must be affirmative; another value
of `cells` must happen to hold what is chosen. A context of an unknown condition loses no cell
unless nothing is chosen. -/
def Bounded (exp : IntentExpectation Text) : Prop :=
  let given := choices repr exp.expectationObject.objectContexts
  ∀ cells, scope.get? "cells" = some cells →
    let kept := given.map (Choice.keep (· ∈ allowed repr cells))
    (cells.truthy = false → chosen given ⊆ {c | c ∈ names repr cells}) ∧
    (cells.truthy = true → given ≠ [] →
      (match cells with
        | .arr _ => ∃ items, .only items ∈ given
        | _ => chosen kept ⊆ {c | c ∈ names repr cells}) ∧
      ((∀ condition items, .other condition items ∈ given → ∀ c ∈ items, c ∈ allowed repr cells) ∨
        chosen kept = ∅))

end Statement

section Contexts

variable {repr : Value → Text} {allowed : List Text} {ctx ctx' : Context}

def keepValue (repr : Value → Text) (allowed : List Text) (value : Value) : Value :=
  .arr ((listed value).filter fun v => v.toStr repr ∈ allowed)

/-- A `Cell` context with its allowed values, as `boundContext` leaves it. -/
def keepContext (repr : Value → Text) (allowed : List Text) (ctx : Context) : Context :=
  if ctx.isCell then
    { ctx with contextValueRange := ctx.contextValueRange.map (keepValue repr allowed) }
  else ctx

theorem kept_isEmpty (value : Value) :
    ((listed value).filter fun v => v.toStr repr ∈ allowed).isEmpty = true ↔
      ∀ c ∈ names repr value, c ∉ allowed := by
  simp [names, List.isEmpty_iff, List.filter_eq_nil_iff]

theorem boundContext_ok_iff :
    boundContext repr allowed ctx = .ok ctx' ↔
      ctx.Reaches repr allowed ∧ ctx' = keepContext repr allowed ctx := by
  unfold boundContext Context.Reaches keepContext
  by_cases isCell : ctx.isCell = true
  · simp only [isCell, if_true, true_implies]
    cases found : ctx.contextValueRange with
    | none => simp
    | some value =>
      simp only [Option.some.injEq, exists_eq_left', Option.map_some]
      split
      next none =>
        have none := (kept_isEmpty value).mp none
        constructor
        · intro h
          cases h
        · rintro ⟨⟨c, mem, within⟩, -⟩
          exact absurd within (none c mem)
      next some_ =>
        have some_ : ∃ c ∈ names repr value, c ∈ allowed := by
          by_contra none
          exact some_ ((kept_isEmpty value).mpr fun c mem within => none ⟨c, mem, within⟩)
        simp [some_, keepValue, eq_comm]
  · simp [isCell, eq_comm]

theorem boundContext_refused_iff {problem : Problem} :
    boundContext repr allowed ctx = .error (.refused problem) ↔
      ctx.Misses repr allowed ∧ problem = ⟨.schemaValidationFailed,
        "the cells are outside the dispatch's regionScope cells"⟩ := by
  unfold boundContext Context.Misses
  by_cases isCell : ctx.isCell = true
  · simp only [isCell, if_true, true_and]
    cases found : ctx.contextValueRange with
    | none => simp
    | some value =>
      simp only [Option.some.injEq, exists_eq_left', ← kept_isEmpty]
      split
      next none => simp [refuse, none, eq_comm]
      next some_ => simp [some_]
  · simp [isCell]

theorem choice_keepContext (isCell : ctx.isCell = true) :
    (keepContext repr allowed ctx).choice repr = (ctx.choice repr).keep (· ∈ allowed) := by
  have items : (ctx.contextValueRange.map (keepValue repr allowed)).elim [] (names repr) =
      (ctx.contextValueRange.elim [] (names repr)).filter (· ∈ allowed) := by
    cases ctx.contextValueRange with
    | none => rfl
    | some value => simp [names, keepValue, listed, List.filter_map, Function.comp_def]
  simp only [keepContext, isCell, if_true, Context.choice, items]
  split <;> rfl

theorem choices_keepContext (contexts : List Context) :
    choices repr (contexts.map (keepContext repr allowed)) =
      (choices repr contexts).map (Choice.keep (· ∈ allowed)) := by
  have same : ∀ ctx : Context, (keepContext repr allowed ctx).isCell = ctx.isCell := by
    intro ctx
    unfold keepContext
    split <;> rfl
  simp only [choices, List.filter_map, List.map_map, Function.comp_def, same]
  refine List.map_congr_left fun ctx mem => ?_
  exact choice_keepContext (List.mem_filter.mp mem).2

end Contexts

section Folding

variable {repr : Value → Text} {families : Families} {scope : RegionScope}
  {exp : IntentExpectation Text} {folded : IntentExpectation Value}

def foldedInstance (scope : RegionScope) (own : Option Text) : Option Value :=
  match own.filter (· ≠ []), scope.regionInstance with
  | none, some region => some region
  | _, _ => own.map .str

def foldedContexts (repr : Value → Text) (scope : RegionScope) (contexts : List Context) :
    List Context :=
  match scope.regionCells with
  | none => contexts
  | some cells =>
    contexts.map (keepContext repr (allowed repr cells)) ++
      if contexts.any (·.isCell) then []
      else [{ contextAttribute := cell
              contextCondition := .isAllOf
              contextValueRange := some cells }]

/-- An expectation within the region, as `_scoped` leaves it. -/
def foldedExpectation (repr : Value → Text) (scope : RegionScope) (exp : IntentExpectation Text) :
    IntentExpectation Value :=
  { exp with
    expectationObject :=
      { objectType := exp.expectationObject.objectType
        objectInstance := foldedInstance scope exp.expectationObject.objectInstance
        objectContexts := foldedContexts repr scope exp.expectationObject.objectContexts } }

theorem scopedInstance_inside (inside : ¬Outside scope exp) :
    scopedInstance exp.expectationObject.objectInstance (scope.get? "objectInstance") =
      .ok (foldedInstance scope exp.expectationObject.objectInstance) := by
  unfold scopedInstance foldedInstance RegionScope.regionInstance
  cases named : (scope.get? "objectInstance").filter (·.truthy) with
  | none => cases exp.expectationObject.objectInstance.filter (· ≠ []) <;> rfl
  | some region =>
    cases own : exp.expectationObject.objectInstance.filter (· ≠ []) with
    | none => rfl
    | some name =>
      obtain ⟨is, some_⟩ := Option.filter_eq_some_iff.mp own
      have same : (Value.str name).same region = true := by
        by_contra other
        exact inside ⟨region, name, named, is, by simpa using some_, by simpa using other⟩
      simp only [same, if_true, is]
      rfl

theorem scopedInstance_outside (outside : Outside scope exp) :
    scopedInstance exp.expectationObject.objectInstance (scope.get? "objectInstance") =
      refuse .schemaValidationFailed "the object instance is outside the dispatch's regionScope" := by
  obtain ⟨region, own, named, is, some_, other⟩ := outside
  unfold RegionScope.regionInstance at named
  have given : (some own).filter (· ≠ []) = some own := by simp [Option.filter, some_]
  simp only [scopedInstance, named, is, given, other, if_false, Bool.false_eq_true]

variable {contexts : List Context} {problem : Problem} {region : Value}

theorem mapM_boundContext {allowed : List Text} (reach : ∀ ctx ∈ contexts, ctx.Reaches repr allowed)
    : contexts.mapM (boundContext repr allowed) = .ok (contexts.map (keepContext repr allowed)) :=
  mapM_eq_map fun ctx mem => boundContext_ok_iff.mpr ⟨reach ctx mem, rfl⟩

theorem scopedExpectation_admitted (admitted : Admitted repr scope exp) :
    scopedExpectation repr exp (some scope) = .ok (foldedExpectation repr scope exp) := by
  obtain ⟨inside, cells⟩ := admitted
  have contexts : scopedContexts repr exp.expectationObject.objectContexts (scope.get? "cells") =
      .ok (foldedContexts repr scope exp.expectationObject.objectContexts) := by
    unfold scopedContexts foldedContexts
    unfold RegionScope.regionCells at cells ⊢
    cases named : (scope.get? "cells").filter (·.truthy) with
    | none => rfl
    | some value =>
      obtain ⟨items, iterates, reach⟩ := cells value named
      simp only [iterates, allowed, Option.getD_some, mapM_boundContext reach]
      cases exp.expectationObject.objectContexts.any (·.isCell)
      · rfl
      · simp [bind, Except.bind, pure, Except.pure]
  simp only [scopedExpectation, Option.getD_some, scopedInstance_inside inside, contexts]
  rfl

theorem scopedExpectation_ok (ok : scopedExpectation repr exp (some scope) = .ok folded) :
    Admitted repr scope exp := by
  obtain ⟨objectInstance, one, ok⟩ := bind_ok ok
  obtain ⟨contexts, two, -⟩ := bind_ok ok
  refine ⟨fun outside => ?_, fun cells named => ?_⟩
  · have refused := (scopedInstance_outside outside).symm.trans one
    cases refused
  · unfold scopedContexts at two
    unfold RegionScope.regionCells at named
    simp only [Option.getD_some, named] at two
    cases iterates : iterate cells with
    | none => simp [iterates] at two
    | some items =>
      simp only [iterates] at two
      obtain ⟨bound, each, -⟩ := bind_ok two
      refine ⟨items, rfl, fun ctx mem => ?_⟩
      obtain ⟨result, -, ok⟩ := mapM_ok_mem each mem
      exact (boundContext_ok_iff.mp ok).1

theorem scopedContexts_refused
    (refused : scopedContexts repr contexts (scope.get? "cells") = .error (.refused problem)) :
    problem.error = .schemaValidationFailed ∧ ∃ cells items, scope.regionCells = some cells ∧
      iterate cells = some items ∧ ∃ before ctx after, contexts = before ++ ctx :: after ∧
        (∀ earlier ∈ before, earlier.Reaches repr (items.map (·.toStr repr))) ∧
        ctx.Misses repr (items.map (·.toStr repr)) := by
  unfold scopedContexts at refused
  unfold RegionScope.regionCells
  cases named : (scope.get? "cells").filter (·.truthy) with
  | none => simp [named] at refused
  | some cells =>
    simp only [named] at refused
    cases iterates : iterate cells with
    | none => simp [iterates] at refused
    | some items =>
      simp only [iterates] at refused
      rcases bind_error refused with first | ⟨bound, -, rest⟩
      · obtain ⟨before, ctx, after, split, earlier, failed⟩ := mapM_error_iff.mp first
        obtain ⟨misses, rfl⟩ := boundContext_refused_iff.mp failed
        refine ⟨rfl, cells, items, rfl, iterates, before, ctx, after, split, fun other mem => ?_, misses⟩
        obtain ⟨result, ok⟩ := earlier other mem
        exact (boundContext_ok_iff.mp ok).1
      · split at rest <;> cases rest

theorem scopedExpectation_refused
    (refused : scopedExpectation repr exp (some scope) = .error (.refused problem)) :
    problem.error = .schemaValidationFailed ∧ OutOfRegion repr scope exp := by
  by_cases outside : Outside scope exp
  · have is := scopedInstance_outside outside
    simp only [scopedExpectation, Option.getD_some, is] at refused
    cases refused
    exact ⟨rfl, .inl outside⟩
  · rcases bind_error refused with first | ⟨objectInstance, -, refused⟩
    · cases (scopedInstance_inside outside).symm.trans first
    · rcases bind_error refused with second | ⟨contexts, -, rest⟩
      · obtain ⟨is, missed⟩ := scopedContexts_refused second
        exact ⟨is, .inr missed⟩
      · cases rest

theorem scopedExpectation_outOfRegion (out : OutOfRegion repr scope exp) :
    ∃ problem, scopedExpectation repr exp (some scope) = .error (.refused problem) := by
  by_cases outside : Outside scope exp
  · have is := scopedInstance_outside outside
    simp only [scopedExpectation, Option.getD_some, is]
    exact ⟨_, rfl⟩
  · obtain ⟨cells, items, named, iterates, before, ctx, after, split, earlier, misses⟩ :=
      out.resolve_left outside
    have failed : exp.expectationObject.objectContexts.mapM
        (boundContext repr (items.map (·.toStr repr))) = .error (.refused _) :=
      mapM_error_iff.mpr ⟨before, ctx, after, split,
        fun other mem => ⟨_, boundContext_ok_iff.mpr ⟨earlier other mem, rfl⟩⟩,
        boundContext_refused_iff.mpr ⟨misses, rfl⟩⟩
    unfold RegionScope.regionCells at named
    simp only [scopedExpectation, Option.getD_some, scopedInstance_inside outside, scopedContexts,
      named, iterates, failed]
    exact ⟨_, rfl⟩

theorem keepContext_isSome {allowed : List Text} (ctx : Context) :
    (keepContext repr allowed ctx).contextValueRange.isSome = ctx.contextValueRange.isSome := by
  unfold keepContext
  split <;> simp

theorem checkContext_keep {allowed : List Text} {ctx : Context} {objectType : Option ObjectType}
    (valid : checkContext families objectType ctx = true) :
    checkContext families objectType (keepContext repr allowed ctx) = true := by
  unfold keepContext
  split
  next isCell =>
    have named : ctx.contextAttribute = cell := by simpa [Context.isCell] using isCell
    unfold checkContext at valid ⊢
    simp only [named, Families.contexts, if_true] at valid ⊢
    cases found : ctx.contextValueRange with
    | none => simpa [found] using valid
    | some value =>
      rw [found] at valid
      by_cases ran : objectType = some .ranSubnetwork
      · simp only [ran, if_true, checkSpecialised, Bool.and_eq_true] at valid ⊢
        exact ⟨valid.1, rfl⟩
      · simp only [ran, if_false, checkSpecialised, Option.all_some] at valid ⊢
        simp only [Option.map_some, keepValue, Option.all_some, valueRange, valueRanges_iff]
        intro item mem
        have mem := List.mem_of_mem_filter mem
        cases value with
        | arr items => exact (valueRanges_iff families items).mp (by simpa [valueRange] using valid) item mem
        | _ => exact List.mem_singleton.mp mem ▸ valid
  next => exact valid

theorem folded_hasValues :
    (foldedExpectation repr scope exp).hasValues = exp.hasValues := by
  have contexts : (foldedContexts repr scope exp.expectationObject.objectContexts).all
      (·.contextValueRange.isSome) =
      exp.expectationObject.objectContexts.all (·.contextValueRange.isSome) := by
    unfold foldedContexts
    split
    · rfl
    · rw [List.all_append, List.all_map]
      simp only [Function.comp_def, keepContext_isSome]
      split <;> simp
  simp only [IntentExpectation.hasValues, foldedExpectation, List.all_append, contexts]

theorem folded_family (valid : exp.family families = true) :
    (foldedExpectation repr scope exp).family families = true ↔
      ∀ cells, scope.regionCells = some cells →
        exp.expectationObject.objectContexts.any (·.isCell) = false →
        checkContext families exp.expectationObject.objectType
          { contextAttribute := cell, contextCondition := .isAllOf
            contextValueRange := some cells } = true := by
  simp only [IntentExpectation.family, foldedExpectation, List.all_append, Bool.and_eq_true] at valid ⊢
  obtain ⟨targets, ⟨before, contexts⟩, after⟩ := valid
  simp only [targets, before, after, and_true, true_and]
  unfold foldedContexts
  cases scope.regionCells with
  | none => simp [contexts]
  | some cells =>
    have kept : (exp.expectationObject.objectContexts.map
        (keepContext repr (allowed repr cells))).all
        (checkContext families exp.expectationObject.objectType) = true := by
      rw [List.all_map, List.all_eq_true]
      exact fun ctx mem => checkContext_keep (List.all_eq_true.mp contexts ctx mem)
    simp only [List.all_append, kept, Bool.true_and, Option.some.injEq, forall_eq']
    cases exp.expectationObject.objectContexts.any (·.isCell) <;> simp

theorem foldedInstance_region {own : Option Text}
    (inside : ∀ name, own = some name → name ≠ [] → (Value.str name).same region = true)
    (named : scope.regionInstance = some region) : foldedInstance scope own = some region := by
  unfold foldedInstance
  cases given : own.filter (· ≠ []) with
  | none => simp [named]
  | some name =>
    obtain ⟨is, some_⟩ := Option.filter_eq_some_iff.mp given
    rw [Json.Value.same_str (inside name is (by simpa using some_)), is]
    rfl

theorem inside_same (inside : ¬Outside scope exp) (named : scope.regionInstance = some region)
    (name : Text) (is : exp.expectationObject.objectInstance = some name) (some_ : name ≠ []) :
    (Value.str name).same region = true := by
  by_contra other
  exact inside ⟨region, name, named, is, some_, by simpa using other⟩

theorem validatedInstance_ok {stored : Option Value} {objectInstance : Option Text}
    (ok : validatedInstance stored = .ok objectInstance) : objectInstance.map .str = stored := by
  unfold validatedInstance at ok
  split at ok <;> cases ok <;> rfl

theorem validated_folded (admitted : Admitted repr scope exp)
    (valid : exp.family families = true) :
    (∃ result, validated families (foldedExpectation repr scope exp) = .ok result) ↔
      Storable families scope exp := by
  have family := @folded_family repr families scope exp valid
  unfold Storable validated
  rw [folded_hasValues]
  constructor
  · rintro ⟨result, ok⟩
    obtain ⟨objectInstance, one, ok⟩ := bind_ok ok
    split at ok
    next both =>
      rw [Bool.and_eq_true] at both
      refine ⟨both.1, fun region named => ?_, family.mp both.2⟩
      have is := validatedInstance_ok one
      change _ = foldedInstance scope exp.expectationObject.objectInstance at is
      rw [foldedInstance_region (inside_same admitted.1 named) named] at is
      obtain ⟨name, -, is⟩ := Option.map_eq_some_iff.mp is
      exact ⟨name, is.symm⟩
    next => cases ok
  · rintro ⟨values, named, added⟩
    have ok : ∃ objectInstance, validatedInstance
        (foldedInstance scope exp.expectationObject.objectInstance) = .ok objectInstance := by
      cases region : scope.regionInstance with
      | some region' =>
        rw [foldedInstance_region (inside_same admitted.1 region) region]
        obtain ⟨name, rfl⟩ := named region' region
        exact ⟨some name, rfl⟩
      | none =>
        have own : foldedInstance scope exp.expectationObject.objectInstance =
            exp.expectationObject.objectInstance.map .str := by
          simp [foldedInstance, region]
        rw [own]
        cases exp.expectationObject.objectInstance with
        | none => exact ⟨none, rfl⟩
        | some name => exact ⟨some name, rfl⟩
    obtain ⟨objectInstance, ok⟩ := ok
    have all : ((foldedExpectation repr scope exp).family families) = true := family.mpr added
    simp only [foldedExpectation] at all ⊢
    simp only [ok, values, all]
    exact ⟨_, rfl⟩

theorem choices_eq_nil : choices repr contexts = [] ↔ contexts.any (·.isCell) = false := by
  simp [choices, List.filter_eq_nil_iff]

theorem choices_append (contexts more : List Context) :
    choices repr (contexts ++ more) = choices repr contexts ++ choices repr more := by
  simp [choices]

theorem choices_folded (contexts : List Context) :
    choices repr (foldedContexts repr scope contexts) =
      match scope.regionCells with
      | none => choices repr contexts
      | some cells =>
        if choices repr contexts = [] then [.only (names repr cells)]
        else (choices repr contexts).map (Choice.keep (· ∈ allowed repr cells)) := by
  unfold foldedContexts
  cases scope.regionCells with
  | none => rfl
  | some cells =>
    simp only [choices_append, choices_keepContext, choices_eq_nil]
    cases none : contexts.any (·.isCell) with
    | true => simp [choices]
    | false =>
      rw [choices_eq_nil.mpr none]
      simp [choices, Context.isCell, Context.choice]

theorem only_of_kept {cells : Value} {given : List (Choice Condition Text)} {region : List Text}
    (bounded : chosen (given.map (Choice.keep (· ∈ allowed repr cells))) ⊆ {c | c ∈ region}) :
    ∃ items, .only items ∈ given := by
  obtain ⟨items, mem⟩ := Selection.exists_only bounded
  obtain ⟨choice, there, is⟩ := List.mem_map.mp mem
  cases choice with
  | only items => exact ⟨items, there⟩
  | except | other => cases is

theorem keep_iff (cells : Value) (given : List (Choice Condition Text)) :
    let kept := given.map (Choice.keep (· ∈ allowed repr cells))
    ((∀ unknown, selection unknown kept ⊆ selection unknown given) ∧
        chosen kept ⊆ {c | c ∈ names repr cells}) ↔
      (match cells with
        | .arr _ => ∃ items, .only items ∈ given
        | _ => chosen kept ⊆ {c | c ∈ names repr cells}) ∧
      ((∀ condition items, .other condition items ∈ given → ∀ c ∈ items, c ∈ allowed repr cells) ∨
        chosen kept = ∅) := by
  intro kept
  have region : chosen kept ⊆ {c | c ∈ names repr cells} ↔
      match cells with
      | .arr _ => ∃ items, .only items ∈ given
      | _ => chosen kept ⊆ {c | c ∈ names repr cells} := by
    cases cells with
    | arr cells =>
      refine ⟨only_of_kept, fun ⟨items, mem⟩ => ?_⟩
      have subset := @Selection.chosen_keep_subset _ _ (· ∈ allowed repr (.arr cells)) given items mem
      exact fun c within => of_decide_eq_true (subset within)
    | _ => exact Iff.rfl
  rw [← region, and_comm]
  refine and_congr_right fun within => ?_
  obtain ⟨items, mem⟩ := only_of_kept within
  have narrows := @Selection.keep_narrows_iff _ _ (· ∈ allowed repr cells) given items mem
  simpa only [decide_eq_true_eq] using narrows

theorem narrowed_iff {result : IntentExpectation Text} (inside : ¬Outside scope exp)
    (instance_ : result.expectationObject.objectInstance.map .str =
      foldedInstance scope exp.expectationObject.objectInstance)
    (contexts : result.expectationObject.objectContexts =
      foldedContexts repr scope exp.expectationObject.objectContexts) :
    Narrowed repr scope exp result ↔ Bounded repr scope exp := by
  have objectInstance : ∀ region, scope.regionInstance = some region →
      result.expectationObject.objectInstance.map .str = some region := by
    intro region named
    rw [instance_, foldedInstance_region (inside_same inside named) named]
  have now := @choices_folded repr scope exp.expectationObject.objectContexts
  have cells_iff : Narrowed repr scope exp result ↔
      (∀ unknown, selection unknown
          (choices repr (foldedContexts repr scope exp.expectationObject.objectContexts)) ⊆
        selection unknown (choices repr exp.expectationObject.objectContexts)) ∧
      ∀ cells, scope.get? "cells" = some cells → chosen
          (choices repr (foldedContexts repr scope exp.expectationObject.objectContexts)) ⊆
        {c | c ∈ names repr cells} := by
    constructor
    · rintro ⟨-, narrower, within⟩
      simp only [selected, contexts] at narrower within
      exact ⟨narrower, fun cells named => Selection.selection_subset_iff.mp (within cells named)⟩
    · rintro ⟨narrower, within⟩
      refine ⟨objectInstance, ?_, fun cells named => ?_⟩
      · simpa only [selected, contexts] using narrower
      · simpa only [selected, contexts] using
          Selection.selection_subset_iff.mpr (within cells named)
  rw [cells_iff, now]
  clear cells_iff now
  unfold Bounded RegionScope.regionCells
  generalize choices repr exp.expectationObject.objectContexts = given
  cases named : scope.get? "cells" with
  | none => simp
  | some cells =>
    simp only [Option.filter_some, Option.some.injEq, forall_eq']
    cases truth : cells.truthy with
    | false => simp
    | true =>
      simp only [if_true, Bool.true_eq_false, false_implies, true_implies, true_and]
      by_cases none : given = []
      · subst none
        simp [selection, chosen, Choice.set]
      · simp only [none, if_false, ne_eq, not_false_eq_true, true_implies]
        exact keep_iff cells given

end Folding

section Dispatch

variable {α β : Type} {stored : IntentExpectation Value}

theorem forall₂_both {p q : α → β → Prop} {items : List α} {results : List β} {item : α}
    (one : List.Forall₂ p items results) (two : List.Forall₂ q items results) (mem : item ∈ items) :
    ∃ result, p item result ∧ q item result := by
  induction one with
  | nil => cases mem
  | cons first _ ih =>
    obtain ⟨first', two⟩ := List.forall₂_cons.mp two
    rcases List.mem_cons.mp mem with rfl | later
    · exact ⟨_, first, first'⟩
    · exact ih two later

theorem forall₂_imp {p q : α → β → Prop} {items : List α} {results : List β}
    (all : List.Forall₂ p items results)
    (imp : ∀ item ∈ items, ∀ result, p item result → q item result) :
    List.Forall₂ q items results := by
  induction all with
  | nil => exact .nil
  | cons first _ ih =>
    exact .cons (imp _ List.mem_cons_self _ first)
      (ih fun item mem => imp item (List.mem_cons_of_mem _ mem))

theorem validated_error {families : Families} {failure : Failure}
    (failed : validated families stored = .error failure) : failure = .validationError := by
  rcases bind_error failed with first | ⟨objectInstance, -, rest⟩
  · unfold validatedInstance at first
    split at first <;> cases first
    rfl
  · split at rest <;> cases rest
    rfl

theorem validated_result {families : Families} {result : IntentExpectation Text}
    (ok : validated families stored = .ok result) :
    result.expectationObject.objectInstance.map .str = stored.expectationObject.objectInstance ∧
      result.expectationObject.objectContexts = stored.expectationObject.objectContexts := by
  obtain ⟨objectInstance, one, ok⟩ := bind_ok ok
  split at ok <;> cases ok
  exact ⟨validatedInstance_ok one, rfl⟩

variable (repr : Value → Text) (families : Families)

def AutonomyDispatch.region (dispatch : AutonomyDispatch) : RegionScope :=
  dispatch.regionScope.getD []

/-- The intent request of a dispatch is refused with 422, or each of its expectations is
narrowed to the region. -/
def NeverWidens (dispatch : AutonomyDispatch) (userLabel : Option String) : Prop :=
  match dispatchIntentRequest repr families dispatch userLabel with
  | .ok request =>
    List.Forall₂ (Narrowed repr dispatch.region) dispatch.expectations request.intentExpectations
  | .error (.refused problem) => problem.error.problem.2 = 422
  | .error _ => False

/-- A region scope never widens a dispatch of valid expectations just when the first of them
that cannot be folded into the region is out of it, or all of them can, are valid there and are
bounded by it. -/
theorem never_widens_iff (dispatch : AutonomyDispatch) (userLabel : Option String)
    (valid : ∀ exp ∈ dispatch.expectations, exp.family families = true) :
    NeverWidens repr families dispatch userLabel ↔
      (∃ before exp after, dispatch.expectations = before ++ exp :: after ∧
        (∀ earlier ∈ before, Admitted repr dispatch.region earlier) ∧
        OutOfRegion repr dispatch.region exp) ∨
      ∀ exp ∈ dispatch.expectations, Admitted repr dispatch.region exp ∧
        Storable families dispatch.region exp ∧ Bounded repr dispatch.region exp := by
  have folds : ∀ {expectations : List (IntentExpectation Text)},
      (∀ exp ∈ expectations, Admitted repr dispatch.region exp) →
      expectations.mapM (scopedExpectation repr · dispatch.regionScope) =
        .ok (expectations.map (foldedExpectation repr dispatch.region)) := fun admitted =>
    mapM_eq_map fun exp mem => scopedExpectation_admitted (admitted exp mem)
  unfold NeverWidens
  constructor
  · intro never
    cases made : dispatchIntentRequest repr families dispatch userLabel with
    | ok request =>
      simp only [made] at never
      obtain ⟨folded, first, second⟩ := bind_ok (dispatchIntentRequest_ok made).1
      have admitted : ∀ exp ∈ dispatch.expectations, Admitted repr dispatch.region exp := by
        intro exp mem
        obtain ⟨result, -, ok⟩ := mapM_ok_mem first mem
        exact scopedExpectation_ok ok
      obtain rfl := Except.ok.inj ((folds admitted).symm.trans first)
      have each := List.forall₂_map_left_iff.mp (mapM_ok second)
      refine .inr fun exp mem => ?_
      obtain ⟨result, ok, narrowed⟩ := forall₂_both each never mem
      obtain ⟨instance_, contexts⟩ := validated_result ok
      exact ⟨admitted exp mem, (validated_folded (admitted exp mem) (valid exp mem)).mp ⟨result, ok⟩,
        (narrowed_iff (admitted exp mem).1 instance_ contexts).mp narrowed⟩
    | error failure =>
      simp only [made] at never
      cases failure with
      | refused problem =>
        rcases bind_error made with failed | ⟨expectations, -, rest⟩
        · rcases bind_error failed with first | ⟨folded, -, second⟩
          · obtain ⟨before, exp, after, split, earlier, refused⟩ := mapM_error_iff.mp first
            refine .inl ⟨before, exp, after, split, fun other mem => ?_,
              (scopedExpectation_refused refused).2⟩
            obtain ⟨result, ok⟩ := earlier other mem
            exact scopedExpectation_ok ok
          · obtain ⟨before, stored, after, -, -, failed⟩ := mapM_error_iff.mp second
            cases validated_error failed
        · cases rest
      | keyError | typeError | validationError => exact never.elim
  · rintro (⟨before, exp, after, split, earlier, out⟩ | each)
    · obtain ⟨problem, refused⟩ := scopedExpectation_outOfRegion out
      have first : dispatch.expectations.mapM (scopedExpectation repr · dispatch.regionScope) =
          .error (.refused problem) :=
        mapM_error_iff.mpr ⟨before, exp, after, split,
          fun other mem => ⟨_, scopedExpectation_admitted (earlier other mem)⟩, refused⟩
      have is : dispatchIntentRequest repr families dispatch userLabel = .error (.refused problem) := by
        rw [dispatchIntentRequest, scopedExpectations, first]
        rfl
      rw [is]
      simp only [(scopedExpectation_refused refused).1]
      rfl
    · have admitted : ∀ exp ∈ dispatch.expectations, Admitted repr dispatch.region exp :=
        fun exp mem => (each exp mem).1
      obtain ⟨results, second⟩ : ∃ results, (dispatch.expectations.map
          (foldedExpectation repr dispatch.region)).mapM (validated families) = .ok results := by
        refine mapM_isOk fun stored mem => ?_
        obtain ⟨exp, there, rfl⟩ := List.mem_map.mp mem
        exact (validated_folded (admitted exp there) (valid exp there)).mpr (each exp there).2.1
      have both : scopedExpectations repr families dispatch.expectations dispatch.regionScope =
          .ok results := by
        rw [scopedExpectations, folds admitted]
        exact second
      rw [dispatchIntentRequest, both]
      refine forall₂_imp (List.forall₂_map_left_iff.mp (mapM_ok second)) fun exp mem result ok => ?_
      obtain ⟨instance_, contexts⟩ := validated_result ok
      exact (narrowed_iff (admitted exp mem).1 instance_ contexts).mpr (each exp mem).2.2

section Examples

def cellsOf (cells : List String) : Value := .arr (cells.map fun c => .str (text c))

/-- A dispatch of one expectation with the `Cell` contexts of some conditions, in a region. -/
def cellDispatch (contexts : List (Condition × List String)) (region : RegionScope) :
    AutonomyDispatch where
  dispatchId := 0
  instanceId := "rapp-1"
  autonomyMode := "ASSIST"
  expectations := [
    { Desk.energySaving with
      expectationObject :=
        { objectContexts := contexts.map fun context =>
            { contextAttribute := cell
              contextCondition := context.1
              contextValueRange := some (cellsOf context.2) } } }]
  priority := 1
  rmihId := "energy"
  intentMgmtPurpose := none
  intentHandlingScope := none
  regionScope := some region
  status := .awaitingScope

def within : AutonomyDispatch :=
  cellDispatch [(.isAllOf, ["c1", "c3"])] [(text "cells", cellsOf ["c1", "c2"])]

theorem within_never_widens : NeverWidens (fun _ => []) plainFamilies within none := by
  refine (never_widens_iff _ _ within none ?_).mpr (.inr ?_)
  · rintro exp (_ | ⟨_, ⟨⟩⟩)
    rfl
  · rintro exp (_ | ⟨_, ⟨⟩⟩)
    refine ⟨⟨?_, ?_⟩, ⟨rfl, nofun, ?_⟩, ?_⟩
    · rintro ⟨region, own, named, -⟩
      cases named
    · rintro cells ⟨⟩
      refine ⟨_, rfl, ?_⟩
      rintro ctx (_ | ⟨_, ⟨⟩⟩) -
      exact ⟨_, rfl, text "c1", .head _, .head _⟩
    · rintro cells ⟨⟩ none
      cases none
    · rintro cells ⟨⟩
      refine ⟨nofun, fun _ _ => ⟨⟨_, .head _⟩, .inl ?_⟩⟩
      rintro condition items (_ | ⟨_, ⟨⟩⟩)

def excluding : AutonomyDispatch :=
  cellDispatch [(.isNotOneOf, ["c1", "c9"])] [(text "cells", cellsOf ["c1"])]

def nowhere : AutonomyDispatch := cellDispatch [(.isAllOf, ["c1"])] [(text "cells", .arr [])]

/-- A scope widens an exclusion, and an empty list of cells bounds nothing. -/
theorem scope_widens : ¬NeverWidens (fun _ => []) plainFamilies excluding none ∧
    ¬NeverWidens (fun _ => []) plainFamilies nowhere none := by
  constructor
  · intro never
    obtain ⟨narrowed, -⟩ := List.forall₂_cons.mp never
    have wider := narrowed.cells (fun _ _ => ∅) (a := text "c9") (by
      rintro choice (_ | ⟨_, ⟨⟩⟩)
      exact (by decide : text "c9" ∉ [text "c1"]))
    exact wider _ (.head _) (by decide : text "c9" ∈ [text "c1", text "c9"])
  · intro never
    obtain ⟨narrowed, -⟩ := List.forall₂_cons.mp never
    have outside := narrowed.region _ rfl (fun _ _ => ∅) (a := text "c1") (by
      rintro choice (_ | ⟨_, ⟨⟩⟩)
      exact (by decide : text "c1" ∈ [text "c1"]))
    cases outside

end Examples

end Dispatch

end Smo.IntentService
