import Smo.Lib.Json.Python

/-! TS 28.312 expectations (`intent-service/app/ts28312.py`) and their check against the family
of the object type. A value that was null is absent, as in the stored form. -/
namespace Smo.IntentService

open Json (Text Value)

def text (s : String) : Text := s.toList.map Char.toNat

inductive Condition where
  | isEqualTo | isLessThan | isGreaterThan | isWithinRange | isOutsideRange | isOneOf | isNotOneOf
  | isEqualToOrLessThan | isEqualToOrGreaterThan | isAllOf
  deriving DecidableEq, Repr

def Condition.name : Condition → String
  | isEqualTo => "IS_EQUAL_TO"
  | isLessThan => "IS_LESS_THAN"
  | isGreaterThan => "IS_GREATER_THAN"
  | isWithinRange => "IS_WITHIN_RANGE"
  | isOutsideRange => "IS_OUTSIDE_RANGE"
  | isOneOf => "IS_ONE_OF"
  | isNotOneOf => "IS_NOT_ONE_OF"
  | isEqualToOrLessThan => "IS_EQUAL_TO_OR_LESS_THAN"
  | isEqualToOrGreaterThan => "IS_EQUAL_TO_OR_GREATER_THAN"
  | isAllOf => "IS_ALL_OF"

inductive ObjectType where
  | ranSubnetwork | edgeServiceSupport | fiveGcSubnetwork | radioService | subnetwork
  deriving DecidableEq, Repr

structure Context where
  contextAttribute : Text
  contextCondition : Condition
  contextValueRange : Option Value
  contextInvariant : Bool := false

structure ExpectationTarget where
  targetName : Text
  targetCondition : Condition
  targetValueRange : Option Value
  targetContexts : List Context := []

/-- The object of an expectation; `ι` is what stands for its instance, a string once it is
validated. No contexts and an empty list of them are read alike. -/
structure ExpectationObject (ι : Type) where
  objectType : Option ObjectType := none
  objectInstance : Option ι := none
  objectContexts : List Context := []

structure IntentExpectation (ι : Type) where
  expectationId : Text
  expectationObject : ExpectationObject ι
  expectationTargets : List ExpectationTarget
  expectationContexts : List Context := []
  guaranteePeriods : List Context := []

/-- The instance an expectation names; an empty name is none, as `if not instance` reads it. -/
def IntentExpectation.instance? (exp : IntentExpectation Text) : Option Text :=
  exp.expectationObject.objectInstance.filter (· ≠ [])

section Families

/-- A specialised target or context of a family: the conditions it allows, in the spec's
spelling, and which values meet its schema and its named datatype. -/
structure Rule where
  conditions : List String
  accepts : Option Value → Bool

/-- `FAMILIES` and `GENERIC_CONTEXTS`, less the context `Cell`, and which objects are one of the
`STRUCTURED` datatypes. -/
structure Families where
  targets : Option ObjectType → Text → Option Rule
  otherContexts : Option ObjectType → Text → Option Rule
  structured : List (Text × Value) → Bool

def cell : Text := text "Cell"

def isArray : Option Value → Bool
  | some (.arr _) => true
  | _ => false

/-- The context `Cell` of the family `RadioNetworkExpectation`. -/
def cellRule : Rule where
  conditions := ["IS_ALL_OF"]
  accepts := isArray

variable (families : Families)

def Families.contexts (objectType : Option ObjectType) (name : Text) : Option Rule :=
  if name = cell then if objectType = some .ranSubnetwork then some cellRule else none
  else families.otherContexts objectType name

mutual

/-- `value_range_problem` finds none. -/
def valueRange : Value → Bool
  | .arr items => valueRanges items
  | .obj entries => families.structured entries
  | _ => true

def valueRanges : List Value → Bool
  | [] => true
  | item :: items => valueRange item && valueRanges items

end

/-- `_check_specialised` raises nothing. -/
def checkSpecialised (condition : Condition) (value : Option Value) : Option Rule → Bool
  | none => value.all (valueRange families)
  | some rule =>
    (rule.conditions = [] || rule.conditions.contains condition.name) && rule.accepts value

def checkContext (objectType : Option ObjectType) (ctx : Context) : Bool :=
  checkSpecialised families ctx.contextCondition ctx.contextValueRange
    (families.contexts objectType ctx.contextAttribute)

def checkTarget (objectType : Option ObjectType) (target : ExpectationTarget) : Bool :=
  checkSpecialised families target.targetCondition target.targetValueRange
      (families.targets objectType target.targetName) &&
    target.targetContexts.all (checkContext families objectType)

/-- `IntentExpectation._family` and the length of the targets. -/
def IntentExpectation.family {ι : Type} (exp : IntentExpectation ι) : Bool :=
  let objectType := exp.expectationObject.objectType
  !exp.expectationTargets.isEmpty && exp.expectationTargets.all (checkTarget families objectType) &&
    (exp.expectationContexts ++ exp.expectationObject.objectContexts ++ exp.guaranteePeriods).all
      (checkContext families objectType)

theorem valueRanges_iff (items : List Value) :
    valueRanges families items = true ↔ ∀ item ∈ items, valueRange families item = true := by
  induction items with
  | nil => simp [valueRanges]
  | cons item items ih => simp only [valueRanges, Bool.and_eq_true, ih, List.forall_mem_cons]

end Families

def plainFamilies : Families where
  targets _ _ := none
  otherContexts _ _ := none
  structured _ := false

end Smo.IntentService
