import Smo.IntentService.Models

/-! Intents (`intent-service/app/main.py`): the checks on a new one, its first report with the
conflicts found, and what changes it later. -/
namespace Smo.IntentService

open Json (Text Value)

section Capability

/-- `_supported_targets`. -/
def supportedTargets (fn : IntentHandlingFunction) (objectType : Option ObjectType) :
    Option (List SupportedExpectationTargetInfo) :=
  (fn.intentHandlingCapabilityList.find?
    fun cap => some cap.supportedExpectationObjectType = objectType).map
      (·.supportedExpectationTargetInfoList)

/-- A target that the capability does not list, or lists with another condition. A later entry
of a name replaces an earlier one. -/
def infeasibleTarget (supported : List SupportedExpectationTargetInfo)
    (target : ExpectationTarget) : Bool :=
  match supported.reverse.find? (·.supportedTargetName = target.targetName) with
  | none => true
  | some known => known.supportedTargetCondition.any (· ≠ target.targetCondition)

/-- `_feasibility`: the expectations with targets that cannot be met. -/
def feasibility (fn : IntentHandlingFunction) (expectations : List (IntentExpectation Text)) :
    List InFeasibleExpectationInfo :=
  expectations.filterMap fun exp =>
    (supportedTargets fn exp.expectationObject.objectType).bind fun supported =>
      let bad := exp.expectationTargets.filter (infeasibleTarget supported)
      if bad.isEmpty then none
      else some { expectationId := exp.expectationId, inFeasibleTargets := bad.map (·.targetName) }

/-- `_requested_expectation_object_types`. -/
def requestedExpectationObjectTypes (expectations : List (IntentExpectation Text)) :
    List ObjectType :=
  expectations.filterMap (·.expectationObject.objectType)

/-- `_validate_rmih_can_handle`. -/
def validateRmihCanHandle (fn : IntentHandlingFunction) (objectTypes : List ObjectType)
    (scope : Option IntentHandlingScope) : Except Failure Unit := do
  if fn.intentHandlingScope ≠ [] ∧ scope.any (fn.intentHandlingScope.contains · = false) then
    refuse .rmihCapabilityMismatch s!"{fn.rmihId} does not cover handling scope"
  let supported := fn.intentHandlingCapabilityList.map (·.supportedExpectationObjectType)
  if objectTypes.any (supported.contains · = false) then
    refuse .rmihCapabilityMismatch s!"{fn.rmihId} does not support"

/-- `PURPOSE_NEEDS`. -/
def purposeNeeds : IntentMgmtPurpose → Option NegotiationFunctionality
  | .feasibilityCheck | .feasibilityCheckWithRecommendations => some .feasibilityCheck
  | .exploration => some .exploration
  | .fulfilmentWithNegotiation => some .fulfilmentWithNegotiation
  | .fulfilmentWithoutNegotiation => none

/-- `intentMgmtPurpose.startswith("FEASIBILITYCHECK")`. -/
def isCheck : IntentMgmtPurpose → Bool
  | .feasibilityCheck | .feasibilityCheckWithRecommendations => true
  | _ => false

end Capability

section Conflicts

def settings (expectations : List (IntentExpectation Text)) :
    List ((Text × Text) × ExpectationTarget) :=
  expectations.flatMap fun exp =>
    match exp.instance? with
    | none => []
    | some inst => exp.expectationTargets.map fun target => ((inst, target.targetName), target)

/-- The map `wanted` of `_conflicts`: a later setting replaces an earlier one. -/
def wanted (expectations : List (IntentExpectation Text)) (key : Text × Text) :
    Option ExpectationTarget :=
  (settings expectations).reverse.lookup key

/-- Two targets of one name ask for something else, as `_conflicts` compares them. -/
def differs (mine other : ExpectationTarget) : Bool :=
  ¬ (mine.targetCondition = other.targetCondition ∧
    (mine.targetValueRange.getD .null).same (other.targetValueRange.getD .null))

def Intent.targets (intent : Intent) : List (IntentExpectation Text × ExpectationTarget) :=
  intent.intentExpectations.flatMap fun exp => exp.expectationTargets.map (exp, ·)

/-- The conflict of one target of another intent; the wanted target is indexed by its value. -/
def targetConflict (expectations : List (IntentExpectation Text)) (other : Intent)
    (exp : IntentExpectation Text) (target : ExpectationTarget) :
    Except Failure (Option IntentConflictReport) :=
  match exp.expectationObject.objectInstance.bind fun inst =>
      wanted expectations (inst, target.targetName) with
  | none => .ok none
  | some mine =>
    if mine.targetValueRange.isNone then .error .keyError
    else if differs mine target then
      .ok (some
        { conflictingIntent := other.intentId
          conflictingExpectation := exp.expectationId
          conflictingTarget := target.targetName })
    else .ok none

/-- `_conflicts`. -/
def conflicts (db : Db) (expectations : List (IntentExpectation Text)) :
    Except Failure (List IntentConflictReport) := do
  let active := db.intents.filter (·.intentAdminState = .activated)
  let pairs := active.flatMap fun other => other.targets.map fun target => (other, target)
  let found ← pairs.mapM fun pair => targetConflict expectations pair.1 pair.2.1 pair.2.2
  return found.reduceOption

end Conflicts

/-- `_received_fulfilment`. -/
def receivedFulfilment (expectations : List (IntentExpectation Text))
    (state : NotFulfilledState := .received) : IntentFulfilmentReport :=
  let info := { fulfilmentStatus := .notFulfilled, notFulfilledState := state }
  { intentFulfilmentInfo := info
    expectationFulfilmentResult := expectations.map fun exp =>
      { expectationId := exp.expectationId
        expectationFulfilmentInfo := info
        targetFulfilmentResults := exp.expectationTargets.map fun target =>
          (target.targetName, info) } }

/-- `_apply_report`. -/
def applyReport (intent : Intent) (report : IntentReport) : Intent :=
  { intent with
    fulfilled := match report.intentFulfilmentReport with
      | none => intent.fulfilled
      | some fulfilment =>
        some (fulfilment.intentFulfilmentInfo.fulfilmentStatus = .fulfilled)
    inConflict := match report.intentConflictReports with
      | none => intent.inConflict
      | some reports => some (¬ reports.isEmpty) }

def newRows (uuid : Nat) (body : CreateIntentRequest) (infeasible : List InFeasibleExpectationInfo)
    (conflicts : List IntentConflictReport) : Intent × IntentReport :=
  let intent : Intent :=
    { intentId := uuid
      userLabel := body.userLabel
      intentExpectations := body.intentExpectations
      intentMgmtPurpose := body.intentMgmtPurpose
      intentAdminState := body.intentAdminState
      intentPriority := body.intentPriority
      rmioId := body.rmioId
      rmihId := body.rmihId
      intentUtilityFormulaId := body.intentUtilityFormulaRef
      intentReportReference := some uuid }
  let report : IntentReport :=
    { id := uuid
      intentId := uuid
      intentFulfilmentReport := some (receivedFulfilment body.intentExpectations)
      intentConflictReports := if conflicts.isEmpty then none else some conflicts
      intentFeasibilityCheckReport :=
        if isCheck body.intentMgmtPurpose then some infeasible else none }
  ({ applyReport intent report with inConflict := some (¬ conflicts.isEmpty) }, report)

/-- The checks of `_create_intent_row`, in its order, and what it finds infeasible. -/
def checkRequest (db : Db) (fn : IntentHandlingFunction) (body : CreateIntentRequest) :
    Except Failure (List InFeasibleExpectationInfo) := do
  validateRmihCanHandle fn (requestedExpectationObjectTypes body.intentExpectations)
    body.intentHandlingScope
  if fn.supportedNegotiationFunctionalities ≠ [] ∧
      (purposeNeeds body.intentMgmtPurpose).any
        (fn.supportedNegotiationFunctionalities.contains · = false) then
    refuse .rmihCapabilityMismatch s!"{fn.rmihId} does not support the intentMgmtPurpose"
  if body.intentUtilityFormulaRef.any (db.formulas.contains · = false) then
    refuse .nrmObjectNotFound "no such IntentUtilityFormula"
  let infeasible := feasibility fn body.intentExpectations
  if infeasible ≠ [] ∧ isCheck body.intentMgmtPurpose = false then
    refuse .rmihCapabilityMismatch s!"{fn.rmihId} cannot fulfil"
  return infeasible

/-- `_create_intent_row`: the rows that the caller's transaction adds. -/
def createIntentRow (db : Db) (uuid : Nat) (body : CreateIntentRequest) :
    Except Failure (Intent × IntentReport) := do
  match db.functions.find? (·.rmihId = body.rmihId) with
  | none => refuse .intentHandlingFunctionNotFound "no such intent handling function"
  | some fn =>
    let infeasible ← checkRequest db fn body
    let conflicts ← conflicts db body.intentExpectations
    return newRows uuid body infeasible conflicts

theorem createIntentRow_ok {db : Db} {uuid : Nat} {body : CreateIntentRequest}
    {rows : Intent × IntentReport} (ok : createIntentRow db uuid body = .ok rows) :
    ∃ infeasible found, conflicts db body.intentExpectations = .ok found ∧
      rows = newRows uuid body infeasible found := by
  unfold createIntentRow at ok
  split at ok
  next => cases ok
  next =>
    obtain ⟨infeasible, -, ok⟩ := bind_ok ok
    obtain ⟨found, is, ok⟩ := bind_ok ok
    cases ok
    exact ⟨infeasible, found, is, rfl⟩

/-- `POST /intents`. -/
def createIntent (db : Db) (uuid : Nat) (body : CreateIntentRequest) : Except Failure Db :=
  db.insert <$> createIntentRow db uuid body

/-- `PATCH /intents/{intent_id}/admin-state`. -/
def updateIntentAdminState (db : Db) (uuid intentId : Nat) (newState : IntentAdminState)
    (requesterId : String) : Except Failure Db :=
  match db.intent intentId with
  | none => refuse .intentNotFound "no such intent"
  | some intent =>
    if intent.rmioId ≠ requesterId then
      refuse .serviceNameConflict "only the intent's creator (RMIO) may change its admin state"
    else if intent.intentAdminState ≠ newState then
      let state := if newState = .deactivated then .suspended else .received
      let report : IntentReport :=
        { id := uuid
          intentId := intentId
          intentFulfilmentReport := some (receivedFulfilment intent.intentExpectations state) }
      .ok { db.updateIntent intentId fun row =>
          applyReport { row with intentAdminState := newState, intentReportReference := some uuid }
            report with
        reports := db.reports ++ [report] }
    else .ok db

/-- `DELETE /intents/{intent_id}`, with what the foreign keys do: its reports go, and a dispatch
names it no longer. -/
def deleteIntent (db : Db) (intentId : Nat) : Db :=
  { db with
    intents := db.intents.filter (·.intentId ≠ intentId)
    reports := db.reports.filter (·.intentId ≠ intentId)
    dispatches := db.dispatches.map fun row =>
      if row.intentId = some intentId then { row with intentId := none } else row }

end Smo.IntentService
