import Smo.IntentService.Intents

/-! Autonomy dispatches (`intent-service/app/main.py`): the region scope folded into the
expectations, the intent request made from a dispatch, and the routes. -/
namespace Smo.IntentService

open Json (Text Value)

section Scope

/-- `regionScope.get(key)`. -/
def RegionScope.get? (scope : RegionScope) (key : String) : Option Value := scope.lookup (text key)

/-- The items that `for c in value` goes over; a number, a bool and null are no iterables. -/
def iterate : Value → Option (List Value)
  | .arr items => some items
  | .str chars => some (chars.map fun c => .str [c])
  | .obj entries => some (entries.map fun entry => .str entry.1)
  | _ => none

def listed : Value → List Value
  | .arr items => items
  | value => [value]

def Context.isCell (ctx : Context) : Bool := ctx.contextAttribute = cell

/-- The instance of a scoped object: the region's when it has none, else it must be the region's. -/
def scopedInstance (objectInstance : Option Text) (regionInstance : Option Value) :
    Except Failure (Option Value) :=
  match regionInstance.filter (·.truthy) with
  | none => .ok (objectInstance.map .str)
  | some region =>
    match objectInstance.filter (· ≠ []) with
    | none => .ok (some region)
    | some own =>
      if (Value.str own).same region then .ok (some (.str own))
      else
        refuse .schemaValidationFailed "the object instance is outside the dispatch's regionScope"

variable (repr : Value → Text) (families : Families)

/-- A context of an object in a region with the cells `allowed`. -/
def boundContext (allowed : List Text) (ctx : Context) : Except Failure Context :=
  if ctx.isCell then
    match ctx.contextValueRange with
    | none => .error .keyError
    | some value =>
      let kept := (listed value).filter fun v => v.toStr repr ∈ allowed
      if kept.isEmpty then
        refuse .schemaValidationFailed "the cells are outside the dispatch's regionScope cells"
      else .ok { ctx with contextValueRange := some (.arr kept) }
  else .ok ctx

/-- The contexts of an object in a region with `cells`. -/
def scopedContexts (contexts : List Context) (cells : Option Value) :
    Except Failure (List Context) :=
  match cells.filter (·.truthy) with
  | none => .ok contexts
  | some regionCells =>
    match iterate regionCells with
    | none => .error .typeError
    | some items => do
      let bound ← contexts.mapM (boundContext repr (items.map (·.toStr repr)))
      if contexts.any (·.isCell) then return bound
      else return bound ++
        [{ contextAttribute := cell
           contextCondition := .isAllOf
           contextValueRange := some regionCells }]

/-- `_scoped`. -/
def scopedExpectation (exp : IntentExpectation Text) (regionScope : Option RegionScope) :
    Except Failure (IntentExpectation Value) := do
  let scope := regionScope.getD []
  let obj := exp.expectationObject
  let objectInstance ← scopedInstance obj.objectInstance (scope.get? "objectInstance")
  let contexts ← scopedContexts repr obj.objectContexts (scope.get? "cells")
  return { exp with
    expectationObject :=
      { objectType := obj.objectType
        objectInstance
        objectContexts := contexts } }

def validatedInstance : Option Value → Except Failure (Option Text)
  | none => .ok none
  | some (.str name) => .ok (some name)
  | some _ => .error .validationError

def IntentExpectation.hasValues {ι : Type} (exp : IntentExpectation ι) : Bool :=
  exp.expectationTargets.all (fun target =>
      target.targetValueRange.isSome && target.targetContexts.all (·.contextValueRange.isSome)) &&
    (exp.expectationContexts ++ exp.expectationObject.objectContexts ++ exp.guaranteePeriods).all
      (·.contextValueRange.isSome)

/-- `IntentExpectation.model_validate` of a stored expectation. -/
def validated (exp : IntentExpectation Value) : Except Failure (IntentExpectation Text) := do
  let objectInstance ← validatedInstance exp.expectationObject.objectInstance
  if exp.hasValues && exp.family families then
    return { exp with expectationObject := { exp.expectationObject with objectInstance } }
  else .error .validationError

/-- The expectations of a dispatch with the region scope folded in, validated again. -/
def scopedExpectations (expectations : List (IntentExpectation Text))
    (regionScope : Option RegionScope) : Except Failure (List (IntentExpectation Text)) := do
  let folded ← expectations.mapM (scopedExpectation repr · regionScope)
  folded.mapM (validated families)

/-- `_dispatch_intent_request`. -/
def dispatchIntentRequest (dispatch : AutonomyDispatch) (userLabel : Option String) :
    Except Failure CreateIntentRequest := do
  let expectations ← scopedExpectations repr families dispatch.expectations dispatch.regionScope
  let label := s!"autonomy-dispatch {dispatch.dispatchId}"
  return {
    userLabel := (userLabel.filter (· ≠ "")).getD label
    intentExpectations := expectations
    intentMgmtPurpose := dispatch.intentMgmtPurpose.getD .fulfilmentWithoutNegotiation
    intentPriority := dispatch.priority
    rmihId := dispatch.rmihId
    rmioId := dispatch.instanceId
    intentHandlingScope := dispatch.intentHandlingScope }

theorem dispatchIntentRequest_ok {repr : Value → Text} {families : Families}
    {dispatch : AutonomyDispatch} {userLabel : Option String} {request : CreateIntentRequest}
    (ok : dispatchIntentRequest repr families dispatch userLabel = .ok request) :
    scopedExpectations repr families dispatch.expectations dispatch.regionScope =
        .ok request.intentExpectations ∧ request.intentAdminState = .activated := by
  obtain ⟨expectations, scoped_, ok⟩ := bind_ok ok
  cases ok
  exact ⟨scoped_, rfl⟩

end Scope

section Routes

variable (repr : Value → Text) (families : Families)

/-- What `GET /rapp-mgmt/instances/{id}` says of an instance. -/
structure RAppInstance where
  autonomyMode : String
  regionScope : Option RegionScope := none

/-- `POST /autonomy-dispatches`; `inst` is the answer of rApp Management. The dispatch and the
intent of an AUTONOMOUS one take the fresh id. -/
def requestAutonomyDispatch (db : Db) (uuid : Nat) (inst : Option RAppInstance)
    (body : CreateAutonomyDispatchRequest) : Except Failure Db := do
  match inst with
  | none => refuse .rappInstanceNotFound "no such RAppInstance"
  | some inst =>
    match db.functions.find? (·.rmihId = body.rmihId) with
    | none => refuse .intentHandlingFunctionNotFound "no such intent handling function"
    | some fn =>
      validateRmihCanHandle fn (requestedExpectationObjectTypes body.expectations)
        body.intentHandlingScope
      let dispatch : AutonomyDispatch :=
        { dispatchId := uuid
          instanceId := body.instanceId
          autonomyMode := inst.autonomyMode
          expectations := body.expectations
          priority := body.priority
          rmihId := body.rmihId
          intentMgmtPurpose := some body.intentMgmtPurpose
          intentHandlingScope := body.intentHandlingScope
          status := .shadowed }
      if inst.autonomyMode = "AUTONOMOUS" then
        let dispatch := { dispatch with regionScope := inst.regionScope }
        let request ← dispatchIntentRequest repr families dispatch body.userLabel
        let rows ← createIntentRow db uuid request
        return { db.insert rows with
          dispatches := db.dispatches ++
            [{ dispatch with status := .dispatched, intentId := some uuid }] }
      else if inst.autonomyMode = "ASSIST" then
        let dispatch := { dispatch with status := .awaitingScope }
        return { db with dispatches := db.dispatches ++ [dispatch] }
      else return { db with dispatches := db.dispatches ++ [dispatch] }

/-- The first part of both answers of an operator: the dispatch must await its scope. -/
def awaitingDispatch (db : Db) (dispatchId : Nat) (answer : String) :
    Except Failure AutonomyDispatch :=
  match db.dispatch dispatchId with
  | none => refuse .autonomyDispatchNotFound "no such autonomy dispatch"
  | some dispatch =>
    let status := dispatch.status.name
    if dispatch.status ≠ .awaitingScope then
      refuse .autonomyDispatchNotAwaitingScope s!"cannot {answer} a dispatch in status {status}"
    else .ok dispatch

/-- The intent of `resolve_autonomy_dispatch`, made from the row it has read. -/
def resolvedIntent (db : Db) (uuid : Nat) (dispatch : AutonomyDispatch)
    (regionScope : RegionScope) : Except Failure (Intent × IntentReport) := do
  let dispatch := { dispatch with regionScope := some regionScope }
  let request ← dispatchIntentRequest repr families dispatch none
  createIntentRow db uuid request

def AutonomyDispatch.resolved (regionScope : RegionScope) (intentId : Nat) (row : AutonomyDispatch) :
    AutonomyDispatch :=
  { row with regionScope := some regionScope, status := .dispatched, intentId := some intentId }

def AutonomyDispatch.rejected (rejectedBy : String) (reason : Option String)
    (row : AutonomyDispatch) : AutonomyDispatch :=
  { row with status := .rejected, rejectedBy := some rejectedBy, rejectionReason := reason }

/-- What `resolve_autonomy_dispatch` commits. -/
def commitResolved (db : Db) (dispatchId : Nat) (regionScope : RegionScope)
    (rows : Intent × IntentReport) : Db :=
  (db.insert rows).updateDispatch dispatchId (.resolved regionScope rows.1.intentId)

/-- What `reject_autonomy_dispatch` commits. -/
def commitRejected (db : Db) (dispatchId : Nat) (rejectedBy : String) (reason : Option String) :
    Db :=
  db.updateDispatch dispatchId (.rejected rejectedBy reason)

/-- `POST /autonomy-dispatches/{dispatch_id}/resolve`. -/
def resolveAutonomyDispatch (db : Db) (uuid dispatchId : Nat) (regionScope : RegionScope) :
    Except Failure Db := do
  let dispatch ← awaitingDispatch db dispatchId "resolve"
  let rows ← resolvedIntent repr families db uuid dispatch regionScope
  return commitResolved db dispatchId regionScope rows

/-- `POST /autonomy-dispatches/{dispatch_id}/reject`. -/
def rejectAutonomyDispatch (db : Db) (dispatchId : Nat) (rejectedBy : String)
    (reason : Option String) : Except Failure Db := do
  let _ ← awaitingDispatch db dispatchId "reject"
  return commitRejected db dispatchId rejectedBy reason

end Routes

end Smo.IntentService
