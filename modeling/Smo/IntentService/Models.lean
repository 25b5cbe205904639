import Smo.IntentService.Expectations
import Smo.Shared.Errors

/-! The rows of the intent service (`intent-service/app/models.py`) and the bodies of its
requests, without what is only shown, sent or measured. An id is a number drawn once. -/
namespace Smo.IntentService

open Json (Text Value)

inductive IntentMgmtPurpose where
  | feasibilityCheck | feasibilityCheckWithRecommendations | fulfilmentWithoutNegotiation
  | exploration | fulfilmentWithNegotiation
  deriving DecidableEq, Repr

inductive NegotiationFunctionality where
  | feasibilityCheck | exploration | fulfilmentWithNegotiation
  deriving DecidableEq, Repr

inductive IntentHandlingScope where
  | ran | cn
  deriving DecidableEq, Repr

inductive IntentAdminState where
  | activated | deactivated
  deriving DecidableEq, Repr

inductive FulfilmentStatus where
  | fulfilled | notFulfilled
  deriving DecidableEq, Repr

inductive NotFulfilledState where
  | received | degraded | suspended | terminated
  deriving DecidableEq, Repr

structure FulfilmentInfo where
  fulfilmentStatus : FulfilmentStatus
  notFulfilledState : NotFulfilledState

structure ExpectationFulfilmentResult where
  expectationId : Text
  expectationFulfilmentInfo : FulfilmentInfo
  targetFulfilmentResults : List (Text × FulfilmentInfo)

structure IntentFulfilmentReport where
  intentFulfilmentInfo : FulfilmentInfo
  expectationFulfilmentResult : List ExpectationFulfilmentResult

/-- A report of type `TARGET_CONFLICT`; it always recommends `MODIFY`. -/
structure IntentConflictReport where
  conflictingIntent : Nat
  conflictingExpectation : Text
  conflictingTarget : Text

structure InFeasibleExpectationInfo where
  expectationId : Text
  inFeasibleTargets : List Text
  deriving DecidableEq

structure IntentReport where
  id : Nat
  intentId : Nat
  intentFulfilmentReport : Option IntentFulfilmentReport := none
  intentConflictReports : Option (List IntentConflictReport) := none
  intentFeasibilityCheckReport : Option (List InFeasibleExpectationInfo) := none

structure Intent where
  intentId : Nat
  userLabel : String
  intentExpectations : List (IntentExpectation Text)
  intentMgmtPurpose : IntentMgmtPurpose
  intentAdminState : IntentAdminState
  intentPriority : Nat
  rmioId : String
  rmihId : String
  intentUtilityFormulaId : Option Nat
  intentReportReference : Option Nat := none
  fulfilled : Option Bool := none
  inConflict : Option Bool := none

structure SupportedExpectationTargetInfo where
  supportedTargetName : Text
  supportedTargetCondition : Option Condition := none

structure IntentHandlingCapability where
  supportedExpectationObjectType : ObjectType
  supportedExpectationTargetInfoList : List SupportedExpectationTargetInfo

structure IntentHandlingFunction where
  rmihId : String
  intentHandlingCapabilityList : List IntentHandlingCapability
  intentHandlingScope : List IntentHandlingScope := []
  supportedNegotiationFunctionalities : List NegotiationFunctionality := []

inductive DispatchStatus where
  | awaitingScope | dispatched | shadowed | rejected
  deriving DecidableEq, Repr

def DispatchStatus.name : DispatchStatus → String
  | awaitingScope => "AWAITING_SCOPE"
  | dispatched => "DISPATCHED"
  | shadowed => "SHADOWED"
  | rejected => "REJECTED"

abbrev RegionScope := List (Text × Value)

structure AutonomyDispatch where
  dispatchId : Nat
  instanceId : String
  autonomyMode : String
  expectations : List (IntentExpectation Text)
  priority : Nat
  rmihId : String
  intentMgmtPurpose : Option IntentMgmtPurpose
  intentHandlingScope : Option IntentHandlingScope
  regionScope : Option RegionScope := none
  status : DispatchStatus
  rejectedBy : Option String := none
  rejectionReason : Option String := none
  intentId : Option Nat := none

structure CreateIntentRequest where
  userLabel : String
  intentExpectations : List (IntentExpectation Text)
  intentMgmtPurpose : IntentMgmtPurpose := .fulfilmentWithoutNegotiation
  intentAdminState : IntentAdminState := .activated
  intentPriority : Nat := 1
  intentUtilityFormulaRef : Option Nat := none
  rmihId : String
  rmioId : String := ""
  intentHandlingScope : Option IntentHandlingScope := none

structure CreateAutonomyDispatchRequest where
  instanceId : String
  expectations : List (IntentExpectation Text)
  priority : Nat := 1
  rmihId : String
  intentMgmtPurpose : IntentMgmtPurpose := .fulfilmentWithoutNegotiation
  intentHandlingScope : Option IntentHandlingScope := none
  userLabel : Option String := none

structure Db where
  functions : List IntentHandlingFunction := []
  formulas : List Nat := []
  intents : List Intent := []
  reports : List IntentReport := []
  dispatches : List AutonomyDispatch := []

namespace Db

def intent (db : Db) (intentId : Nat) : Option Intent := db.intents.find? (·.intentId = intentId)

def dispatch (db : Db) (dispatchId : Nat) : Option AutonomyDispatch :=
  db.dispatches.find? (·.dispatchId = dispatchId)

def updateDispatch (db : Db) (dispatchId : Nat)
    (change : AutonomyDispatch → AutonomyDispatch) : Db :=
  { db with dispatches := db.dispatches.map fun row =>
      if row.dispatchId = dispatchId then change row else row }

def updateIntent (db : Db) (intentId : Nat) (change : Intent → Intent) : Db :=
  { db with intents := db.intents.map fun row =>
      if row.intentId = intentId then change row else row }

/-- The rows that `_create_intent_row` adds. -/
def insert (db : Db) (row : Intent × IntentReport) : Db :=
  { db with intents := db.intents ++ [row.1], reports := db.reports ++ [row.2] }

end Db

/-- Why a request fails: an error answer, or an exception that nothing translates (500). -/
inductive Failure where
  | refused (problem : Problem)
  | keyError
  | typeError
  | validationError

def refuse {α : Type} (error : FrameworkError) (detail : String) : Except Failure α :=
  .error (.refused ⟨error, detail⟩)

end Smo.IntentService
