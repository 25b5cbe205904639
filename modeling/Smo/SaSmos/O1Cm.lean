import Smo.Lib.Runs

/-! The O1-CM intent handler of SA SMOS (`sa-smos/app/o1cm.py`): what a push of an intent writes through
DME's action mediation, and what its report says of the intent's targets. -/
namespace Smo.SaSmos.O1Cm

/-- A value in a context: a null, an object with the fields the handler reads (each may be null), or
any other value. -/
inductive Item (V : Type)
  | null
  | object (cellLocalId nCI id : Option (Option V))
  | plain (value : V)
  deriving DecidableEq

inductive ValueRange (V : Type)
  | list (items : List (Item V))
  | single (item : Item V)
  deriving DecidableEq

structure ObjectContext (V : Type) where
  contextAttribute : String
  contextValueRange : ValueRange V
  deriving DecidableEq

structure ExpectationTarget (V : Type) where
  targetName : String
  targetCondition : String
  targetValueRange : V
  deriving DecidableEq

structure Expectation (V : Type) where
  expectationId : String
  objectInstance : Option String
  objectContexts : List (ObjectContext V)
  expectationTargets : List (ExpectationTarget V)
  deriving DecidableEq

structure Intent (V : Type) where
  intentId : String
  rmihId : String
  activated : Bool
  intentExpectations : List (Expectation V)

structure Change (V : Type) where
  managedElementRef : String
  className : String
  attributeChanges : String × V
  managedFunctionRef : Option String
  deriving DecidableEq

inductive Reason
  | notATarget
  | notEqualTo
  | notAllowed (allowed : List String)
  | noElement
  deriving DecidableEq

structure Unsupported where
  expectationId : String
  targetName : String
  reason : Reason
  deriving DecidableEq

/-- `str()` of a JSON value, the string a JSON value is, `uuid5` of an action's name, and `repr` of a
list of strings. -/
structure Service (V : Type) where
  str : V → String
  text? : V → Option String
  uuid5 : String → String
  reprList : List String → String

def rmihId : String := "sa-smos"

variable {V : Type} (service : Service V)

def Reason.text : Reason → String
  | notATarget => "not a CM target of this handler"
  | notEqualTo => "CM targets are set with IS_EQUAL_TO"
  | notAllowed allowed => "value must be one of " ++ service.reprList allowed
  | noElement => "expectationObject.objectInstance (the managed element) is required"

/-- `v.get("cellLocalId", v.get("nCI", v.get("id")))` of an object, and its text. -/
def Item.cell? : Item V → Option String
  | .null => none
  | .object cellLocalId nCI id => ((cellLocalId.or (nCI.or id)).getD none).map service.str
  | .plain value => some (service.str value)

def ValueRange.items : ValueRange V → List (Item V)
  | .list items => items
  | .single item => [item]

/-- `_cells`. -/
def cells (expectation : Expectation V) : List String :=
  (expectation.objectContexts.filter (·.contextAttribute = "Cell")).flatMap fun context =>
    context.contextValueRange.items.filterMap (Item.cell? service)

def reason? (cmTargets : List (String × List String)) (element : Option String)
    (target : ExpectationTarget V) : Option Reason :=
  match cmTargets.lookup target.targetName with
  | none => some .notATarget
  | some allowed =>
    if target.targetCondition ≠ "IS_EQUAL_TO" then some .notEqualTo
    else if allowed ≠ [] ∧ (service.text? target.targetValueRange).all (· ∉ allowed) then
      some (.notAllowed allowed)
    else if element.all (· = "") then some .noElement
    else none

/-- `name.split(".", 1)`, which is to give two parts. -/
def split? (name : String) : Option (String × String) :=
  let chars := name.toList
  if '.' ∈ chars then
    some (String.ofList (chars.takeWhile (· ≠ '.')), String.ofList ((chars.dropWhile (· ≠ '.')).drop 1))
  else none

/-- The changes of a supported target: one for each cell, or one for the managed element. -/
def changesOf (expectation : Expectation V) (target : ExpectationTarget V) : List (Change V) :=
  match split? target.targetName with
  | none => []
  | some (ioc, attr) =>
    let change (ref : Option String) : Change V :=
      ⟨expectation.objectInstance.getD "", ioc, (attr, target.targetValueRange), ref⟩
    match cells service expectation with
    | [] => [change none]
    | cells => cells.map fun cell => change (some (ioc ++ "=" ++ cell))

section Enact

variable (cmTargets : List (String × List String)) (expectation : Expectation V)

def supported : List (ExpectationTarget V) :=
  expectation.expectationTargets.filter fun target =>
    (reason? service cmTargets expectation.objectInstance target).isNone

/-- `_changes_for`. -/
def changesFor : List (Change V) × List Unsupported :=
  ((supported service cmTargets expectation).flatMap (changesOf service expectation),
    expectation.expectationTargets.filterMap fun target =>
      (reason? service cmTargets expectation.objectInstance target).map fun reason =>
        ⟨expectation.expectationId, target.targetName, reason⟩)

/-- A supported target whose name has no `.` makes `_changes_for` raise. -/
def raises : Bool :=
  (supported service cmTargets expectation).any fun target => (split? target.targetName).isNone

end Enact

structure Execution (V : Type) where
  actionId : String
  changes : List (Change V)
  status : String
  deriving DecidableEq

/-- How DME takes an action: it is executed if its id is new, and answered with a code; it is refused,
or not reached; or the call raises, after it was executed or not. -/
inductive Outcome
  | executes (code : Nat) (status : String)
  | refuses (code : Nat)
  | raises (status : Option String)
  deriving DecidableEq

structure Answer where
  code : Nat
  status : Option String := none
  originalStatus : Option String := none
  deriving DecidableEq

/-- `POST /dme/actions`: an action id is executed at most once, and a replay is answered with `IGNORED`
and the first status; nothing for a call that raises. -/
def post (dme : List (Execution V)) (actionId : String) (changes : List (Change V)) :
    Outcome → List (Execution V) × Option Answer
  | .refuses code => (dme, some { code })
  | .executes code status =>
    match dme.find? (·.actionId = actionId) with
    | some first => (dme, some ⟨200, some "IGNORED", some first.status⟩)
    | none => (dme ++ [⟨actionId, changes, status⟩], some ⟨code, some status, none⟩)
  | .raises status =>
    match dme.find? (·.actionId = actionId), status with
    | none, some status => (dme ++ [⟨actionId, changes, status⟩], none)
    | _, _ => (dme, none)

def Answer.read (answer : Answer) : Option String :=
  if answer.code = 200 ∨ answer.code = 202 then
    if answer.status = some "IGNORED" then answer.originalStatus else answer.status
  else some ("HTTP_" ++ answer.code.repr)

structure ActionInfo where
  expectationId : String
  status : Option String
  replayed : Bool
  deriving DecidableEq

structure TargetResult (V : Type) where
  targetName : String
  fulfilled : Bool
  achieved : Option V
  deriving DecidableEq

structure ExpectationResult (V : Type) where
  expectationId : String
  fulfilled : Bool
  targets : List (TargetResult V)
  deriving DecidableEq

structure Report (V : Type) where
  intentId : String
  fulfilled : Bool
  expectations : List (ExpectationResult V)
  actions : List ActionInfo
  unsupported : List Unsupported
  deriving DecidableEq

def successStatus : String := "COMPLETED"

/-- The result of an expectation, by whether its action was applied and its unsupported targets. -/
def resultOf (expectation : Expectation V) (applied : Bool) (bad : List Unsupported) :
    ExpectationResult V where
  expectationId := expectation.expectationId
  fulfilled := applied && bad.isEmpty
  targets := expectation.expectationTargets.map fun target =>
    let fulfilled := applied && !bad.any (·.targetName = target.targetName)
    ⟨target.targetName, fulfilled, if fulfilled then some target.targetValueRange else none⟩

def actionId (intentId : String) (expectation : Expectation V) : String :=
  service.uuid5 (intentId ++ ":" ++ expectation.expectationId)

structure Progress (V : Type) where
  dme : List (Execution V)
  report : Report V

/-- One expectation: its changes are posted, and its result is added; nothing more if something raises. -/
def enactOne (intentId : String) (cmTargets : List (String × List String)) (progress : Progress V)
    (expectation : Expectation V) (outcome : Outcome) : List (Execution V) × Option (Progress V) :=
  let (changes, bad) := changesFor service cmTargets expectation
  let report := { progress.report with unsupported := progress.report.unsupported ++ bad }
  if raises service cmTargets expectation then (progress.dme, none)
  else if changes.isEmpty then
    (progress.dme, some ⟨progress.dme, { report with
      expectations := report.expectations ++ [resultOf expectation false bad] }⟩)
  else
    match post progress.dme (actionId service intentId expectation) changes outcome with
    | (dme, none) => (dme, none)
    | (dme, some answer) =>
      let info : ActionInfo := ⟨expectation.expectationId, answer.read,
        (answer.code = 200 || answer.code = 202) && answer.status = some "IGNORED"⟩
      (dme, some ⟨dme, { report with
        actions := report.actions ++ [info]
        expectations := report.expectations ++
          [resultOf expectation (answer.read = some successStatus) bad] }⟩)

def enact (intentId : String) (cmTargets : List (String × List String)) (progress : Progress V) :
    List (Expectation V × Outcome) → List (Execution V) × Option (Report V)
  | [] => (progress.dme, some { progress.report with
      fulfilled := progress.report.expectations.all (·.fulfilled) })
  | (expectation, outcome) :: rest =>
    match enactOne service intentId cmTargets progress expectation outcome with
    | (dme, none) => (dme, none)
    | (_, some next) => enact intentId cmTargets next rest

/-- A push of the intent: the targets registered then, and how DME takes each of its actions. -/
structure Push where
  cmTargets : List (String × List String)
  outcomes : List Outcome

structure State (V : Type) where
  dme : List (Execution V) := []
  reports : List (Report V) := []

/-- `enact_intent`. -/
def push (intent : Intent V) (s : State V) (a : Push) : State V :=
  if intent.rmihId ≠ rmihId ∨ intent.activated = false then s
  else
    let (dme, report) := enact service intent.intentId a.cmTargets
      ⟨s.dme, ⟨intent.intentId, false, [], [], []⟩⟩ (intent.intentExpectations.zip a.outcomes)
    { dme, reports := s.reports ++ report.toList }

def Step (intent : Intent V) (s : State V) (a : Push) (s' : State V) : Prop :=
  a.outcomes.length = intent.intentExpectations.length ∧ push service intent s a = s'

end Smo.SaSmos.O1Cm
