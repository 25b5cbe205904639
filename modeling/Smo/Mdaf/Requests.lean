import Mathlib.Data.Multiset.Bind
import Smo.Lib.Table
import Smo.Mdaf.Thresholds

/-! The requests of MDAF (`mdaf/app/mda.py`): which reports satisfy a request, and the deliveries and the
threshold state that publishes commit, any number of them at once. -/
namespace Smo.Mdaf

/-- A value of an output element, each kind with its `str()`. -/
inductive IEValue (V : Type)
  | null
  | number (value : V) (text : String)
  | predictions (pmPredictions : List (String × V × String)) (text : String)
  | other (text : String)

namespace IEValue

variable {V : Type}

def text : IEValue V → String
  | .null => "None"
  | .number _ text => text
  | .predictions _ text => text
  | .other text => text

def isNull : IEValue V → Bool
  | .null => true
  | _ => false

def number? : IEValue V → Option V
  | .number value _ => some value
  | _ => none

end IEValue

structure MDAOutput (V : Type) where
  mDAType : String
  mDAOutputList : List (String × IEValue V)

abbrev Values (V : Type) := String → Option (IEValue V)

structure Report (V : Type) where
  mDAOutputs : List (MDAOutput V)
  managedEntitiesScope : Option (List String)

structure MDAOutputIEFilter (V : Type) where
  mDAOutputIEName : String
  filterValue : Option String
  threshold : List (ThresholdInfo V)
  timeOut : Option Nat

structure MDAOutputs (V : Type) where
  mDAType : String
  mDAOutputIEFilters : List (MDAOutputIEFilter V)

structure MDARequest (V : Type) where
  startTime : Option Nat
  stopTime : Option Nat
  managedEntitiesScope : List String
  requestedMDAOutputs : List (MDAOutputs V)

section Flat

variable {V : Type}

def written (values : Values V) (entries : List (String × IEValue V)) : Values V :=
  entries.foldl (fun values (name, value) => Function.update values name (some value)) values

def pmPredictions : String := "pmPredictions"

def flat (item : MDAOutput V) : Values V :=
  let values := written (fun _ => none) item.mDAOutputList
  match values pmPredictions with
  | some (.predictions predicted _) =>
    written values (predicted.map fun (name, value, text) => (name, .number value text))
  | _ => values

/-- `_flat_entries`: the outputs of one type are merged, later values win. -/
def flatEntries (report : Report V) : String → Option (Values V) :=
  report.mDAOutputs.foldl (fun out item =>
    let before := (out item.mDAType).getD fun _ => none
    Function.update out item.mDAType (some fun name => (flat item name).or (before name)))
    fun _ => none

end Flat

variable {V : Type} [LinearOrder V] (numbers : Arithmetic V)

/-- `_is_active`. -/
def MDARequest.isActive (request : MDARequest V) (now : Nat) : Bool :=
  request.startTime.all (· ≤ now) && request.stopTime.all (now < ·)

def MDARequest.outOfScope (request : MDARequest V) (report : Report V) : Bool :=
  request.managedEntitiesScope ≠ [] && report.managedEntitiesScope.any fun reported =>
    request.managedEntitiesScope.all (· ∉ reported)

/-- How far the filters of an output are: whether none failed, whether a threshold holds the output back,
and the sides to be stored. -/
structure Progress where
  ok : Bool
  gated : Bool
  state : Sides

def gate (value : IEValue V) (progress : Progress) (threshold : ThresholdInfo V) : Progress :=
  match value.number? with
  | some number =>
    let (crossed, state) := thresholdCrossed numbers progress.state threshold number
    { progress with gated := !crossed, state }
  | none => { progress with gated := true }

def MDAOutputIEFilter.timedOut (filter : MDAOutputIEFilter V) (now : Nat) : Bool :=
  filter.timeOut.any (· ≤ now)

def MDAOutputIEFilter.value (filter : MDAOutputIEFilter V) (values : Values V) : IEValue V :=
  (values filter.mDAOutputIEName).getD .null

def MDAOutputIEFilter.differs (filter : MDAOutputIEFilter V) (values : Values V) : Bool :=
  filter.filterValue.any ((filter.value values).text ≠ ·)

def passes (values : Values V) (now : Nat) : Progress → List (MDAOutputIEFilter V) → Progress
  | progress, [] => progress
  | progress, filter :: rest =>
    if filter.timedOut now then { progress with ok := false }
    else if filter.differs values then { progress with ok := false }
    else passes values now (filter.threshold.foldl (gate numbers (filter.value values)) progress) rest

/-- `_request_matches`: one pass of its loop. -/
def matchOne (entries : String → Option (Values V)) (now : Nat) (so : Bool × Sides)
    (wanted : MDAOutputs V) : Bool × Sides :=
  match entries wanted.mDAType with
  | none => so
  | some values =>
    let after := passes numbers values now ⟨true, false, so.2⟩ wanted.mDAOutputIEFilters
    (so.1 || (after.ok && !after.gated), after.state)

def sidesOf (stored : Option Sides) : Sides := stored.getD fun _ => none

/-- `_request_matches`: the verdict, and `request.threshold_state` after it. -/
def requestMatches (request : MDARequest V) (report : Report V) (now : Nat) (stored : Option Sides) :
    Bool × Option Sides :=
  if !request.isActive now then (false, stored)
  else if request.outOfScope report then (false, stored)
  else
    let (matched, state) := request.requestedMDAOutputs.foldl (matchOne numbers (flatEntries report) now)
      (false, sidesOf stored)
    (matched, some state)

def MDARequest.monitored (request : MDARequest V) : List String :=
  request.requestedMDAOutputs.flatMap fun wanted =>
    wanted.mDAOutputIEFilters.flatMap fun filter => filter.threshold.map (·.monitoredMDAOutputIE)

/-- The column is written when the value that is to be stored is not the one that was read. -/
def MDARequest.changed (request : MDARequest V) : Option Sides → Option Sides → Bool
  | _, none => false
  | none, some _ => true
  | some seen, some state => request.monitored.any fun ie => state ie ≠ seen ie

/-- A publish of a report: asked, then with what it read and is to commit, then committed. -/
inductive Publish (V : Type)
  | asked (report : Report V)
  | read (report : Report V) (now : Nat) (seen : Option Sides) (verdict : Bool)
    (state : Option Sides)
  | committed (report : Report V) (now : Nat) (seen : Option Sides) (verdict : Bool)

/-- An open request's row, its deliveries by the publish that made them, and the publishes. -/
structure RequestRow (V : Type) where
  thresholdState : Option Sides := none
  deliveries : List Nat := []
  publishes : List (Publish V) := []

inductive PublishAct (V : Type)
  | ask (report : Report V)
  | read (i now : Nat)
  | commit (i : Nat)

namespace RequestRow

variable (request : MDARequest V)

def act (s : RequestRow V) : PublishAct V → Option (RequestRow V)
  | .ask report => some { s with publishes := s.publishes ++ [.asked report] }
  | .read i now =>
    match s.publishes[i]? with
    | some (.asked report) =>
      let (verdict, state) := requestMatches numbers request report now s.thresholdState
      some { s with publishes := s.publishes.set i (.read report now s.thresholdState verdict state) }
    | _ => none
  | .commit i =>
    match s.publishes[i]? with
    | some (.read report now seen verdict state) =>
      some {
        publishes := s.publishes.set i (.committed report now seen verdict)
        deliveries := if verdict then s.deliveries ++ [i] else s.deliveries
        thresholdState := if request.changed seen state then state else s.thresholdState }
    | _ => none

def Step (s : RequestRow V) (a : PublishAct V) (s' : RequestRow V) : Prop :=
  s.act numbers request a = some s'

end RequestRow

end Smo.Mdaf
