import Smo.Lib.Numeral
import Smo.RanNfOam.ConfigJobs.ReplaceUndo

/-! The limits an invoker's manifest sets on what one configuration job may do: how many
elements it touches, and how far it moves a number. -/
namespace Smo.RanNfOam.ConfigObjects

open EditConfig ConfigJobs

def numberOf (text : String) : Option ℚ := Numeral.exact (Str.strip text.toList)

/-- `_number`; an int past the range of the floats raises. -/
def number : Value → Except String (Option ℚ)
  | .null | .bool _ | .nested _ => .ok none
  | .text text => .ok ((numberOf text).bind Numeral.double)
  | .number printed =>
    match numberOf printed with
    | none => .ok none
    | some value =>
      match Numeral.double value with
      | none => .error "OverflowError"
      | some read => .ok (some read)

/-- How far a value moves, in percent of what it was; `none` is an infinite change. -/
def percentOf (current target : ℚ) : Option ℚ :=
  let moved := |target - current|
  if moved = 0 then some 0 else if current = 0 then none else some (moved / |current| * 100)

def exceeds (most : ℚ) (current target : ℚ) : Bool :=
  match percentOf current target with
  | none => true
  | some percent => most < percent

def wantedNumbers (attributes : Attributes) : Except String (List (String × ℚ)) :=
  attributes.foldrM (fun (name, value) wanted =>
    (number value).map fun read => (read.toList.map fun target => (name, target)) ++ wanted) []

def numberProblem (most : ℚ) (ref : String) (current : Attributes) (name : String) (target : ℚ) :
    Option String :=
  match number (valueOf current name) with
  | .error raised => some raised
  | .ok none => some s!"{ref} {name}: its current value cannot be checked against maxChangePercent"
  | .ok (some value) =>
    if exceeds most value target then
      some s!"{ref} {name}: the change is more than maxChangePercent"
    else none

section Check

variable {σ : Type} (o1 : O1Clients σ) (site : Site) (network : σ) (most : ℚ)

/-- The values an element answers of the object a change addresses; no client raises. -/
def currentOf (change : Change) : Except String Attributes :=
  match (site.registry.get? change.managedElementRef).bind fun me => me.endpoint.map (me, ·) with
  | none => .ok []
  | some (me, endpoint) =>
    if o1Client me.o1Protocol = none then .error "TypeError"
    else
      match o1.sendGet network me endpoint change with
      | .values current => .ok current
      | _ => .ok []

def changeProblem (change : Change) : Option String :=
  match wantedNumbers change.attributeChanges with
  | .error raised => some raised
  | .ok [] => none
  | .ok wanted =>
    match currentOf o1 site network change with
    | .error raised => some raised
    | .ok current =>
      wanted.findSome? fun (name, target) =>
        numberProblem most change.managedElementRef current name target

def magnitudeExceeded (changes : List Change) : Option String :=
  changes.findSome? (changeProblem o1 site network most)

end Check

abbrev Percent := {percent : ℚ // 0 < percent}

def limitedSite (site : Site) (data : Datastore) (maxChangePercent : RAppLimit → Option Percent) :
    Site :=
  { site with
    magnitudeExceeded := fun limit changes =>
      (maxChangePercent limit).bind fun most => magnitudeExceeded objectClients site data most changes }

end Smo.RanNfOam.ConfigObjects
