import Smo.Lib.Runs
import Smo.Lib.Table
import Smo.Shared.StateMachine

/-! The application packages and their usage registrations (`onboarding/app/main.py`), with any number
of requests at once: each reads, asks the guard of its transition, and commits. The row of a package
has a version, that of a registration has none. -/
namespace Smo.Onboarding

inductive PackageState
  | onboarding
  | available
  | priming
  | primed
  | depriming
  | deprecated
  | deleting
  | failed
  deriving DecidableEq

inductive PackageEvent
  | validateOk
  | validateFailed
  | prime
  | primeComplete
  | deprime
  | deprimeComplete
  | deprecate
  | cancelDelete
  | delete
  deriving DecidableEq

/-- `build_onboarding_fsm`, without the guards. -/
def onboardingFsm : StateMachine PackageState PackageEvent :=
  StateMachine.add (S := PackageState) (E := PackageEvent) {} .onboarding .validateOk .available
    |>.add .onboarding .validateFailed .failed
    |>.add .available .prime .priming
    |>.add .priming .primeComplete .primed
    |>.add .primed .deprime .depriming
    |>.add .depriming .deprimeComplete .available
    |>.add .available .deprecate .deprecated
    |>.add .deprecated .cancelDelete .available
    |>.add .deprecated .delete .deleting
    |>.add .available .delete .deleting

inductive Guard
  | noActiveInstances
  | noBlockingDependents
  deriving DecidableEq

def guardOf : PackageEvent → Option Guard
  | .deprime => some .noActiveInstances
  | .delete => some .noBlockingDependents
  | _ => none

structure ApplicationPackage where
  packageId : Nat
  state : PackageState := .onboarding
  parentPackageId : Option Nat := none
  integrityHash : Option String := none
  rowVersion : Nat := 1
  deriving DecidableEq

structure PackageUsageRegistration where
  packageId : Nat
  consumerId : String
  stopped : Bool := false
  deriving DecidableEq

inductive Route
  | deprecate
  | prime
  | deprime
  | cancelDelete
  | delete
  deriving DecidableEq

def Route.events : Route → PackageEvent × Option PackageEvent
  | .deprecate => (.deprecate, none)
  | prime => (.prime, some .primeComplete)
  | deprime => (.deprime, some .deprimeComplete)
  | cancelDelete => (.cancelDelete, none)
  | delete => (.delete, none)

/-- The state a route leads to and the guard it asks first, `none` where the table has no such
transition. -/
def Route.leads (route : Route) (state : PackageState) : Option (Option Guard × PackageState) :=
  match onboardingFsm.fire state route.events.1 with
  | .error _ => none
  | .ok first =>
    match route.events.2 with
    | none => some (guardOf route.events.1, first)
    | some event =>
      match onboardingFsm.fire first event with
      | .error _ => none
      | .ok last => some (guardOf route.events.1, last)

/-- What the fetch and the checks of a package make of it: its hash, and whether the NFO makes its
descriptor, or nothing. -/
structure Checked where
  integrityHash : String
  described : Bool
  deriving DecidableEq

inductive Request
  | onboard (checked : Option Checked)
  | move (route : Route) (packageId : Nat)
  | start (packageId : Nat) (consumerId : String)
  | stop (packageId registration : Nat)
  deriving DecidableEq

inductive Refusal
  | packageNotFound
  | registrationNotFound
  | serviceNameConflict
  | illegalTransition
  deriving DecidableEq

def Refusal.problem : Refusal → Nat × String
  | packageNotFound => (404, "PACKAGE_NOT_FOUND")
  | registrationNotFound => (404, "PACKAGE_USAGE_REGISTRATION_NOT_FOUND")
  | serviceNameConflict => (409, "SERVICE_NAME_CONFLICT")
  | illegalTransition => (409, "LIFECYCLE_ILLEGAL_TRANSITION")

inductive Answer
  | done
  | refused (refusal : Refusal)
  | failed
  deriving DecidableEq

/-- A package as a request read it, with the state to write, `none` to remove the row. -/
structure Loaded where
  packageId : Nat
  rowVersion : Nat
  state : PackageState
  next : Option PackageState
  deriving DecidableEq

/-- How far a request is. `stored` lists the packages with the same hash when an onboarding looked,
`known` counts the registrations of the package when its guard did. -/
inductive Stage
  | asked (request : Request)
  | inserted (packageId : Nat) (checked : Option Checked)
  | storing (packageId : Nat) (state : PackageState) (integrityHash : Option String)
      (stored : List Nat)
  | guarding (row : Loaded) (guard : Guard)
  | ready (row : Loaded) (known : Option Nat)
  | opening (packageId : Nat) (consumerId : String)
  | closing (registration : Nat)
  | answered (answer : Answer)
  deriving DecidableEq

/-- A registration is known by its place; `drawn` is the next package id. -/
structure State where
  packages : List ApplicationPackage := []
  registrations : List PackageUsageRegistration := []
  requests : List Stage := []
  drawn : Nat := 0
  deriving DecidableEq

namespace State

variable (s : State)

def package? (packageId : Nat) : Option ApplicationPackage :=
  Table.get (·.packageId) s.packages packageId

def registrationsOf (packageId : Nat) : List PackageUsageRegistration :=
  s.registrations.filter (·.packageId = packageId)

/-- A registration of the package has no `stopped_at`. -/
def inUse (packageId : Nat) : Bool := (s.registrationsOf packageId).any (!·.stopped)

def allows (packageId : Nat) : Guard → Bool
  | .noActiveInstances => !s.inUse packageId
  | .noBlockingDependents =>
    !(s.packages.any fun child => child.parentPackageId = some packageId &&
        (child.state = .available || child.state = .deprecated)) && !s.inUse packageId

def storedAs (integrityHash : String) : List Nat :=
  (s.packages.filter (·.integrityHash = some integrityHash)).map (·.packageId)

def duplicated (packageId : Nat) (integrityHash : String) : Bool :=
  s.packages.any fun other => other.integrityHash = some integrityHash &&
    other.packageId ≠ packageId && !(other.state = .deleting || other.state = .failed)

def check (packageId : Nat) : Option Checked → Stage
  | none => .storing packageId .failed none []
  | some checked =>
    if s.duplicated packageId checked.integrityHash then .storing packageId .failed none []
    else .storing packageId (if checked.described then .available else .failed)
      (some checked.integrityHash) (s.storedAs checked.integrityHash)

def load : Request → Stage
  | .onboard checked => .inserted s.drawn checked
  | .move route packageId =>
    match s.package? packageId with
    | none => .answered (.refused .packageNotFound)
    | some row =>
      if route = .delete ∧ row.state = .failed then
        .ready ⟨packageId, row.rowVersion, row.state, none⟩ none
      else
        match route.leads row.state with
        | none => .answered (.refused .illegalTransition)
        | some (none, next) => .ready ⟨packageId, row.rowVersion, row.state, some next⟩ none
        | some (some guard, next) =>
          .guarding ⟨packageId, row.rowVersion, row.state, some next⟩ guard
  | .start packageId consumerId =>
    if (s.package? packageId).isSome then .opening packageId consumerId
    else .answered (.refused .packageNotFound)
  | .stop packageId registration =>
    if (s.package? packageId).isNone then .answered (.refused .packageNotFound)
    else if s.registrations[registration]?.any (·.packageId = packageId) then .closing registration
    else .answered (.refused .registrationNotFound)

def at_ (i : Nat) (stage : Stage) : State := { s with requests := s.requests.set i stage }

def writeRow (packageId rowVersion : Nat) (write : ApplicationPackage → ApplicationPackage) :
    Option State :=
  match s.package? packageId with
  | none => none
  | some row =>
    if row.rowVersion = rowVersion then
      some { s with
        packages := Table.modify (·.packageId) s.packages packageId fun _ =>
          { write row with packageId, rowVersion := rowVersion + 1 } }
    else none

/-- What the commit of a request makes of the tables, `none` where the database refuses it. -/
def write : Stage → Option State
  | .storing packageId state integrityHash _ =>
    s.writeRow packageId 1 fun row =>
      { row with state, integrityHash := integrityHash.or row.integrityHash }
  | .ready row _ =>
    match row.next with
    | some next => s.writeRow row.packageId row.rowVersion fun old => { old with state := next }
    | none =>
      if (s.package? row.packageId).any (·.rowVersion = row.rowVersion) ∧
          s.registrationsOf row.packageId = [] then
        some { s with packages := s.packages.filter (·.packageId ≠ row.packageId) }
      else none
  | .opening packageId consumerId =>
    if (s.package? packageId).isSome then
      some { s with registrations := s.registrations ++ [⟨packageId, consumerId, false⟩] }
    else none
  | .closing registration =>
    match s.registrations[registration]? with
    | none => none
    | some row =>
      some { s with registrations := s.registrations.set registration { row with stopped := true } }
  | _ => none

def pending : Stage → Bool
  | .storing .. | .ready .. | .opening .. | .closing _ => true
  | _ => false

end State

inductive Act
  | ask (request : Request)
  | load (i : Nat)
  | check (i : Nat)
  | commit (i : Nat)
  deriving DecidableEq

def Act.of? : Act → Option Nat
  | ask _ => none
  | load i | check i | commit i => some i

namespace State

variable (s : State)

def act : Act → Option State
  | .ask request => some { s with requests := s.requests ++ [.asked request] }
  | .load i =>
    match s.requests[i]? with
    | some (.asked (.onboard checked)) =>
      some { s.at_ i (s.load (.onboard checked)) with
        packages := s.packages ++ [{ packageId := s.drawn }], drawn := s.drawn + 1 }
    | some (.asked request) => some (s.at_ i (s.load request))
    | _ => none
  | .check i =>
    match s.requests[i]? with
    | some (.inserted packageId checked) => some (s.at_ i (s.check packageId checked))
    | some (.guarding row guard) =>
      some (s.at_ i
        (if s.allows row.packageId guard then
          .ready row (some (s.registrationsOf row.packageId).length)
        else .answered (.refused .serviceNameConflict)))
    | _ => none
  | .commit i =>
    match s.requests[i]? with
    | some stage =>
      if pending stage then
        match s.write stage with
        | some next => some (next.at_ i (.answered .done))
        | none => some (s.at_ i (.answered .failed))
      else none
    | none => none

def Step (s : State) (a : Act) (s' : State) : Prop := s.act a = some s'

/-- What a request has looked at has changed since: another package with its bytes was stored, or a
use of its package was opened; or it opens the use of a package that is being deleted. -/
def late : Stage → Bool
  | .storing packageId .available (some integrityHash) stored =>
    (s.storedAs integrityHash).any fun other => other ≠ packageId && other ∉ stored
  | .ready row (some known) => (s.registrationsOf row.packageId).length ≠ known
  | .opening packageId _ => (s.package? packageId).any (·.state = .deleting)
  | _ => false

def lapses : Act → Bool
  | .commit i => s.requests[i]?.any s.late
  | _ => false

end State

end Smo.Onboarding
