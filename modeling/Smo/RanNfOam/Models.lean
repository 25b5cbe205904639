import Smo.RanNfOam.StateMachine
import Smo.Shared.Scope

/-! Rows shared by the flows of RAN NF OAM (`app/models.py`, `app/scoping.py`): the
registry of managed elements and the alarms. A time is a count of microseconds. -/
namespace Smo.RanNfOam

abbrev Time := Nat

def seconds (n : Nat) : Time := n * 1000000

inductive EndpointHealth where
  | discovered | active | degraded | unreachable
  deriving DecidableEq, Repr

/-- A registered O1 adaptor; `candidate` is whether its URI asks for the candidate
datastore. -/
structure O1AdaptorEndpoint where
  adaptorUri : String
  transport : String := "http-mock"
  candidate : Bool := false
  healthStatus : EndpointHealth := .active
  lastHeartbeatAt : Option Time := none
  deriving DecidableEq, Repr

/-- A managed element with its O1 adaptor; `services` is what `effective_services`
answers for it. -/
structure ManagedEntity where
  managedElementRef : String
  entityType : String
  vendorName : Option String := none
  region : Option String := none
  tenant : Option String := none
  services : Option (List String) := none
  o1Protocol : String := "NETCONF"
  endpoint : Option O1AdaptorEndpoint := none
  deriving DecidableEq, Repr

structure Registry where
  rows : List ManagedEntity := []
  keyed : (rows.map (·.managedElementRef)).Nodup := by decide

namespace Registry

def get? (registry : Registry) (ref : String) : Option ManagedEntity :=
  registry.rows.find? (·.managedElementRef = ref)

/-- The services of an element; `none` is unchecked. -/
def effectiveServices (registry : Registry) (ref : String) : Option (List String) :=
  (registry.get? ref).bind (·.services)

end Registry

inductive Severity where
  | critical | major | minor | warning | indeterminate | cleared
  deriving DecidableEq, Repr

structure Alarm where
  managedElementRef : String
  severity : Severity
  raisedAt : Time
  deriving DecidableEq, Repr

/-- The references the caller may not touch: not registered, or outside its claim. -/
def deniedRefs (registry : Registry) (scope : Option Scope) (refs : List String) : List String :=
  if scope.isNone then []
  else refs.eraseDups.filter fun ref =>
    match registry.get? ref with
    | none => true
    | some row => !permits scope row.region row.tenant

def elementPermitted (registry : Registry) (scope : Option Scope) (ref : String) : Bool :=
  match scope, registry.get? ref with
  | none, _ => true
  | some _, none => false
  | some claim, some row => permits (some claim) row.region row.tenant

end Smo.RanNfOam
