import Smo.Lib.Transaction
import Smo.RanNfOam.ConfigJobs.Models

/-! Sending the sub-changes of one wave: what stops one before it is sent, the retries,
the before images, and the candidate transactions that take several sub-changes of one
element together. The O1 clients are a parameter. -/
namespace Smo.RanNfOam.ConfigJobs

inductive Raised where
  | problem (problem : Problem)
  | job (exc : IllegalTransition JobState JobEvent)
  | badRdn
  | client
  | keyError
  deriving DecidableEq, Repr

structure EditResult where
  applied : Bool
  reason : Option String := none
  detail : Option String := none
  retryable : Bool := false
  deriving DecidableEq, Repr

inductive ReadAnswer where
  | raised (exc : String)
  | failed
  | values (current : Attributes)
  deriving DecidableEq, Repr

/-- The O1 clients over a network in some state; a client that raises answers `none`, and
may have done anything to the network before. -/
structure O1Clients (σ : Type) where
  sendEdit : σ → ManagedEntity → O1AdaptorEndpoint → Change → σ × Option EditResult
  sendEdits : σ → O1AdaptorEndpoint → List Change → σ × Option (List EditResult)
  sendGet : σ → ManagedEntity → O1AdaptorEndpoint → Change → ReadAnswer
  monotonic : σ → Nat
  sleep : σ → Nat → σ

/-- What is outside the database: the network, what was sent to it, and the next unused
job id. -/
structure Wire (σ : Type) where
  network : σ
  sent : List Dispatch := []
  fresh : Nat := 0

abbrev Line (σ : Type) := EStateM Raised (Wire σ)

def o1Client (protocol : String) : Option String :=
  if protocol = "NETCONF" then some "NETCONF_RPC_FAILED"
  else if protocol = "RESTCONF" then some "RESTCONF_REQUEST_FAILED"
  else none

def missedHeartbeatThreshold : Time := seconds 90

/-- `_age_endpoint_health`: an active adaptor that has missed its heartbeats is not. -/
def agedHealth (now : Time) (endpoint : O1AdaptorEndpoint) : EndpointHealth :=
  if endpoint.healthStatus = .active ∧
      endpoint.lastHeartbeatAt.any (fun last => last + missedHeartbeatThreshold < now) then
    .degraded
  else endpoint.healthStatus

def dispatchBlocker (site : Site) (now : Time) (change : Change) :
    Except String (ManagedEntity × O1AdaptorEndpoint) :=
  match site.registry.get? change.managedElementRef with
  | none => .error "ENDPOINT_UNREACHABLE"
  | some me =>
    match me.endpoint with
    | none => .error "ENDPOINT_UNREACHABLE"
    | some endpoint =>
      if agedHealth now endpoint = .unreachable ∨ agedHealth now endpoint = .degraded then
        .error "ENDPOINT_UNREACHABLE"
      else if o1Client me.o1Protocol = none then .error "PROTOCOL_NOT_SUPPORTED"
      else if site.enforceMoTree ∧
          MoTree.targetDn change.managedElementRef.toList
            (change.managedFunctionRef.map (·.toList)) ∉ site.managedObjects then
        .error "MANAGED_OBJECT_NOT_FOUND"
      else .ok (me, endpoint)

def transactionGroupKey : Except String (ManagedEntity × O1AdaptorEndpoint) → Option String
  | .error _ => none
  | .ok (me, endpoint) =>
    if me.o1Protocol = "NETCONF" ∧ (endpoint.transport = "ssh" ∨ endpoint.transport = "tls") ∧
        endpoint.candidate then
      some me.managedElementRef
    else none

structure Outcome where
  before : Option Attributes
  beforeError : Option String
  applied : Bool
  reason : Option String
  attempts : Nat
  detail : Option String
  deriving DecidableEq, Repr

section Sending

variable {σ : Type} (o1 : O1Clients σ) (site : Site) (now : Time)

def captureBefore (network : σ) (me : ManagedEntity) (endpoint : O1AdaptorEndpoint)
    (change : Change) : Option Attributes × Option String :=
  if !site.cmSnapshots then (none, none)
  else
    match o1.sendGet network me endpoint change with
    | .raised exc => (none, some s!"before-image read raised {exc}")
    | .failed => (none, some "before-image read failed")
    | .values current =>
      if change.attributeChanges = [] then (some current, none)
      else (some (change.attributeChanges.map fun (name, _) => (name, valueOf current name)), none)

def record (sent : List Dispatch) : Line σ Unit :=
  modify fun wire => { wire with sent := wire.sent ++ sent }

def budgetSpent (started delay attempts : Nat) (network : σ) : Bool :=
  attempts ≠ 0 && o1.monotonic network - started + delay > site.retryBudget

def sendOnce (me : ManagedEntity) (endpoint : O1AdaptorEndpoint) (change : Change) :
    Line σ EditResult := fun wire =>
  match o1.sendEdit wire.network me endpoint change with
  | (network, some answer) => .ok answer { wire with network }
  | (network, none) => .error .client { wire with network }

def sendGroupOnce (endpoint : O1AdaptorEndpoint) (changes : List Change) :
    Line σ (List EditResult) := fun wire =>
  match o1.sendEdits wire.network endpoint changes with
  | (network, some answers) => .ok answers { wire with network }
  | (network, none) => .error .client { wire with network }

def wait (delay : Nat) : Line σ Unit :=
  modify fun wire => { wire with network := o1.sleep wire.network delay }

/-- The attempts of `_dispatch_with_retries`, one for each delay that is left. -/
def dispatchAttempts (me : ManagedEntity) (endpoint : O1AdaptorEndpoint) (change : Change)
    (started : Nat) :
    List Nat → (attempts : Nat) → (reason detail : Option String) →
      Line σ (Bool × Option String × Nat × Option String)
  | [], attempts, reason, detail => return (false, reason, attempts, detail)
  | delay :: delays, attempts, reason, detail => do
    let wire ← get
    if budgetSpent o1 site started delay attempts wire.network then
      return (false, reason, attempts, detail)
    else do
      wait o1 delay
      let result ← sendOnce o1 me endpoint change
      if result.applied then return (true, none, attempts + 1, none)
      else if !result.retryable then
        return (false, result.reason.or (o1Client me.o1Protocol), attempts + 1, result.detail)
      else
        dispatchAttempts me endpoint change started delays (attempts + 1)
          (result.reason.or (o1Client me.o1Protocol)) result.detail

def groupAttempts (endpoint : O1AdaptorEndpoint) (changes : List Change) (started : Nat) :
    List Nat → (attempts : Nat) → List EditResult → Line σ (List EditResult × Nat)
  | [], attempts, results => return (results, attempts)
  | delay :: delays, attempts, results => do
    let wire ← get
    if budgetSpent o1 site started delay attempts wire.network then return (results, attempts)
    else do
      wait o1 delay
      let results ← sendGroupOnce o1 endpoint changes
      if results.all (·.applied) || !results.any (·.retryable) then
        return (results, attempts + 1)
      else groupAttempts endpoint changes started delays (attempts + 1) results

variable (job : WriteConfigJob)

def dispatchOf (row : WriteConfigSubChange) : Dispatch := ⟨job, row.position, row.wave, now⟩

def dispatchAlone (me : ManagedEntity) (endpoint : O1AdaptorEndpoint)
    (row : WriteConfigSubChange) : Line σ Outcome := do
  let wire ← get
  let before := captureBefore o1 site wire.network me endpoint row.change
  record [dispatchOf now job row]
  let ended ← dispatchAttempts o1 site me endpoint row.change (o1.monotonic wire.network)
    site.retryDelays 0 none none
  return ⟨before.1, before.2, ended.1, ended.2.1, ended.2.2.1, ended.2.2.2⟩

def groupOutcome (before : Option Attributes × Option String) (result : EditResult)
    (attempts : Nat) : Outcome :=
  ⟨before.1, before.2, result.applied,
    if result.applied then none else result.reason.or (some "NETCONF_RPC_FAILED"), attempts,
    if result.applied then none else result.detail⟩

/-- Several sub-changes of one element in one candidate transaction, each outcome under
its place in the wave. -/
def dispatchGroup (me : ManagedEntity) (endpoint : O1AdaptorEndpoint)
    (members : List (WriteConfigSubChange × Nat)) : Line σ (List (Nat × Outcome)) := do
  let wire ← get
  let befores := members.map fun member =>
    captureBefore o1 site wire.network me endpoint member.1.change
  record (members.map fun member => dispatchOf now job member.1)
  let ended ← groupAttempts o1 site endpoint (members.map (·.1.change))
    (o1.monotonic wire.network) site.retryDelays 0 []
  return (members.zip (befores.zip ended.1)).map fun entry =>
    (entry.1.2, groupOutcome entry.2.1 entry.2.2 ended.2)

def settle (row : WriteConfigSubChange) (outcome : Outcome) : WriteConfigSubChange :=
  let removes := row.operation = "delete" ∨ row.operation = "remove"
  { row with
    status := if outcome.applied then .applied else .rejected
    rejectionReason := outcome.reason
    rejectionDetail := outcome.detail
    attempts := outcome.attempts
    snapshot :=
      if site.cmSnapshots then some {
        operation := row.operation
        before := outcome.before
        beforeError := outcome.beforeError
        after := if outcome.applied ∧ ¬removes then some row.attributeChanges else none }
      else row.snapshot }

def dispatchAlarm (row : WriteConfigSubChange) (outcome : Outcome) : List Alarm :=
  if !outcome.applied && outcome.attempts > 1 then [⟨row.managedElementRef, .major, now⟩] else []

abbrev Check := Except String (ManagedEntity × O1AdaptorEndpoint)

def keyed (wave : List (WriteConfigSubChange × Check)) (key : String) :
    List (WriteConfigSubChange × Nat) :=
  (wave.zipIdx.filter fun entry => transactionGroupKey entry.1.2 = some key).map
    fun entry => (entry.1.1, entry.2)

/-- The sub-changes of the wave that share a candidate transaction with one of them. -/
def membersOf (wave : List (WriteConfigSubChange × Check)) (check : Check) :
    List (WriteConfigSubChange × Nat) :=
  match transactionGroupKey check with
  | none => []
  | some key => keyed wave key

def knownOutcomes (me : ManagedEntity) (endpoint : O1AdaptorEndpoint)
    (members : List (WriteConfigSubChange × Nat)) (known : List (Nat × Outcome)) (index : Nat) :
    Line σ (List (Nat × Outcome)) :=
  if (known.lookup index).isSome then return known
  else do
    let outcomes ← dispatchGroup o1 site now job me endpoint members
    return known ++ outcomes

def dispatchRows (wave : List (WriteConfigSubChange × Check)) :
    List (WriteConfigSubChange × Check) → (index : Nat) → List (Nat × Outcome) →
      Line σ (List WriteConfigSubChange × List Alarm)
  | [], _, _ => return ([], [])
  | (row, .error reason) :: rest, index, known => do
    let later ← dispatchRows wave rest (index + 1) known
    return ({ row with status := .rejected, rejectionReason := some reason } :: later.1, later.2)
  | (row, .ok (me, endpoint)) :: rest, index, known =>
    let members := membersOf wave (.ok (me, endpoint))
    if members.length > 1 then do
      let known ← knownOutcomes o1 site now job me endpoint members known index
      match known.lookup index with
      | none => throw .keyError
      | some outcome => do
        let later ← dispatchRows wave rest (index + 1) known
        return (settle site row outcome :: later.1, dispatchAlarm now row outcome ++ later.2)
    else do
      let outcome ← dispatchAlone o1 site now job me endpoint row
      let later ← dispatchRows wave rest (index + 1) known
      return (settle site row outcome :: later.1, dispatchAlarm now row outcome ++ later.2)

def dispatchWave (rows : List WriteConfigSubChange) :
    Line σ (List WriteConfigSubChange × List Alarm) :=
  let wave := rows.map fun row => (row, dispatchBlocker site now row.change)
  dispatchRows o1 site now job wave wave 0 []

end Sending

end Smo.RanNfOam.ConfigJobs
