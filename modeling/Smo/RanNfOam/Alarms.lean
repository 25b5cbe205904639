import Smo.Lib.Runs
import Smo.Lib.Table

/-! The alarm list (`ran-nf-oam/app/main.py`, `alarm_history.py`): VES fault events, ingests,
acknowledgements and clears as READ COMMITTED transactions on alarms without a version, and the
history that each flush writes of what it changed. -/
namespace Smo.RanNfOam.Alarms

inductive Severity
  | critical
  | major
  | minor
  | warning
  | indeterminate
  | cleared
  deriving DecidableEq

inductive AckState
  | acknowledged
  | unacknowledged
  deriving DecidableEq

/-- An alarm; `condition` is its `source_alarm_id`. `ves` is history: a VES event raised it. -/
structure Alarm where
  element : String
  condition : String
  severity : Severity
  ackState : AckState := .unacknowledged
  ackUserId : Option String := none
  clearUserId : Option String := none
  ves : Bool := false
  deriving DecidableEq

inductive Event
  | raised
  | acknowledged
  | unacknowledged
  | cleared
  | severityChanged
  deriving DecidableEq

inductive Change
  | raised (toValue : Severity)
  | ack (fromValue toValue : AckState)
  | severity (fromValue toValue : Severity)
  deriving DecidableEq

def Change.event : Change → Event
  | .raised _ => .raised
  | .ack _ .acknowledged => .acknowledged
  | .ack _ .unacknowledged => .unacknowledged
  | .severity _ .cleared => .cleared
  | .severity _ _ => .severityChanged

structure Entry where
  alarm : Nat
  change : Change
  who : Option String := none
  deriving DecidableEq

/-- `_changed`: the rows that the flush of an alarm writes, from what was loaded and what it is now. -/
def changed (alarm : Nat) (loaded now : Alarm) : List Entry :=
  (if loaded.ackState = now.ackState then []
    else [⟨alarm, .ack loaded.ackState now.ackState, now.ackUserId⟩]) ++
  if loaded.severity = now.severity then []
  else
    [⟨alarm, .severity loaded.severity now.severity,
      if now.severity = .cleared then now.clearUserId else none⟩]

def column {α : Type} [DecidableEq α] (row loaded now : α) : α := if now = loaded then row else now

def flushed (row loaded now : Alarm) : Alarm :=
  { row with
    severity := column row.severity loaded.severity now.severity
    ackState := column row.ackState loaded.ackState now.ackState
    ackUserId := column row.ackUserId loaded.ackUserId now.ackUserId
    clearUserId := column row.clearUserId loaded.clearUserId now.clearUserId }

inductive Request
  | ves (element condition : String) (severity : Option Severity)
  | ingest (element condition : String) (severity : Severity)
  | ack (alarm : Nat) (newState : AckState) (ackUserId : Option String)
  | clear (alarm : Nat) (clearUserId : Option String)
  deriving DecidableEq

inductive Stage
  | begun (request : Request)
  | found (request : Request) (alarm : Nat) (loaded : Alarm)
  | absent (element condition : String) (severity : Severity)
  | ended
  deriving DecidableEq

/-- The alarms in the order they were raised, their history, and the requests. `clears` is history:
the clear events that were committed, with how many alarms there were. -/
structure State where
  alarms : List Alarm := []
  history : List Entry := []
  requests : List Stage := []
  clears : List (String × String × Nat) := []
  deriving DecidableEq

/-- `look` says which of the open alarms of the condition is the latest raised, if there are several. -/
inductive Act
  | arrive (request : Request)
  | look (i : Nat) (alarm : Option Nat)
  | commit (i : Nat)
  deriving DecidableEq

def Alarm.openFor (element condition : String) (alarm : Alarm) : Bool :=
  alarm.element = element && alarm.condition = condition && alarm.severity ≠ .cleared

namespace State

def stage (s : State) (i : Nat) (stage : Stage) : State := { s with requests := s.requests.set i stage }

/-- `_raise_alarm` and the row that the insert writes in the history. -/
def raiseAlarm (s : State) (alarm : Alarm) : State :=
  { s with
    alarms := s.alarms ++ [alarm]
    history := s.history ++ [⟨s.alarms.length, .raised alarm.severity, none⟩] }

def flush (s : State) (alarm : Nat) (loaded now : Alarm) : State :=
  match s.alarms[alarm]? with
  | none => s
  | some row =>
    { s with
      alarms := s.alarms.set alarm (flushed row loaded now)
      history := s.history ++ changed alarm loaded now }

/-- The look-up of a request: `_ves_alarm`'s for the open alarm, `_get_alarm`'s by id. -/
def looked (s : State) (request : Request) (alarm : Option Nat) : Option Stage :=
  match request, alarm with
  | .ves element condition severity, none =>
    if s.alarms.any (·.openFor element condition) then none
    else
      match severity with
      | none => some .ended
      | some severity => some (.absent element condition severity)
  | .ves element condition severity, some j =>
    match s.alarms[j]? with
    | none => none
    | some row =>
      if row.openFor element condition then
        if severity = some row.severity then some .ended else some (.found request j row)
      else none
  | .ingest _ _ _, _ => none
  | .ack j _ _, _ | .clear j _, _ =>
    match s.alarms[j]? with
    | none => some .ended
    | some row => some (.found request j row)

end State

def Request.apply (loaded : Alarm) : Request → Alarm
  | .ves _ _ none => { loaded with severity := .cleared, clearUserId := some "ves" }
  | .ves _ _ (some severity) => { loaded with severity }
  | .ingest _ _ _ => loaded
  | .ack _ newState ackUserId => { loaded with ackState := newState, ackUserId }
  | .clear _ clearUserId => { loaded with severity := .cleared, clearUserId }

def Request.clearEvent : Request → Option (String × String)
  | .ves element condition none => some (element, condition)
  | _ => none

namespace State

def act (s : State) : Act → Option State
  | .arrive request => some { s with requests := s.requests ++ [.begun request] }
  | .look i alarm =>
    match s.requests[i]? with
    | some (.begun request) => (s.looked request alarm).map (s.stage i)
    | _ => none
  | .commit i =>
    match s.requests[i]? with
    | some (.begun (.ingest element condition severity)) =>
      some ((s.raiseAlarm { element, condition, severity }).stage i .ended)
    | some (.absent element condition severity) =>
      some ((s.raiseAlarm { element, condition, severity, ves := true }).stage i .ended)
    | some (.found request j loaded) =>
      let s' := s.flush j loaded (request.apply loaded)
      let clears := request.clearEvent.map fun (element, condition) => (element, condition, s'.alarms.length)
      some ({ s' with clears := s'.clears ++ clears.toList }.stage i .ended)
    | _ => none

def Step (s : State) (label : Act) (s' : State) : Prop := s.act label = some s'

def othersOpen (s : State) (j : Nat) (element condition : String) : Bool :=
  s.alarms.zipIdx.any fun (alarm, k) => k ≠ j && alarm.openFor element condition

def stale (row loaded now : Alarm) : Bool :=
  (now.severity ≠ loaded.severity && row.severity ≠ loaded.severity) ||
    (now.ackState ≠ loaded.ackState && row.ackState ≠ loaded.ackState)

/-- At its commit a raise finds an alarm that another event opened, a change what another request
made of the alarm, or a clear event a second open alarm of the condition. -/
def lapses (s : State) : Act → Bool
  | .commit i =>
    match s.requests[i]? with
    | some (.absent element condition _) =>
      s.alarms.any fun alarm => alarm.ves && alarm.openFor element condition
    | some (.found request j loaded) =>
      (s.alarms[j]?.any fun row => stale row loaded (request.apply loaded)) ||
        request.clearEvent.any fun (element, condition) => s.othersOpen j element condition
    | _ => false
  | _ => false

end State

end Smo.RanNfOam.Alarms
