import Smo.Lib.Json.Load
import Smo.Lib.Runs
import Smo.Lib.Table
import Mathlib.Data.List.Sort

/-! The notification outbox (`shared/smo_shared/outbox.py`): rows written with the change they
tell of, and drains that claim, send and record them on any number of replicas. A time is a
count of microseconds, and the replicas share a clock. -/
namespace Smo.Outbox

inductive Status where
  | pending | sent | dead
  deriving DecidableEq, Repr

inductive Method where
  | post | delete
  deriving DecidableEq, Repr

structure NotificationOutbox where
  id : Nat
  module : String
  destination : String
  payload : Json.Value
  method : Method := .post
  status : Status := .pending
  attempts : Nat := 0
  nextAttemptAt : Nat
  lastError : Option String := none
  createdAt : Nat

def second : Nat := 1000000

/-- `MAX_ATTEMPTS`. -/
def maxAttempts : Nat := 5

/-- `LEASE_SECONDS`. -/
def lease : Nat := 60 * second

/-- `_backoff`; the index before the first is the last. -/
def backoff (attempts : Nat) : Nat :=
  match min attempts 4 with
  | 1 => 5 * second
  | 2 => 30 * second
  | 3 => 120 * second
  | _ => 600 * second

def NotificationOutbox.due (row : NotificationOutbox) (now : Nat) : Bool :=
  row.status = .pending ∧ row.nextAttemptAt ≤ now

/-- What the UPDATE of `_claim` sets. -/
def NotificationOutbox.claimed (now : Nat) (row : NotificationOutbox) : NotificationOutbox :=
  { row with attempts := row.attempts + 1, nextAttemptAt := now + lease }

/-- What a send meets: the SSRF guard refuses the destination, there is no answer, or one. -/
inductive Response where
  | refused
  | unanswered
  | answered (statusCode : Nat)

structure Outcome where
  delivered : Bool
  error : Option String
  retryable : Bool

/-- `_send`. -/
def send : Response → Outcome
  | .refused => ⟨false, some "destination rejected by the SSRF guard", false⟩
  | .unanswered => ⟨false, some "no answer from the destination", true⟩
  | .answered statusCode =>
    if 500 ≤ statusCode then ⟨false, some s!"destination answered {statusCode}", true⟩
    else ⟨true, none, false⟩

/-- What `drain` makes of a row that it has sent. -/
def NotificationOutbox.recorded (now : Nat) (outcome : Outcome) (row : NotificationOutbox) :
    NotificationOutbox :=
  if outcome.delivered then { row with status := .sent, lastError := none }
  else if outcome.retryable ∧ row.attempts < maxAttempts then
    { row with lastError := outcome.error, nextAttemptAt := now + backoff row.attempts }
  else { row with status := .dead, lastError := outcome.error }

/-- The unit of work writes the columns that differ from what was loaded, whatever the row
holds by then. -/
def NotificationOutbox.flushed (loaded changed row : NotificationOutbox) : NotificationOutbox :=
  { row with
    status := if changed.status = loaded.status then row.status else changed.status
    nextAttemptAt :=
      if changed.nextAttemptAt = loaded.nextAttemptAt then row.nextAttemptAt
      else changed.nextAttemptAt
    lastError := if changed.lastError = loaded.lastError then row.lastError else changed.lastError }

def NotificationOutbox.differs (loaded changed : NotificationOutbox) : Bool :=
  changed.status ≠ loaded.status ∨ changed.nextAttemptAt ≠ loaded.nextAttemptAt ∨
    changed.lastError ≠ loaded.lastError

/-- A session that enqueues: open, committed with its inline drain to come, or done. -/
inductive SessionState where
  | open_ | committed | done
  deriving DecidableEq, Repr

structure Session where
  rows : List NotificationOutbox := []
  state : SessionState := .open_

structure Held where
  row : NotificationOutbox
  outcome : Option Outcome := none

/-- A drain: the rows to claim, the one claimed last and not yet loaded, and those whose
outcome is not recorded. -/
structure Drain where
  now : Nat
  full : Bool
  queue : List Nat
  loading : Option Nat := none
  held : List Held := []
  ended : Bool := false

/-- The table, the sessions and the drains. What is only told: the drain that claimed a row
last, the rows whose transaction committed, and those that were purged. -/
structure Store where
  clock : Nat
  nextId : Nat := 0
  rows : List NotificationOutbox := []
  sessions : List Session := []
  drains : List Drain := []
  owner : Nat → Option Nat := fun _ => none
  committed : List Nat := []
  purged : List Nat := []

inductive Act where
  | tick (clock : Nat)
  | begin
  | enqueue (i : Nat) (module destination : String) (payload : Json.Value) (method : Method)
      (safe : Bool)
  | commit (i : Nat)
  | rollback (i : Nat)
  | inline (i : Nat)
  | drain
  | claim (d : Nat)
  | load (d : Nat)
  | send (d i : Nat) (response : Response)
  | record (d : Nat)
  | finish (d : Nat)
  | crash (d : Nat)

/-- The limit of a drain, and `SMO_OUTBOX_SENT_RETENTION_SECONDS` in microseconds. -/
structure Settings where
  limit : Nat := 100
  retention : Nat := 86400 * second

namespace Store

variable (settings : Settings)

def row (s : Store) (id : Nat) : Option NotificationOutbox := Table.get (·.id) s.rows id

def setSession (s : Store) (i : Nat) (session : Session) : Store :=
  { s with sessions := s.sessions.set i session }

def setDrain (s : Store) (d : Nat) (drain : Drain) : Store :=
  { s with drains := s.drains.set d drain }

def updateRow (s : Store) (id : Nat) (change : NotificationOutbox → NotificationOutbox) : Store :=
  { s with rows := Table.modify (·.id) s.rows id change }

def older (row row' : NotificationOutbox) : Bool :=
  row.createdAt < row'.createdAt ∨ row.createdAt = row'.createdAt ∧ row.id ≤ row'.id

/-- The rows that a drain started now is to claim; `ids` limits it to those. -/
def selected (s : Store) (ids : Option (List Nat)) : List Nat :=
  (((s.rows.filter fun row => row.due s.clock && ids.all (·.contains row.id)).insertionSort (older · ·)).take
    settings.limit).map (·.id)

/-- `enqueue`; a destination that the SSRF guard refuses is dropped. -/
def enqueue (s : Store) (i : Nat) (session : Session) (module destination : String)
    (payload : Json.Value) (method : Method) (safe : Bool) : Store :=
  if safe then
    let row : NotificationOutbox :=
      { id := s.nextId, module, destination, payload, method
        nextAttemptAt := s.clock, createdAt := s.clock }
    { s.setSession i { session with rows := session.rows ++ [row] } with nextId := s.nextId + 1 }
  else s

/-- `_claim`, and what the loop of `drain` does with its answer. -/
def claim (s : Store) (d : Nat) (drain : Drain) (id : Nat) (queue : List Nat) : Store :=
  if (s.row id).any (·.due drain.now) then
    { (s.updateRow id (.claimed drain.now)).setDrain d { drain with queue, loading := some id } with
      owner := fun other => if other = id then some d else s.owner other }
  else s.setDrain d { drain with queue }

def load (s : Store) (d : Nat) (drain : Drain) (id : Nat) : Store :=
  s.setDrain d { drain with
    loading := none
    held := drain.held ++ ((s.row id).map fun row => { row }).toList }

def record (s : Store) (d : Nat) (drain : Drain) (first : Held) (outcome : Outcome)
    (held : List Held) : Store :=
  let changed := first.row.recorded drain.now outcome
  if first.row.differs changed then
    if (s.row first.row.id).isSome then
      (s.updateRow first.row.id (first.row.flushed changed)).setDrain d { drain with held }
    else s.setDrain d { drain with ended := true }
  else s.setDrain d { drain with held }

def old (row : NotificationOutbox) (now : Nat) : Bool :=
  row.status = .sent ∧ row.createdAt + settings.retention < now

def finish (s : Store) (d : Nat) (drain : Drain) : Store :=
  let s := s.setDrain d { drain with ended := true }
  if drain.full then
    { s with
      rows := s.rows.filter fun row => ¬ old settings row drain.now
      purged := s.purged ++ (s.rows.filter (old settings · drain.now)).map (·.id) }
  else s

def running (s : Store) (d : Nat) : Option Drain := s.drains[d]?.filter fun drain => ¬ drain.ended

def act (s : Store) : Act → Option Store
  | .tick clock => if s.clock ≤ clock then some { s with clock } else none
  | .begin => some { s with sessions := s.sessions ++ [{}] }
  | .enqueue i module destination payload method safe =>
    match s.sessions[i]? with
    | some ⟨rows, .open_⟩ =>
      some (s.enqueue i ⟨rows, .open_⟩ module destination payload method safe)
    | _ => none
  | .commit i =>
    match s.sessions[i]? with
    | some ⟨rows, .open_⟩ => some { s.setSession i ⟨rows, .committed⟩ with
        rows := s.rows ++ rows
        committed := s.committed ++ rows.map (·.id) }
    | _ => none
  | .rollback i =>
    match s.sessions[i]? with
    | some ⟨_, .open_⟩ => some (s.setSession i ⟨[], .done⟩)
    | _ => none
  | .inline i =>
    match s.sessions[i]? with
    | some ⟨rows, .committed⟩ => some { s.setSession i ⟨rows, .done⟩ with
        drains := s.drains ++
          [{ now := s.clock, full := false, queue := s.selected settings (some (rows.map (·.id))) }] }
    | _ => none
  | .drain => some { s with
      drains := s.drains ++ [{ now := s.clock, full := true, queue := s.selected settings none }] }
  | .claim d =>
    match s.running d with
    | some ⟨now, full, id :: queue, none, held, ended⟩ =>
      some (s.claim d ⟨now, full, id :: queue, none, held, ended⟩ id queue)
    | _ => none
  | .load d =>
    match s.running d with
    | some ⟨now, full, queue, some id, held, ended⟩ =>
      some (s.load d ⟨now, full, queue, some id, held, ended⟩ id)
    | _ => none
  | .send d i response =>
    match s.running d with
    | some ⟨now, full, [], none, held, ended⟩ =>
      match held[i]? with
      | some ⟨row, none⟩ =>
        some (s.setDrain d ⟨now, full, [], none, held.set i ⟨row, some (send response)⟩, ended⟩)
      | _ => none
    | _ => none
  | .record d =>
    match s.running d with
    | some ⟨now, full, [], none, ⟨row, some outcome⟩ :: held, ended⟩ =>
      if held.all (·.outcome.isSome) then
        some (s.record d ⟨now, full, [], none, ⟨row, some outcome⟩ :: held, ended⟩ ⟨row, some outcome⟩
          outcome held)
      else none
    | _ => none
  | .finish d =>
    match s.running d with
    | some ⟨now, full, [], none, [], ended⟩ => some (s.finish settings d ⟨now, full, [], none, [], ended⟩)
    | _ => none
  | .crash d =>
    match s.running d with
    | some drain => some (s.setDrain d { drain with ended := true })
    | none => none

def Step (s : Store) (act : Act) (s' : Store) : Prop := s.act settings act = some s'

end Store
end Smo.Outbox
