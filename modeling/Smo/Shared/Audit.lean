import Smo.Lib.Json.Injective
import Smo.Lib.Time
import Smo.Lib.Runs

/-! The audit chain (`shared/smo_shared/audit.py`): rows numbered and linked by their hashes from
a head that is locked while one is added, and the check of the chain. The hash of the UTF-8 text
of a row and `str.upper` are parameters. -/
namespace Smo.Audit

open Json (Text Value)
open Time (DateTime)

def text (s : String) : Text := s.toList.map Char.toNat

/-- `GENESIS`. -/
def genesis : String := "0000000000000000000000000000000000000000000000000000000000000000"

abbrev Detail := {v : Value // Json.canonical v = true}

structure AuditEntry where
  seq : Int
  auditId : String
  occurredAt : DateTime
  actor : String
  actorRole : Option String
  action : String
  target : String
  result : String
  correlationId : Option String
  detail : Detail
  prevHash : String
  hash : String

structure AuditHead where
  lastSeq : Int
  lastHash : String
  deriving DecidableEq

/-- `_iso`. -/
def iso (moment : DateTime) : String := String.ofList (moment.written ['Z'])

def optional (s : Option String) : Value := s.elim .null fun s => .str (text s)

/-- The body that `compute_hash` writes. -/
def AuditEntry.body (entry : AuditEntry) : Value :=
  .obj [
    (text "seq", .int entry.seq), (text "audit_id", .str (text entry.auditId)),
    (text "occurred_at", .str (text (iso entry.occurredAt))), (text "actor", .str (text entry.actor)),
    (text "actor_role", optional entry.actorRole), (text "action", .str (text entry.action)),
    (text "target", .str (text entry.target)), (text "result", .str (text entry.result)),
    (text "correlation_id", optional entry.correlationId), (text "detail", entry.detail.1),
    (text "prev_hash", .str (text entry.prevHash))]

/-- What `record` is called with, and the id and the time that it draws. -/
structure Recorded where
  actor : String
  action : String
  target : String
  result : String
  role : Option String := none
  correlationId : Option String := none
  detail : Detail := ⟨.null, rfl⟩
  now : DateTime
  auditId : String

/-- What `verify` returns. -/
structure Problem where
  seq : Int
  reason : String

section Code

variable (sha256 : ByteArray → String) (upper : String → String)

/-- `compute_hash`. -/
def computeHash (entry : AuditEntry) : String :=
  sha256 (String.ofList (Json.dumps false true entry.body)).toUTF8

/-- The row that `record` adds after a head. -/
def nextEntry (head : AuditHead) (given : Recorded) : AuditEntry :=
  let entry : AuditEntry :=
    { seq := head.lastSeq + 1, auditId := given.auditId, occurredAt := given.now, actor := given.actor
      actorRole := given.role, action := upper given.action, target := given.target
      result := given.result, correlationId := given.correlationId, detail := given.detail
      prevHash := head.lastHash, hash := "" }
  { entry with hash := computeHash sha256 entry }

/-- How far the loop of `verify` is. -/
structure Scan where
  expectedSeq : Int := 1
  previous : String := genesis
  found : Option String

/-- The loop of `verify`; `found` is what `at` has for the first head. -/
def scan (firstSeq : Int) (s : Scan) : List AuditEntry → Except Problem Scan
  | [] => .ok s
  | entry :: rows =>
    if entry.seq ≠ s.expectedSeq then
      .error ⟨s.expectedSeq, s!"row {s.expectedSeq} is missing (next row is {entry.seq})"⟩
    else if entry.prevHash ≠ s.previous then
      .error ⟨entry.seq, "prev_hash does not match the hash of the row before"⟩
    else if computeHash sha256 entry ≠ entry.hash then
      .error ⟨entry.seq, "the row was changed: its hash does not match its content"⟩
    else
      scan firstSeq
        { expectedSeq := entry.seq + 1, previous := entry.hash
          found := if entry.seq = firstSeq then some entry.hash else s.found } rows

/-- `verify`, of what its three reads find: the head, the rows, and the head again. -/
def verify (first : Option AuditHead) (rows : List AuditEntry) (head : Option AuditHead) :
    Option Problem :=
  let first := first.getD ⟨0, genesis⟩
  let start : Scan := { found := if first.lastSeq = 0 then some genesis else none }
  match scan sha256 first.lastSeq start (rows.insertionSort (·.seq ≤ ·.seq)) with
  | .error problem => some problem
  | .ok s =>
    let lastSeq := s.expectedSeq - 1
    match head with
    | none => if lastSeq = 0 then none else some ⟨lastSeq, "the head row is missing"⟩
    | some head =>
      if ¬ (first.lastSeq ≤ lastSeq ∧ lastSeq ≤ head.lastSeq) ∨ s.found ≠ some first.lastHash ∨
          (lastSeq = head.lastSeq ∧ head.lastHash ≠ s.previous) then
        some ⟨lastSeq, s!"the head says the chain ends at row {head.lastSeq}; it ends at {lastSeq} (rows removed from the end?)"⟩
      else none

structure Writing where
  writer : Nat
  rows : List AuditEntry
  head : AuditHead

/-- The committed tables and the transaction that writes; the other writers wait for the lock. -/
structure Db where
  rows : List AuditEntry := []
  head : Option AuditHead
  writing : Option Writing := none

inductive Act where
  | record (writer : Nat) (given : Recorded)
  | commit
  | rollback

namespace Db

def lockedHead (s : Db) : AuditHead := s.head.getD ⟨0, genesis⟩

def act (s : Db) : Act → Option Db
  | .record writer given =>
    let w := s.writing.getD ⟨writer, [], s.lockedHead⟩
    if w.writer = writer then
      let entry := nextEntry sha256 upper w.head given
      some { s with writing := some ⟨writer, w.rows ++ [entry], ⟨entry.seq, entry.hash⟩⟩ }
    else none
  | .commit =>
    match s.writing with
    | some w =>
      if w.rows.all fun entry => s.rows.all (·.seq ≠ entry.seq) then
        some { rows := s.rows ++ w.rows, head := some w.head }
      else none
    | none => none
  | .rollback => some { s with writing := none }

def Step (s : Db) (label : Act) (s' : Db) : Prop := s.act sha256 upper label = some s'

end Db

end Code
end Smo.Audit
