import Smo.Shared.AuditChain
import Smo.Lib.Table

/-! The decision records of rApp actions (`ran-nf-oam/app/main.py`): the hash of a record, the worker
that enters records in the audit chain, and what a read tells of a record's integrity. -/
namespace Smo.RanNfOam.DecisionRecords

open Json (Text Value)
open Time (DateTime)
open Audit (AuditEntry Detail Recorded text optional)

/-- The columns of a record that its hash covers; `approvers` is null without the second approval. -/
structure Decided where
  decisionId : String
  occurredAt : DateTime
  invokerId : String
  requestedBy : String
  disposition : String
  jobId : Option String := none
  approvalId : Option String := none
  actionId : Option String := none
  inputsRef : Option String := none
  modelVersion : Option String := none
  rationale : Option String := none
  decidedBy : Option String := none
  decidedAt : Option DateTime := none
  managedElements : Detail
  changeCount : Int
  correlationId : Option String := none
  approvers : Detail := ⟨.null, rfl⟩

structure RAppDecisionRecord where
  fields : Decided
  contentHash : String
  auditSeq : Option Int := none

/-- `_stamp` -/
def stamp (moment : Option DateTime) : Value := optional (moment.map Audit.iso)

def approversEntry : Value → List (Text × Value)
  | .null => []
  | approvers => [(text "approvers", approvers)]

/-- The body that `_decision_hash` writes. -/
def Decided.body (rec : Decided) : Value :=
  .obj ([
    (text "decision_id", .str (text rec.decisionId)), (text "occurred_at", stamp rec.occurredAt),
    (text "invoker_id", .str (text rec.invokerId)), (text "requested_by", .str (text rec.requestedBy)),
    (text "disposition", .str (text rec.disposition)), (text "job_id", optional rec.jobId),
    (text "approval_id", optional rec.approvalId), (text "action_id", optional rec.actionId),
    (text "inputs_ref", optional rec.inputsRef), (text "model_version", optional rec.modelVersion),
    (text "rationale", optional rec.rationale), (text "decided_by", optional rec.decidedBy),
    (text "decided_at", stamp rec.decidedAt), (text "managed_elements", rec.managedElements.1),
    (text "change_count", .int rec.changeCount), (text "correlation_id", optional rec.correlationId)] ++
    approversEntry rec.approvers.1)

/-- The `detail` of the audit row of a record, its entries by name. -/
def entryDetail (rec : RAppDecisionRecord) : Value :=
  .obj [(text "contentHash", .str (text rec.contentHash)),
    (text "decisionId", .str (text rec.fields.decisionId)), (text "jobId", optional rec.fields.jobId)]

theorem entryDetail_canonical (rec : RAppDecisionRecord) : Json.canonical (entryDetail rec) = true := by
  have names : ([text "contentHash", text "decisionId", text "jobId"] : List Text).Pairwise (· < ·) := by
    decide
  have job : Json.canonical (optional rec.fields.jobId) = true := Audit.optional_canonical _
  simp only [entryDetail, Json.canonical, Json.canonicalEntries, Bool.and_eq_true, decide_eq_true_eq,
    Audit.text_scalar, job, and_self, and_true]
  exact names

def entryOf (rec : RAppDecisionRecord) (now : DateTime) (auditId : String) : Recorded where
  actor := rec.fields.invokerId
  action := "DECISION"
  target := "/ran-nf-oam/decision-records/" ++ rec.fields.decisionId
  result := rec.fields.disposition
  role := some "rapp"
  correlationId := rec.fields.correlationId
  detail := ⟨entryDetail rec, entryDetail_canonical rec⟩
  now := now
  auditId := auditId

def carried (detail : Detail) (name : String) : Option Text :=
  match detail.1 with
  | .obj entries =>
    match entries.lookup (text name) with
    | some (.str value) => some value
    | _ => none
  | _ => none

inductive Integrity
  | mismatch (reason : String)
  | unchained
  | verified (auditSeq : Int) (auditHash : String)
  deriving DecidableEq

def Integrity.isVerified : Integrity → Bool
  | .verified _ _ => true
  | _ => false

/-- A row of the table. `lockedBy` is the session that holds its lock and `entering` the number of
the audit row that this has added for it; `entered` and `touched` are history: the record is in the
chain, and its row was modified. -/
structure Row where
  record : RAppDecisionRecord
  lockedBy : Option Nat := none
  entering : Option Int := none
  entered : Bool := false
  touched : Bool := false

def Row.id (row : Row) : String := row.record.fields.decisionId

/-- The audit tables and the records. `chained` is history: what was entered, oldest first. -/
structure State where
  audit : Audit.Db
  rows : List Row := []
  chained : List Decided := []

/-- `modify` stands for any write to the row of a record that was chained. -/
inductive Act
  | record (fields : Decided)
  | pick (session : Nat) (decisionId : String)
  | enter (session : Nat) (now : DateTime) (auditId : String)
  | elsewhere (session : Nat) (given : Recorded)
  | commit (session : Nat)
  | rollback (session : Nat)
  | modify (decisionId : String) (columns : RAppDecisionRecord)
  | purge (decisionId : String)

section Code

variable (sha256 : ByteArray → String) (upper : String → String)

/-- `_decision_hash` -/
def decisionHash (rec : Decided) : String :=
  sha256 (String.ofList (Json.dumps false true rec.body)).toUTF8

/-- `_integrity` -/
def integrity (entries : List AuditEntry) (rec : RAppDecisionRecord) : Integrity :=
  if decisionHash sha256 rec.fields ≠ rec.contentHash then
    .mismatch "the record no longer hashes to the value written when it was made"
  else
    match rec.auditSeq with
    | none => .unchained
    | some seq =>
      match entries.find? fun entry => entry.seq = seq with
      | none => .mismatch s!"audit row {seq} does not carry this record's hash"
      | some entry =>
        if carried entry.detail "contentHash" ≠ some (text rec.contentHash) ∨
            carried entry.detail "decisionId" ≠ some (text rec.fields.decisionId) then
          .mismatch s!"audit row {seq} does not carry this record's hash"
        else .verified seq entry.hash

namespace State

def mine (s : State) (session : Nat) : Option Row := s.rows.find? fun row => row.lockedBy = some session

def put (s : State) (decisionId : String) (row : Row) : State :=
  { s with rows := Table.modify Row.id s.rows decisionId fun _ => row }

def writes (s : State) (session : Nat) : Bool := s.audit.writing.any (·.writer = session)

def ended (s : State) (session : Nat) (how : Audit.Act) : Option Audit.Db :=
  if s.writes session then s.audit.act sha256 upper how else some s.audit

/-- One step: a new record is committed; in `chain_decisions`, a session locks a row that is not
chained, adds its audit row, and commits; another session adds an audit row of its own; a row is
modified or purged. The order in which unchained rows are taken is left open. -/
def act (s : State) : Act → Option State
  | .record fields =>
    if s.rows.all (·.id ≠ fields.decisionId) && s.chained.all (·.decisionId ≠ fields.decisionId) then
      some { s with rows := s.rows ++ [{ record := { fields, contentHash := decisionHash sha256 fields } }] }
    else none
  | .pick session decisionId => do
    let row ← Table.get Row.id s.rows decisionId
    if row.record.auditSeq.isNone && row.lockedBy.isNone && (s.mine session).isNone &&
        !s.writes session then
      some (s.put decisionId { row with lockedBy := some session })
    else none
  | .enter session now auditId => do
    let row ← s.mine session
    if row.entering.isNone then
      let audit ← s.audit.act sha256 upper (.record session (entryOf row.record now auditId))
      let seq := audit.writing.map (·.head.lastSeq)
      some { s.put row.id { row with entering := seq } with audit }
    else none
  | .elsewhere session given =>
    if (carried given.detail "decisionId").isNone && (s.mine session).isNone then do
      let audit ← s.audit.act sha256 upper (.record session given)
      some { s with audit }
    else none
  | .commit session => do
    let audit ← s.ended sha256 upper session .commit
    match s.mine session with
    | none => some { s with audit }
    | some row =>
      match row.entering with
      | none => some { s.put row.id { row with lockedBy := none } with audit }
      | some seq =>
        let record := { row.record with auditSeq := some seq }
        some { s.put row.id { row with record, lockedBy := none, entering := none, entered := true } with
          audit, chained := s.chained ++ [row.record.fields] }
  | .rollback session => do
    let audit ← s.ended sha256 upper session .rollback
    match s.mine session with
    | none => some { s with audit }
    | some row => some { s.put row.id { row with lockedBy := none, entering := none } with audit }
  | .modify decisionId columns => do
    let row ← Table.get Row.id s.rows decisionId
    if row.entered && row.lockedBy.isNone &&
        s.rows.all (fun other => other.id = decisionId ∨ other.id ≠ columns.fields.decisionId) then
      some (s.put decisionId { row with record := columns, touched := true })
    else none
  | .purge decisionId => do
    let row ← Table.get Row.id s.rows decisionId
    if row.record.auditSeq.isSome && row.lockedBy.isNone then
      some { s with rows := s.rows.filter (·.id ≠ decisionId) }
    else none

def Step (s : State) (label : Act) (s' : State) : Prop := s.act sha256 upper label = some s'

end State

end Code

/-- `chain_decisions` takes up a row that was entered before: its `audit_seq` was cleared. -/
def State.lapses (s : State) : Act → Bool
  | .pick _ decisionId => (Table.get Row.id s.rows decisionId).any Row.entered
  | _ => false

end Smo.RanNfOam.DecisionRecords
