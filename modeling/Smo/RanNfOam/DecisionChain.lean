import Smo.RanNfOam.DecisionRecords
import Smo.Shared.AuditVerify

/-! Each decision record is chained once and reads as verified from then on, and after a change of its
row only with what was chained, in every run in which no record that was chained is taken up again. -/
namespace Smo.RanNfOam.DecisionRecords

open Json (Text Value)
open Audit (AuditEntry Recorded text)
open Runs

variable {sha256 : ByteArray → String} {upper : String → String}

section Body

def Decided.sorted (rec : Decided) : Value :=
  .obj ([(text "action_id", Audit.optional rec.actionId), (text "approval_id", Audit.optional rec.approvalId)] ++
    approversEntry rec.approvers.1 ++ [
    (text "change_count", .int rec.changeCount), (text "correlation_id", Audit.optional rec.correlationId),
    (text "decided_at", stamp rec.decidedAt), (text "decided_by", Audit.optional rec.decidedBy),
    (text "decision_id", .str (text rec.decisionId)), (text "disposition", .str (text rec.disposition)),
    (text "inputs_ref", Audit.optional rec.inputsRef), (text "invoker_id", .str (text rec.invokerId)),
    (text "job_id", Audit.optional rec.jobId), (text "managed_elements", rec.managedElements.1),
    (text "model_version", Audit.optional rec.modelVersion), (text "occurred_at", stamp rec.occurredAt),
    (text "rationale", Audit.optional rec.rationale), (text "requested_by", .str (text rec.requestedBy))])

theorem approversEntry_cases (approvers : Value) :
    approvers = .null ∧ approversEntry approvers = [] ∨
      approversEntry approvers = [(text "approvers", approvers)] := by
  cases approvers <;> simp [approversEntry]

def placed (entries : List (Text × Value)) (order : List Nat) : List (Text × Value) :=
  order.map fun n => entries.getD n ([], .null)

theorem placed_perm {entries entries' : List (Text × Value)} {order : List Nat} {count : Nat}
    (length : entries.length = count) (perm : order.Perm (List.range count))
    (is : placed entries order = entries') : entries.Perm entries' := by
  subst length
  subst is
  refine .symm ((perm.map _).trans (.of_eq (List.ext_getElem (by simp) fun n within within' => ?_)))
  simp [within']

def columns : List String :=
  ["decision_id", "occurred_at", "invoker_id", "requested_by", "disposition", "job_id", "approval_id",
    "action_id", "inputs_ref", "model_version", "rationale", "decided_by", "decided_at",
    "managed_elements", "change_count", "correlation_id"]

theorem columns_distinct : ((columns ++ ["approvers"]).map text).Nodup := by decide

theorem dumps_body (rec : Decided) :
    Json.dumps false true rec.body = Json.dumps false true rec.sorted := by
  have order : List.Perm [7, 6, 14, 15, 12, 11, 0, 4, 8, 2, 5, 13, 9, 1, 10, 3] (List.range 16) := by
    decide
  have order' : List.Perm [7, 6, 16, 14, 15, 12, 11, 0, 4, 8, 2, 5, 13, 9, 1, 10, 3]
      (List.range 17) := by decide
  have distinct : (columns.map text).Nodup := by
    have distinct := columns_distinct
    exact distinct.of_append_left
  rw [Decided.body, Decided.sorted]
  rcases approversEntry_cases rec.approvers.1 with ⟨-, is⟩ | is <;> rw [is]
  · exact Json.dumps_perm distinct (placed_perm rfl order rfl)
  · exact Json.dumps_perm columns_distinct (placed_perm rfl order' rfl)

theorem stamp_canonical (moment : Option Time.DateTime) : Json.canonical (stamp moment) = true :=
  Audit.optional_canonical _

theorem stamp_injective {t t' : Option Time.DateTime} (same : stamp t = stamp t') : t = t' :=
  Option.map_injective (fun _ _ => Audit.iso_injective) (Audit.optional_injective same)

theorem sorted_canonical (rec : Decided) : Json.canonical rec.sorted = true := by
  have names : (["action_id", "approval_id", "approvers", "change_count", "correlation_id", "decided_at",
      "decided_by", "decision_id", "disposition", "inputs_ref", "invoker_id", "job_id",
      "managed_elements", "model_version", "occurred_at", "rationale", "requested_by"].map
        text).Pairwise (· < ·) := by decide
  rw [Decided.sorted]
  rcases approversEntry_cases rec.approvers.1 with ⟨-, is⟩ | is <;> rw [is] <;>
    simp only [List.cons_append, List.nil_append, List.append_nil, Json.canonical,
      Json.canonicalEntries, Bool.and_eq_true, decide_eq_true_eq, Audit.text_scalar,
      Audit.optional_canonical, stamp_canonical, rec.managedElements.2, rec.approvers.2, and_self,
      and_true]
  · exact names.sublist (by simp)
  · exact names

variable {r r' : Decided}

theorem sorted_injective (same : r.sorted = r'.sorted) : r = r' := by
  have approvers : r.approvers.1 = r'.approvers.1 := by
    have lengths := congrArg List.length (Value.obj.inj same)
    rcases approversEntry_cases r.approvers.1 with ⟨isNull, is⟩ | is <;>
      rcases approversEntry_cases r'.approvers.1 with ⟨isNull', is'⟩ | is'
    · rw [isNull, isNull']
    · simp [is, is'] at lengths
    · simp [is, is'] at lengths
    · simp only [Decided.sorted, is, is', Value.obj.injEq, List.cons_append, List.nil_append,
        List.cons.injEq, Prod.mk.injEq, true_and] at same
      exact same.2.2.1
  simp only [Decided.sorted, approvers, Value.obj.injEq, List.cons_append,
    List.nil_append, List.cons.injEq, Prod.mk.injEq, List.append_cancel_left_eq, Value.str.injEq,
    Value.int.injEq, true_and, and_true] at same
  obtain ⟨actionId, approvalId, changeCount, correlationId, decidedAt, decidedBy, decisionId,
    disposition, inputsRef, invokerId, jobId, managedElements, modelVersion, occurredAt, rationale,
    requestedBy⟩ := same
  have occurred := Option.some.inj (stamp_injective occurredAt)
  cases r
  cases r'
  simp only [Decided.mk.injEq]
  exact ⟨Audit.text_injective decisionId, occurred, Audit.text_injective invokerId,
    Audit.text_injective requestedBy, Audit.text_injective disposition, Audit.optional_injective jobId,
    Audit.optional_injective approvalId, Audit.optional_injective actionId,
    Audit.optional_injective inputsRef, Audit.optional_injective modelVersion,
    Audit.optional_injective rationale, Audit.optional_injective decidedBy, stamp_injective decidedAt,
    Subtype.ext managedElements, changeCount, Audit.optional_injective correlationId,
    Subtype.ext approvers⟩

theorem decisionHash_injective (collisionFree : Function.Injective sha256)
    (same : decisionHash sha256 r = decisionHash sha256 r') : r = r' := by
  have texts := String.ofList_injective (String.toByteArray_inj.mp (collisionFree same))
  rw [dumps_body, dumps_body] at texts
  exact sorted_injective (Json.dumps_injective (sorted_canonical r) (sorted_canonical r') texts)

end Body

section Integrity

def decisionOf (entry : AuditEntry) : Option (Text × Option Text) :=
  (carried entry.detail "decisionId").map fun id => (id, carried entry.detail "contentHash")

def link (rec : RAppDecisionRecord) : Text × Option Text :=
  (text rec.fields.decisionId, some (text rec.contentHash))

def InChain (entries : List AuditEntry) (rec : RAppDecisionRecord) : Prop :=
  ∃ seq entry, rec.auditSeq = some seq ∧ entries.find? (fun entry => entry.seq = seq) = some entry ∧
    decisionOf entry = some (link rec)

variable {entries : List AuditEntry} {rec : RAppDecisionRecord}

theorem InChain.append (chained : InChain entries rec) (more : List AuditEntry) :
    InChain (entries ++ more) rec := by
  obtain ⟨seq, entry, named, found, carries⟩ := chained
  exact ⟨seq, entry, named, by rw [List.find?_append, found, Option.some_or], carries⟩

theorem decisionOf_eq {entry : AuditEntry} :
    decisionOf entry = some (link rec) ↔ carried entry.detail "contentHash" = some (text rec.contentHash) ∧
      carried entry.detail "decisionId" = some (text rec.fields.decisionId) := by
  simp only [decisionOf, link, Option.map_eq_some_iff, Prod.mk.injEq]
  constructor
  · rintro ⟨id, named, rfl, hash⟩
    exact ⟨hash, named⟩
  · rintro ⟨hash, named⟩
    exact ⟨_, named, rfl, hash⟩

theorem entryOf_decision (rec : RAppDecisionRecord) (now : Time.DateTime) (auditId : String)
    (head : Audit.AuditHead) :
    decisionOf (Audit.nextEntry sha256 upper head (entryOf rec now auditId)) = some (link rec) :=
  decisionOf_eq.mpr ⟨rfl, rfl⟩

theorem integrity_verified : (integrity sha256 entries rec).isVerified = true ↔
      decisionHash sha256 rec.fields = rec.contentHash ∧ InChain entries rec := by
  unfold integrity InChain
  by_cases hash : decisionHash sha256 rec.fields = rec.contentHash
  · rw [if_neg (not_not.mpr hash)]
    cases named : rec.auditSeq with
    | none => simp [Integrity.isVerified]
    | some seq =>
      cases found : entries.find? fun entry => entry.seq = seq with
      | none => simp [Integrity.isVerified, found]
      | some entry =>
        simp only [hash, true_and, Option.some.injEq, found, decisionOf_eq]
        split_ifs with differs
        · refine ⟨nofun, ?_⟩
          rintro ⟨_, other, rfl, is, carriesHash, carriesId⟩
          rw [found] at is
          cases is
          exact absurd differs (not_or.mpr ⟨not_not.mpr carriesHash, not_not.mpr carriesId⟩)
        · rw [not_or, not_not, not_not] at differs
          exact ⟨fun _ => ⟨seq, entry, rfl, found, differs⟩, fun _ => rfl⟩
  · rw [if_pos hash]
    simp [Integrity.isVerified, hash]

end Integrity

section Invariant

structure Row.Sound (sha256 : ByteArray → String) (s : State) (row : Row) : Prop where
  waiting : row.entered = false → row.touched = false ∧ row.record.auditSeq = none ∧
    row.record.contentHash = decisionHash sha256 row.record.fields ∧
    ∀ fields ∈ s.chained, fields.decisionId ≠ row.id
  chained : row.entered = true → row.lockedBy = none ∧ (row.touched = false →
    row.record.contentHash = decisionHash sha256 row.record.fields ∧ InChain s.audit.rows row.record)
  free : row.lockedBy = none → row.entering = none
  reading : ∀ session, row.lockedBy = some session → row.entering = none → s.writes session = false
  entering : ∀ session seq, row.lockedBy = some session → row.entering = some seq →
    ∃ entry head, s.audit.writing = some ⟨session, [entry], head⟩ ∧ entry.seq = seq ∧
      decisionOf entry = some (link row.record)

structure State.Sound (sha256 : ByteArray → String) (s : State) : Prop where
  ids : (s.rows.map Row.id).Nodup
  rows : ∀ row ∈ s.rows, row.Sound sha256 s
  alone : ∀ row ∈ s.rows, ∀ other ∈ s.rows, ∀ session, row.lockedBy = some session →
    other.lockedBy = some session → row = other
  links : s.audit.rows.filterMap decisionOf =
    s.chained.map fun fields => link { fields, contentHash := decisionHash sha256 fields }
  distinct : (s.chained.map Decided.decisionId).Nodup
  elsewhere : ∀ w, s.audit.writing = some w →
    (∃ row ∈ s.rows, row.lockedBy = some w.writer ∧ row.entering ≠ none) ∨
      ∀ entry ∈ w.rows, decisionOf entry = none

variable {s s' : State} {row : Row} {session : Nat}

variable {more : List AuditEntry} {later : List Decided} {db : Audit.Db} {given : Recorded}
  {decisionId : String}

theorem Row.Sound.keep (sound : row.Sound sha256 s) (rows : s'.audit.rows = s.audit.rows ++ more)
    (chained : s'.chained = s.chained ++ later)
    (other : ∀ fields ∈ later, fields.decisionId ≠ row.id)
    (writing : ∀ session, row.lockedBy = some session →
      s'.audit.writing = s.audit.writing ∨ row.entering = none ∧ s'.writes session = false) :
    row.Sound sha256 s' where
  waiting unentered := by
    obtain ⟨untouched, unnamed, hash, fresh⟩ := sound.waiting unentered
    refine ⟨untouched, unnamed, hash, fun fields mem => ?_⟩
    rw [chained] at mem
    exact (List.mem_append.mp mem).elim (fresh fields) (other fields)
  chained entered := by
    obtain ⟨unlocked, kept⟩ := sound.chained entered
    refine ⟨unlocked, fun untouched => ?_⟩
    obtain ⟨hash, within⟩ := kept untouched
    exact ⟨hash, rows ▸ within.append more⟩
  free := sound.free
  reading session locked unentered := by
    rcases writing session locked with same | ⟨-, idle⟩
    · rw [State.writes, same]
      exact sound.reading session locked unentered
    · exact idle
  entering session seq locked enters := by
    rcases writing session locked with same | ⟨idle, -⟩
    · rw [same]
      exact sound.entering session seq locked enters
    · rw [idle] at enters
      cases enters

theorem Row.Sound.same (sound : row.Sound sha256 s) (audit : s'.audit = s.audit)
    (chained : s'.chained = s.chained) : row.Sound sha256 s' := by
  have rows : s'.audit.rows = s.audit.rows ++ [] := by rw [audit, List.append_nil]
  have links : s'.chained = s.chained ++ [] := by rw [chained, List.append_nil]
  exact sound.keep rows links (fun _ mem => absurd mem List.not_mem_nil)
    fun _ _ => .inl (by rw [audit])

theorem mine_mem (found : s.mine session = some row) : row ∈ s.rows ∧ row.lockedBy = some session :=
  ⟨List.mem_of_find?_eq_some found, by simpa using List.find?_some found⟩

theorem mine_none (none : s.mine session = none) {row : Row} (mem : row ∈ s.rows) :
    row.lockedBy ≠ some session := by
  simpa using List.find?_eq_none.mp none row mem

theorem State.Sound.rewrite {next : Row} (sound : s.Sound sha256) (mem : row ∈ s.rows)
    (rows : s'.rows = Table.modify Row.id s.rows row.id fun _ => next)
    (free : ∀ other ∈ s.rows, other.id ≠ row.id → other.id ≠ next.id)
    (good : next.Sound sha256 s')
    (others : ∀ other ∈ s.rows, other.id ≠ row.id → other.Sound sha256 s')
    (locked : ∀ session, next.lockedBy = some session →
      row.lockedBy = some session ∨ s.mine session = none)
    (links : s'.audit.rows.filterMap decisionOf =
      s'.chained.map fun fields => link { fields, contentHash := decisionHash sha256 fields })
    (distinct : (s'.chained.map Decided.decisionId).Nodup)
    (elsewhere : ∀ w, s'.audit.writing = some w →
      (∃ row ∈ s'.rows, row.lockedBy = some w.writer ∧ row.entering ≠ none) ∨
        ∀ entry ∈ w.rows, decisionOf entry = none) : s'.Sound sha256 := by
  have apart : ∀ other ∈ s.rows, other.id ≠ row.id → ∀ session, next.lockedBy = some session →
      other.lockedBy ≠ some session := by
    intro other inRows differs session mine same
    rcases locked session mine with held | nobody
    · exact differs (congrArg Row.id (sound.alone other inRows row mem session same held))
    · exact mine_none nobody inRows same
  have ids : (s'.rows.map Row.id).Nodup := by
    rw [rows]
    exact Table.nodup_rewrite sound.ids free
  refine ⟨ids, ?_, ?_, links, distinct, elsewhere⟩
  · intro other inRows
    rcases Table.mem_rewrite (rows ▸ inRows) with rfl | ⟨inRows, differs⟩
    · exact good
    · exact others other inRows differs
  · intro first inRows second inRows' session mine mine'
    rcases Table.mem_rewrite (rows ▸ inRows) with rfl | ⟨inRows, differs⟩ <;>
      rcases Table.mem_rewrite (rows ▸ inRows') with rfl | ⟨inRows', differs'⟩
    · rfl
    · exact absurd mine' (apart second inRows' differs' session mine)
    · exact absurd mine (apart first inRows differs session mine')
    · exact sound.alone first inRows second inRows' session mine mine'

theorem State.Sound.record (sound : s.Sound sha256) {fields : Decided}
    (step : s.act sha256 upper (.record fields) = some s') : s'.Sound sha256 := by
  simp only [State.act] at step
  split_ifs at step with fresh
  cases step
  rw [Bool.and_eq_true, List.all_eq_true, List.all_eq_true] at fresh
  have newId : ∀ row ∈ s.rows, row.id ≠ fields.decisionId := by simpa using fresh.1
  have newLink : ∀ earlier ∈ s.chained, earlier.decisionId ≠ fields.decisionId := by simpa using fresh.2
  have unlocked : ∀ row ∈ s.rows ++ [{ record := { fields, contentHash := decisionHash sha256 fields } }],
      ∀ session, row.lockedBy = some session → row ∈ s.rows := by
    intro row mem session locked
    rcases List.mem_append.mp mem with inRows | last
    · exact inRows
    · rw [List.mem_singleton.mp last] at locked
      cases locked
  refine ⟨?_, fun row mem => ?_, ?_, sound.links, sound.distinct, ?_⟩
  · exact Table.nodup_snoc sound.ids (Table.get_eq_none newId)
  · rcases List.mem_append.mp mem with inRows | last
    · exact (sound.rows row inRows).same rfl rfl
    · obtain rfl := List.mem_singleton.mp last
      exact ⟨fun _ => ⟨rfl, rfl, rfl, newLink⟩, nofun, fun _ => rfl, nofun, nofun⟩
  · intro row mem other mem' session locked locked'
    exact sound.alone row (unlocked row mem session locked) other (unlocked other mem' session locked')
      session locked locked'
  · intro w writing
    rcases sound.elsewhere w writing with ⟨row, mem, held⟩ | plain
    · exact .inl ⟨row, List.mem_append_left _ mem, held⟩
    · exact .inr plain

theorem record_audit {db' : Audit.Db}
    (step : db.act sha256 upper (.record session given) = some db') :
    ∃ w : Audit.Writing, w.writer = session ∧ (db.writing = some w ∨ db.writing = none ∧ w.rows = []) ∧
      db' = { db with writing := some ⟨session, w.rows ++ [Audit.nextEntry sha256 upper w.head given],
        ⟨(Audit.nextEntry sha256 upper w.head given).seq,
          (Audit.nextEntry sha256 upper w.head given).hash⟩⟩ } := by
  simp only [Audit.Db.act] at step
  split_ifs at step with isWriter
  cases step
  refine ⟨_, isWriter, ?_, rfl⟩
  cases holds : db.writing with
  | none => exact .inr ⟨rfl, rfl⟩
  | some w => exact .inl rfl

theorem ended_cases {how : Audit.Act} (step : s.ended sha256 upper session how = some db) :
    s.writes session = false ∧ db = s.audit ∨
      ∃ w, s.audit.writing = some w ∧ w.writer = session ∧ s.audit.act sha256 upper how = some db := by
  rw [State.ended] at step
  split_ifs at step with mine
  · obtain ⟨w, holds, is⟩ := (Option.any_eq_true _ _).mp mine
    exact .inr ⟨w, holds, by simpa using is, step⟩
  · cases step
    exact .inl ⟨Bool.eq_false_iff.mpr mine, rfl⟩

theorem State.Sound.pick (sound : s.Sound sha256)
    (step : s.act sha256 upper (.pick session decisionId) = some s')
    (fresh : s.lapses (.pick session decisionId) = false) : s'.Sound sha256 := by
  obtain ⟨row, found, step⟩ := Option.bind_eq_some_iff.mp step
  split_ifs at step with able
  cases step
  simp only [Bool.and_eq_true, Option.isNone_iff_eq_none, Bool.not_eq_true'] at able
  obtain ⟨⟨⟨unnamed, unlocked⟩, nothing⟩, idle⟩ := able
  simp only [State.lapses, found, Option.any_some] at fresh
  have mem := Table.mem_of_get found
  obtain rfl := Table.key_of_get found
  have old := sound.rows row mem
  refine sound.rewrite mem rfl (fun _ _ differs => differs) ?_
    (fun other inRows _ => (sound.rows other inRows).same rfl rfl) ?_ sound.links sound.distinct ?_
  · refine ⟨old.waiting, fun entered => ?_, fun waits => ?_, ?_, ?_⟩
    · exact absurd entered (by simp [fresh])
    · cases waits
    · rintro _ ⟨⟩ _
      exact idle
    · intro _ _ _ enters
      rw [old.free unlocked] at enters
      cases enters
  · rintro _ ⟨⟩
    exact .inr nothing
  · intro w writing
    rcases sound.elsewhere w writing with ⟨other, inRows, locked, enters⟩ | plain
    · refine .inl ⟨other, Table.mem_rewrite_of_ne inRows fun same => ?_, locked, enters⟩
      have is := Table.get_of_mem sound.ids inRows
      rw [same, found] at is
      cases is
      exact enters (old.free unlocked)
    · exact .inr plain

theorem Row.Sound.apart (sound : row.Sound sha256 s) {w : Audit.Writing} {held : Nat}
    (locked : row.lockedBy = some held) (others : w.writer ≠ held)
    (writing : s.audit.writing = some w ∨ s.audit.writing = none) : row.entering = none := by
  cases enters : row.entering with
  | none => rfl
  | some seq =>
    obtain ⟨entry, head, is, -⟩ := sound.entering held seq locked enters
    rcases writing with holds | nothing
    · rw [is] at holds
      cases holds
      exact absurd rfl others
    · rw [is] at nothing
      cases nothing

theorem Row.Sound.keep_recorded (sound : row.Sound sha256 s) (others : row.lockedBy ≠ some session)
    (step : s.audit.act sha256 upper (.record session given) = some s'.audit)
    (chained : s'.chained = s.chained) : row.Sound sha256 s' := by
  obtain ⟨w, writer, holds, is⟩ := record_audit step
  have rows : s'.audit.rows = s.audit.rows ++ [] := by rw [is, List.append_nil]
  have links : s'.chained = s.chained ++ [] := by rw [chained, List.append_nil]
  refine sound.keep rows links (fun _ mem => absurd mem List.not_mem_nil) fun held locked => .inr ?_
  have differ : session ≠ held := fun same => others (same ▸ locked)
  refine ⟨sound.apart locked (writer ▸ differ) (holds.imp_right And.left), ?_⟩
  simp [State.writes, is, differ]

theorem State.Sound.enter (sound : s.Sound sha256) {now : Time.DateTime} {auditId : String}
    (step : s.act sha256 upper (.enter session now auditId) = some s') : s'.Sound sha256 := by
  obtain ⟨row, found, step⟩ := Option.bind_eq_some_iff.mp step
  split_ifs at step with able
  obtain ⟨db, recorded, step⟩ := Option.bind_eq_some_iff.mp step
  cases step
  obtain ⟨mem, locked⟩ := mine_mem found
  have old := sound.rows row mem
  have idle := old.reading session locked (Option.isNone_iff_eq_none.mp able)
  obtain ⟨w, writer, holds, is⟩ := record_audit recorded
  have nothing : s.audit.writing = none ∧ w.rows = [] := by
    refine holds.resolve_left fun holds => ?_
    simp [State.writes, holds, writer] at idle
  have writing : db.writing = some ⟨session,
      [Audit.nextEntry sha256 upper w.head (entryOf row.record now auditId)],
      ⟨(Audit.nextEntry sha256 upper w.head (entryOf row.record now auditId)).seq,
        (Audit.nextEntry sha256 upper w.head (entryOf row.record now auditId)).hash⟩⟩ := by
    rw [is, nothing.2]
    rfl
  have rows : db.rows = s.audit.rows := by rw [is]
  have others : ∀ other ∈ s.rows, other.id ≠ row.id → other.lockedBy ≠ some session :=
    fun other inRows differs same => differs (congrArg Row.id (sound.alone other inRows row mem session
      same locked))
  refine sound.rewrite mem rfl (fun _ _ differs => differs) ?_
    (fun other inRows differs => (sound.rows other inRows).keep_recorded (others other inRows differs)
      recorded rfl) (fun _ held => .inl held) ((congrArg _ rows).trans sound.links) sound.distinct ?_
  · refine ⟨old.waiting, fun entered => ?_, fun free => ?_, fun _ _ none => ?_, fun held seq mine enters => ?_⟩
    · rw [(old.chained entered).1] at locked
      cases locked
    · rw [free] at locked
      cases locked
    · rw [writing] at none
      cases none
    · obtain rfl := Option.some.inj (locked.symm.trans mine)
      rw [writing] at enters
      cases enters
      exact ⟨_, _, writing, rfl, entryOf_decision _ _ _ _⟩
  · intro w' holds
    refine .inl ⟨_, Table.mem_rewrite_self mem, ?_, ?_⟩
    · rw [show db.writing = some w' from holds] at writing
      cases writing
      exact locked
    · rw [writing]
      nofun

theorem State.Sound.recordElsewhere (sound : s.Sound sha256)
    (step : s.act sha256 upper (.elsewhere session given) = some s') : s'.Sound sha256 := by
  simp only [State.act] at step
  split_ifs at step with able
  obtain ⟨db, recorded, step⟩ := Option.bind_eq_some_iff.mp step
  cases step
  simp only [Bool.and_eq_true, Option.isNone_iff_eq_none] at able
  obtain ⟨plain, nobody⟩ := able
  obtain ⟨w, writer, holds, is⟩ := record_audit recorded
  refine ⟨sound.ids, fun row mem => ?_, sound.alone, ?_, sound.distinct, ?_⟩
  · exact (sound.rows row mem).keep_recorded (mine_none nobody mem) recorded rfl
  · simpa [is] using sound.links
  · intro w' writing
    simp only [is, Option.some.injEq] at writing
    subst writing
    refine .inr fun entry mem => ?_
    rcases List.mem_append.mp mem with earlier | last
    · rcases holds with holds | ⟨-, nothing⟩
      · rcases sound.elsewhere w holds with ⟨row, inRows, locked, -⟩ | others
        · exact absurd (writer ▸ locked) (mine_none nobody inRows)
        · exact others entry earlier
      · rw [nothing] at earlier
        cases earlier
    · obtain rfl := List.mem_singleton.mp last
      simp [decisionOf, Audit.nextEntry, plain]

theorem commit_cases (step : s.ended sha256 upper session .commit = some db) :
    s.writes session = false ∧ db = s.audit ∨
      ∃ w, s.audit.writing = some w ∧ w.writer = session ∧
        (∀ entry ∈ w.rows, ∀ other ∈ s.audit.rows, other.seq ≠ entry.seq) ∧
        db = { rows := s.audit.rows ++ w.rows, head := some w.head } := by
  refine (ended_cases step).imp_right ?_
  rintro ⟨w, holds, writer, step⟩
  simp only [Audit.Db.act, holds] at step
  split_ifs at step with fresh
  cases step
  exact ⟨w, holds, writer, by simpa using fresh, rfl⟩

theorem rollback_cases (step : s.ended sha256 upper session .rollback = some db) :
    s.writes session = false ∧ db = s.audit ∨
      ∃ w, s.audit.writing = some w ∧ w.writer = session ∧ db = { s.audit with writing := none } := by
  refine (ended_cases step).imp_right ?_
  rintro ⟨w, holds, writer, step⟩
  cases step
  exact ⟨w, holds, writer, rfl⟩

theorem Row.Sound.keep_ended (sound : row.Sound sha256 s) (others : row.lockedBy ≠ some session)
    (rows : s'.audit.rows = s.audit.rows ++ more) (chained : s'.chained = s.chained ++ later)
    (other : ∀ fields ∈ later, fields.decisionId ≠ row.id)
    (ended : s'.audit.writing = s.audit.writing ∨
      ∃ w, s.audit.writing = some w ∧ w.writer = session ∧ s'.audit.writing = none) :
    row.Sound sha256 s' := by
  refine sound.keep rows chained other fun held locked => ?_
  rcases ended with same | ⟨w, holds, writer, closed⟩
  · exact .inl same
  · have differ : w.writer ≠ held := fun same => others (by rw [locked, ← same, writer])
    exact .inr ⟨sound.apart locked differ (.inl holds), by simp [State.writes, closed]⟩

theorem State.Sound.rollback (sound : s.Sound sha256)
    (step : s.act sha256 upper (.rollback session) = some s') : s'.Sound sha256 := by
  obtain ⟨db, ends, step⟩ := Option.bind_eq_some_iff.mp step
  have rows : db.rows = s.audit.rows := by
    rcases rollback_cases ends with ⟨-, rfl⟩ | ⟨w, -, -, rfl⟩ <;> rfl
  have rows' : db.rows = s.audit.rows ++ [] := by rw [rows, List.append_nil]
  have chained : s.chained = s.chained ++ [] := (List.append_nil _).symm
  have ended : db.writing = s.audit.writing ∨
      ∃ w, s.audit.writing = some w ∧ w.writer = session ∧ db.writing = none := by
    rcases rollback_cases ends with ⟨-, rfl⟩ | ⟨w, holds, writer, rfl⟩
    · exact .inl rfl
    · exact .inr ⟨w, holds, writer, rfl⟩
  have links := (congrArg (List.filterMap decisionOf) rows).trans sound.links
  have open' : ∀ w, db.writing = some w → s.audit.writing = some w ∧ w.writer ≠ session := by
    intro w writing
    rcases rollback_cases ends with ⟨idle, rfl⟩ | ⟨_, -, -, rfl⟩
    · exact ⟨writing, fun same => by simp [State.writes, writing, same] at idle⟩
    · cases writing
  cases found : s.mine session with
  | none =>
    rw [found] at step
    cases step
    refine ⟨sound.ids, fun row mem => ?_, sound.alone, links, sound.distinct, fun w writing =>
      sound.elsewhere w (open' w writing).1⟩
    exact (sound.rows row mem).keep_ended (mine_none found mem) rows' chained
      (fun _ mem => absurd mem List.not_mem_nil) ended
  | some row =>
    rw [found] at step
    cases step
    obtain ⟨mem, locked⟩ := mine_mem found
    have old := sound.rows row mem
    have others : ∀ other ∈ s.rows, other.id ≠ row.id → other.lockedBy ≠ some session :=
      fun other inRows differs same => differs (congrArg Row.id (sound.alone other inRows row mem session
        same locked))
    refine sound.rewrite mem rfl (fun _ _ differs => differs) ?_
      (fun other inRows differs => (sound.rows other inRows).keep_ended (others other inRows differs)
        rows' chained (fun _ mem => absurd mem List.not_mem_nil) ended) nofun links sound.distinct ?_
    · refine ⟨old.waiting, fun entered => ?_, fun _ => rfl, nofun, nofun⟩
      rw [(old.chained entered).1] at locked
      cases locked
    · intro w writing
      obtain ⟨holds, differ⟩ := open' w writing
      rcases sound.elsewhere w holds with ⟨other, inRows, held, enters⟩ | plain
      · refine .inl ⟨other, Table.mem_rewrite_of_ne inRows fun same => ?_, held, enters⟩
        obtain rfl := List.inj_on_of_nodup_map sound.ids inRows mem same
        exact differ (Option.some.inj (held.symm.trans locked))
      · exact .inr plain

theorem State.Sound.modify (sound : s.Sound sha256) {columns : RAppDecisionRecord}
    (step : s.act sha256 upper (.modify decisionId columns) = some s') : s'.Sound sha256 := by
  obtain ⟨row, found, step⟩ := Option.bind_eq_some_iff.mp step
  split_ifs at step with able
  cases step
  simp only [Bool.and_eq_true, Option.isNone_iff_eq_none, List.all_eq_true, decide_eq_true_eq] at able
  obtain ⟨⟨entered, unlocked⟩, free⟩ := able
  have mem := Table.mem_of_get found
  obtain rfl := Table.key_of_get found
  have old := sound.rows row mem
  refine sound.rewrite mem rfl (fun other inRows differs => (free other inRows).resolve_left differs) ?_
    (fun other inRows _ => (sound.rows other inRows).same rfl rfl) (fun _ held => .inl held) sound.links
    sound.distinct ?_
  · refine ⟨fun waits => ?_, fun _ => ⟨unlocked, fun none_ => by cases none_⟩, old.free,
      fun _ locked => ?_, fun _ _ locked => ?_⟩
    · rw [entered] at waits
      cases waits
    · rw [unlocked] at locked
      cases locked
    · rw [unlocked] at locked
      cases locked
  · intro w writing
    rcases sound.elsewhere w writing with ⟨other, inRows, locked, enters⟩ | plain
    · refine .inl ⟨other, Table.mem_rewrite_of_ne inRows fun same => ?_, locked, enters⟩
      obtain rfl := List.inj_on_of_nodup_map sound.ids inRows mem same
      exact enters (old.free unlocked)
    · exact .inr plain

theorem State.Sound.purge (sound : s.Sound sha256) {decisionId : String}
    (step : s.act sha256 upper (.purge decisionId) = some s') : s'.Sound sha256 := by
  obtain ⟨row, found, step⟩ := Option.bind_eq_some_iff.mp step
  split_ifs at step with able
  cases step
  simp only [Bool.and_eq_true, Option.isNone_iff_eq_none] at able
  have mem := Table.mem_of_get found
  obtain rfl := Table.key_of_get found
  refine ⟨sound.ids.sublist (List.filter_sublist.map _), fun other inRows => ?_, ?_, sound.links,
    sound.distinct, ?_⟩
  · exact (sound.rows other (List.mem_of_mem_filter inRows)).same rfl rfl
  · exact fun first inRows second inRows' => sound.alone first (List.mem_of_mem_filter inRows) second
      (List.mem_of_mem_filter inRows')
  · intro w writing
    rcases sound.elsewhere w writing with ⟨other, inRows, locked, enters⟩ | plain
    · refine .inl ⟨other, List.mem_filter.mpr ⟨inRows, ?_⟩, locked, enters⟩
      refine decide_eq_true fun same => ?_
      obtain rfl := List.inj_on_of_nodup_map sound.ids inRows mem same
      exact enters ((sound.rows other mem).free able.2)
    · exact .inr plain

theorem State.Sound.release (sound : s.Sound sha256) (mem : row ∈ s.rows) (unentered : row.entering = none) :
    (s.put row.id { row with lockedBy := none }).Sound sha256 := by
  have old := sound.rows row mem
  refine sound.rewrite mem rfl (fun _ _ differs => differs) ?_
    (fun other inRows _ => (sound.rows other inRows).same rfl rfl) nofun sound.links sound.distinct ?_
  · exact ⟨old.waiting, fun entered => ⟨rfl, (old.chained entered).2⟩, fun _ => unentered, nofun, nofun⟩
  · intro w writing
    rcases sound.elsewhere w writing with ⟨other, inRows, locked, enters⟩ | plain
    · refine .inl ⟨other, Table.mem_rewrite_of_ne inRows fun same => ?_, locked, enters⟩
      obtain rfl := List.inj_on_of_nodup_map sound.ids inRows mem same
      exact enters unentered
    · exact .inr plain

theorem State.Sound.chain (sound : s.Sound sha256) (mem : row ∈ s.rows)
    (locked : row.lockedBy = some session) {seq : Int} {entry : AuditEntry} {head : Audit.AuditHead}
    (writing : s.audit.writing = some ⟨session, [entry], head⟩) (numbered : entry.seq = seq)
    (carries : decisionOf entry = some (link row.record))
    (fresh : ∀ other ∈ s.audit.rows, other.seq ≠ entry.seq) :
    State.Sound sha256
      { audit := { rows := s.audit.rows ++ [entry], head := some head }
        rows := (s.put row.id { row with
          record := { row.record with auditSeq := some seq }
          lockedBy := none
          entering := none
          entered := true }).rows
        chained := s.chained ++ [row.record.fields] } := by
  have old := sound.rows row mem
  have unentered : row.entered = false := by
    refine Bool.eq_false_iff.mpr fun entered => ?_
    rw [(old.chained entered).1] at locked
    cases locked
  obtain ⟨-, -, hash, newId⟩ := old.waiting unentered
  have found : (s.audit.rows ++ [entry]).find? (fun entry => entry.seq = seq) = some entry := by
    rw [List.find?_append, List.find?_eq_none.mpr fun other inRows => by
      simpa [← numbered] using fresh other inRows]
    simp [numbered]
  have links : link row.record =
      link { fields := row.record.fields, contentHash := decisionHash sha256 row.record.fields } := by
    rw [link, link, hash]
  refine sound.rewrite mem rfl (fun _ _ differs => differs) ?_ (fun other inRows differs => ?_) nofun ?_ ?_
    nofun
  · exact ⟨nofun, fun _ => ⟨rfl, fun _ => ⟨hash, seq, entry, rfl, found, carries⟩⟩, fun _ => rfl, nofun,
      nofun⟩
  · refine (sound.rows other inRows).keep_ended (fun same => differs (congrArg Row.id (sound.alone other
      inRows row mem session same locked))) rfl rfl (fun fields only => ?_) (.inr ⟨_, writing, rfl, rfl⟩)
    rw [List.mem_singleton.mp only]
    exact Ne.symm differs
  · simp only [List.filterMap_append, sound.links, List.map_append]
    simp [carries, links]
  · simp only [List.map_append, List.nodup_append]
    refine ⟨sound.distinct, List.nodup_singleton _, fun id earlier id' only same => ?_⟩
    obtain ⟨fields, inChained, rfl⟩ := List.mem_map.mp earlier
    rw [List.map_singleton, List.mem_singleton] at only
    exact newId fields inChained (same.trans only)

theorem State.Sound.commit (sound : s.Sound sha256)
    (step : s.act sha256 upper (.commit session) = some s') : s'.Sound sha256 := by
  obtain ⟨db, ends, step⟩ := Option.bind_eq_some_iff.mp step
  cases found : s.mine session with
  | none =>
    rw [found] at step
    cases step
    rcases commit_cases ends with ⟨-, rfl⟩ | ⟨w, holds, writer, -, rfl⟩
    · exact sound
    · have plain : w.rows.filterMap decisionOf = [] := by
        refine List.filterMap_eq_nil_iff.mpr ?_
        rcases sound.elsewhere w holds with ⟨row, mem, locked, -⟩ | plain
        · exact absurd (writer ▸ locked) (mine_none found mem)
        · exact plain
      refine ⟨sound.ids, fun row mem => ?_, sound.alone, ?_, sound.distinct, nofun⟩
      · exact (sound.rows row mem).keep_ended (mine_none found mem) rfl (List.append_nil _).symm
          (fun _ mem => absurd mem List.not_mem_nil) (.inr ⟨w, holds, writer, rfl⟩)
      · simpa [plain] using sound.links
  | some row =>
    obtain ⟨mem, locked⟩ := mine_mem found
    have old := sound.rows row mem
    rw [found] at step
    cases enters : row.entering with
    | none =>
      have idle := old.reading session locked enters
      rcases commit_cases ends with ⟨-, rfl⟩ | ⟨w, holds, writer, -⟩
      · simp only [enters, Option.some.injEq] at step
        subst step
        exact enters ▸ sound.release mem enters
      · simp [State.writes, holds, writer] at idle
    | some seq =>
      obtain ⟨entry, head, writing, numbered, carries⟩ := old.entering session seq locked enters
      rcases commit_cases ends with ⟨idle, -⟩ | ⟨w, holds, -, fresh, rfl⟩
      · simp [State.writes, writing] at idle
      · rw [writing] at holds
        cases holds
        simp only [enters, Option.some.injEq] at step
        subst step
        exact sound.chain mem locked writing numbered carries (fresh entry (List.mem_singleton.mpr rfl))

theorem State.Sound.step (sound : s.Sound sha256) {label : Act}
    (step : State.Step sha256 upper s label s') (careful : s.lapses label = false) : s'.Sound sha256 := by
  cases label with
  | record fields => exact sound.record step
  | pick session decisionId => exact sound.pick step careful
  | enter session now auditId => exact sound.enter step
  | elsewhere session given => exact sound.recordElsewhere step
  | commit session => exact sound.commit step
  | rollback session => exact sound.rollback step
  | modify decisionId columns => exact sound.modify step
  | purge decisionId => exact sound.purge step

end Invariant

section Verdicts

variable {s : State}

def initial : State := { audit := { head := some ⟨0, Audit.genesis⟩ } }

theorem initial_sound : initial.Sound sha256 where
  ids := List.nodup_nil
  rows _ mem := absurd mem List.not_mem_nil
  alone _ mem := absurd mem List.not_mem_nil
  links := rfl
  distinct := List.nodup_nil
  elsewhere := nofun

/-- What a read tells of the records: an untouched one is unchained until it is entered and verified
then, and a verified one is what was chained first. -/
structure State.Evident (sha256 : ByteArray → String) (s : State) : Prop where
  once : (s.audit.rows.filterMap decisionOf).Nodup ∧
    s.audit.rows.filterMap decisionOf =
      s.chained.map fun fields => link { fields, contentHash := decisionHash sha256 fields }
  distinct : (s.chained.map Decided.decisionId).Nodup
  untouched : ∀ row ∈ s.rows, row.touched = false →
    (row.id ∉ s.chained.map Decided.decisionId →
      integrity sha256 s.audit.rows row.record = .unchained) ∧
    (row.id ∈ s.chained.map Decided.decisionId →
      (integrity sha256 s.audit.rows row.record).isVerified = true)
  verified : ∀ row ∈ s.rows, (integrity sha256 s.audit.rows row.record).isVerified = true →
    s.chained.find? (fun fields => fields.decisionId = row.id) = some row.record.fields

theorem State.Sound.linked (sound : s.Sound sha256) {rec : RAppDecisionRecord}
    (chained : InChain s.audit.rows rec) : ∃ fields ∈ s.chained, fields.decisionId = rec.fields.decisionId ∧
      decisionHash sha256 fields = rec.contentHash := by
  obtain ⟨seq, entry, -, found, carries⟩ := chained
  have mem : link rec ∈ s.audit.rows.filterMap decisionOf :=
    List.mem_filterMap.mpr ⟨entry, List.mem_of_find?_eq_some found, carries⟩
  rw [sound.links] at mem
  obtain ⟨fields, inChained, same⟩ := List.mem_map.mp mem
  simp only [link, Prod.mk.injEq, Option.some.injEq] at same
  exact ⟨fields, inChained, Audit.text_injective same.1, Audit.text_injective same.2⟩

theorem State.Sound.evident (collisionFree : Function.Injective sha256) (sound : s.Sound sha256) :
    s.Evident sha256 := by
  refine ⟨⟨?_, sound.links⟩, sound.distinct, fun row mem untouched => ⟨fun absent => ?_, fun entered => ?_⟩,
    fun row mem verified => ?_⟩
  · rw [sound.links]
    refine List.pairwise_map.mpr ((List.pairwise_map.mp sound.distinct).imp fun differ same => differ ?_)
    exact Audit.text_injective (congrArg Prod.fst same)
  · have row_sound := sound.rows row mem
    have unentered : row.entered = false := by
      refine Bool.eq_false_iff.mpr fun entered => ?_
      obtain ⟨fields, inChained, same, -⟩ := sound.linked ((row_sound.chained entered).2 untouched).2
      exact absent (List.mem_map.mpr ⟨fields, inChained, same⟩)
    obtain ⟨-, unnamed, hash, -⟩ := row_sound.waiting unentered
    rw [integrity, if_neg (not_not.mpr hash.symm), unnamed]
  · have row_sound := sound.rows row mem
    have isEntered : row.entered = true := by
      refine Bool.eq_true_of_not_eq_false fun waits => ?_
      obtain ⟨fields, inChained, same⟩ := List.mem_map.mp entered
      exact (row_sound.waiting waits).2.2.2 fields inChained same
    obtain ⟨hash, chained⟩ := (row_sound.chained isEntered).2 untouched
    exact integrity_verified.mpr ⟨hash.symm, chained⟩
  · obtain ⟨hash, chained⟩ := integrity_verified.mp verified
    obtain ⟨fields, inChained, -, carried⟩ := sound.linked chained
    obtain rfl := decisionHash_injective collisionFree (carried.trans hash.symm)
    exact Table.get_of_mem sound.distinct inChained

/-- Every record is chained once and reads as verified from then on, and only with the fields that
were chained, in every run in which `chain_decisions` takes up no record that was chained before. -/
theorem decisions_evident (collisionFree : Function.Injective sha256) {trace : List (Runs.Step State Act)}
    (run : Run (State.Step sha256 upper) initial trace s)
    (careful : ∀ t ∈ trace, t.before.lapses t.label = false) : s.Evident sha256 := by
  have sound := run.invariant_of_guarded (State.Sound sha256) (fun s label => s.lapses label = false)
    initial_sound (fun _ _ _ sound careful step => sound.step step careful) careful
  exact sound.evident collisionFree

end Verdicts

section Sample

def recordText : String :=
  "\x7b\"action_id\":null,\"approval_id\":null,\"change_count\":1,\"correlation_id\":null,\"decided_at\":null,\"decided_by\":null,\"decision_id\":\"00000000-0000-0000-0000-00000000000d\",\"disposition\":\"DIRECT\",\"inputs_ref\":null,\"invoker_id\":\"inv-0\",\"job_id\":null,\"managed_elements\":[\"ME1\"],\"model_version\":null,\"occurred_at\":\"2026-10-04T12:00:00.000000Z\",\"rationale\":null,\"requested_by\":\"inv-0\"\x7d"

def recordHash : String := "2ff7388dd5bf0b2ce99d8398da7ef4b6cf573f507521a3fd0b45795a197305e6"

def rowText : String :=
  "\x7b\"action\":\"DECISION\",\"actor\":\"inv-0\",\"actor_role\":\"rapp\",\"audit_id\":\"00000000-0000-0000-0000-000000000001\",\"correlation_id\":null,\"detail\":\x7b\"contentHash\":\"2ff7388dd5bf0b2ce99d8398da7ef4b6cf573f507521a3fd0b45795a197305e6\",\"decisionId\":\"00000000-0000-0000-0000-00000000000d\",\"jobId\":null\x7d,\"occurred_at\":\"2026-10-04T12:00:01.000000Z\",\"prev_hash\":\"0000000000000000000000000000000000000000000000000000000000000000\",\"result\":\"DIRECT\",\"seq\":1,\"target\":\"/ran-nf-oam/decision-records/00000000-0000-0000-0000-00000000000d\"\x7d"

def rowHash : String := "d87b4ab71d0f01f903cddce7d72f15b0b215ddb10b74487ea9749a4bf938d17a"

def sampleHash (bytes : ByteArray) : String :=
  Equiv.swap (Audit.byteText rowText.toUTF8) rowHash
    (Equiv.swap (Audit.byteText recordText.toUTF8) recordHash (Audit.byteText bytes))

theorem hash_injective : Function.Injective sampleHash :=
  (Equiv.injective _).comp ((Equiv.injective _).comp Audit.byteText_injective)

theorem null_canonical : Json.canonical .null = true := rfl

def firstDecision : Decided where
  decisionId := "00000000-0000-0000-0000-00000000000d"
  occurredAt := Audit.firstRecord.now
  invokerId := "inv-0"
  requestedBy := "inv-0"
  disposition := "DIRECT"
  managedElements := ⟨.arr [.str (text "ME1")], by decide⟩
  changeCount := 1
  approvers := ⟨.null, null_canonical⟩

example : String.ofList (Json.dumps false true firstDecision.body) = recordText := by decide +kernel

def chaining (session : Nat) (auditId : String) : List Act :=
  [.pick session firstDecision.decisionId,
    .enter session { Audit.firstRecord.now with second := 1, times := by decide } auditId,
    .commit session]

def chained : List Act :=
  .record firstDecision :: chaining 0 "00000000-0000-0000-0000-000000000001"

/-- The record of another count of changes, with its own hash and not named in the chain. -/
def forged : RAppDecisionRecord :=
  let fields := { firstDecision with changeCount := 2 }
  { fields, contentHash := decisionHash sampleHash fields }

def laundered : List Act :=
  chained ++ .modify firstDecision.decisionId forged :: chaining 0 "00000000-0000-0000-0000-000000000002"

def next : State → Act → State := nextOf (State.act sampleHash String.toUpper)

theorem chained_evident : (chained.foldl next initial).Evident sampleHash := by
  have run : Run (State.Step sampleHash String.toUpper) initial
      (stepsOf next initial chained) (chained.foldl next initial) := run_enabled (by decide +kernel)
  exact decisions_evident hash_injective run (by decide +kernel)

/-- A record that was changed and chained again reads as verified. -/
theorem forged_verified : Function.Injective sampleHash ∧
    Run (State.Step sampleHash String.toUpper) initial (stepsOf next initial laundered)
      (laundered.foldl next initial) ∧
    ∃ row ∈ (laundered.foldl next initial).rows,
      (integrity sampleHash (laundered.foldl next initial).audit.rows row.record).isVerified = true ∧
      ((laundered.foldl next initial).chained.head?.map Decided.changeCount,
        row.record.fields.changeCount) = (some 1, 2) := by
  have run : Run (State.Step sampleHash String.toUpper) initial
      (stepsOf next initial laundered) (laundered.foldl next initial) := run_enabled (by decide +kernel)
  refine ⟨hash_injective, run, _, List.mem_cons_self, integrity_verified.mpr ⟨rfl, ?_⟩, rfl⟩
  exact ⟨2, _, rfl, rfl, decisionOf_eq.mpr ⟨rfl, rfl⟩⟩

end Sample

end Smo.RanNfOam.DecisionRecords
