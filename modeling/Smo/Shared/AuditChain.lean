import Smo.Shared.Audit

/-! What the check of the audit chain tells: nothing while writers append, and every change of
the rows that leaves the head, as long as no two texts have one hash. -/
namespace Smo.Audit

open Json (Text Value)
open Runs

variable {sha256 : ByteArray → String} {upper : String → String}

section Body

theorem text_injective {s s' : String} (same : text s = text s') : s = s' :=
  String.toList_injective (List.map_injective_iff.mpr (fun _ _ same => Char.toNat_inj.mp same) same)

theorem text_scalar (s : String) : (text s).all Json.isScalar = true := by
  refine List.all_eq_true.mpr fun point mem => ?_
  obtain ⟨c, -, rfl⟩ := List.mem_map.mp mem
  have valid := c.valid
  have same : c.toNat = c.val.toNat := rfl
  simp only [UInt32.isValidChar, Nat.isValidChar] at valid
  simp only [Json.isScalar, Bool.or_eq_true, Bool.and_eq_true, decide_eq_true_eq]
  omega

def AuditEntry.sorted (entry : AuditEntry) : Value :=
  .obj [
    (text "action", .str (text entry.action)), (text "actor", .str (text entry.actor)),
    (text "actor_role", optional entry.actorRole), (text "audit_id", .str (text entry.auditId)),
    (text "correlation_id", optional entry.correlationId), (text "detail", entry.detail.1),
    (text "occurred_at", .str (text (iso entry.occurredAt))),
    (text "prev_hash", .str (text entry.prevHash)), (text "result", .str (text entry.result)),
    (text "seq", .int entry.seq), (text "target", .str (text entry.target))]

theorem dumps_body (entry : AuditEntry) :
    Json.dumps false true entry.body = Json.dumps false true entry.sorted := by
  simp only [AuditEntry.body, AuditEntry.sorted, Json.dumps, Json.dumpsEntries, Json.arranged, if_pos]
  rfl

theorem optional_canonical (s : Option String) : Json.canonical (optional s) = true := by
  cases s with
  | none => rfl
  | some s => exact text_scalar s

theorem optional_injective {s s' : Option String} (same : optional s = optional s') : s = s' := by
  cases s <;> cases s' <;> simp only [optional, Option.elim, Value.str.injEq, reduceCtorEq] at same
  · rfl
  · rw [text_injective same]

theorem sorted_canonical (entry : AuditEntry) : Json.canonical entry.sorted = true := by
  have names : ([text "action", text "actor", text "actor_role", text "audit_id",
      text "correlation_id", text "detail", text "occurred_at", text "prev_hash", text "result",
      text "seq", text "target"] : List Text).Pairwise (· < ·) := by decide
  simp only [AuditEntry.sorted, Json.canonical, Json.canonicalEntries, Bool.and_eq_true,
    decide_eq_true_eq, text_scalar, optional_canonical, entry.detail.2, and_self, and_true]
  exact names

theorem iso_injective {t t' : Time.DateTime} (same : iso t = iso t') : t = t' :=
  (Time.DateTime.written_injective (String.ofList_injective same)).1

theorem sorted_injective {e e' : AuditEntry} (same : e.sorted = e'.sorted) (hash : e.hash = e'.hash) :
    e = e' := by
  simp only [AuditEntry.sorted, Value.obj.injEq, List.cons.injEq, Prod.mk.injEq, Value.str.injEq,
    Value.int.injEq, true_and, and_true] at same
  obtain ⟨action, actor, actorRole, auditId, correlationId, detail, occurredAt, prevHash, result, seq,
    target⟩ := same
  cases e
  cases e'
  simp only [AuditEntry.mk.injEq]
  exact ⟨seq, text_injective auditId, iso_injective (text_injective occurredAt), text_injective actor,
    optional_injective actorRole, text_injective action, text_injective target, text_injective result,
    optional_injective correlationId, Subtype.ext detail, text_injective prevHash, hash⟩

theorem computeHash_injective (collisionFree : Function.Injective sha256) {e e' : AuditEntry}
    (own : computeHash sha256 e = e.hash) (own' : computeHash sha256 e' = e'.hash)
    (same : e.hash = e'.hash) : e = e' := by
  rw [← own, ← own'] at same
  have texts := String.ofList_injective (String.toByteArray_inj.mp (collisionFree same))
  rw [dumps_body, dumps_body] at texts
  refine sorted_injective (Json.dumps_injective (sorted_canonical e) (sorted_canonical e') texts) ?_
  rw [← own, ← own', same]

end Body

inductive Linked (sha256 : ByteArray → String) : AuditHead → List AuditEntry → AuditHead → Prop
  | nil {head : AuditHead} : Linked sha256 head [] head
  | cons {head last : AuditHead} {entry : AuditEntry} {rows : List AuditEntry}
      (next : entry.seq = head.lastSeq + 1) (prev : entry.prevHash = head.lastHash)
      (own : computeHash sha256 entry = entry.hash)
      (later : Linked sha256 ⟨entry.seq, entry.hash⟩ rows last) :
      Linked sha256 head (entry :: rows) last

namespace Linked

variable {a b c : AuditHead} {xs ys : List AuditEntry}

theorem append (first : Linked sha256 a xs b) (second : Linked sha256 b ys c) :
    Linked sha256 a (xs ++ ys) c := by
  induction first with
  | nil => exact second
  | cons next prev own _ ih => exact .cons next prev own (ih second)

theorem split (linked : Linked sha256 a (xs ++ ys) c) :
    ∃ b, Linked sha256 a xs b ∧ Linked sha256 b ys c := by
  induction xs generalizing a with
  | nil => exact ⟨a, .nil, linked⟩
  | cons x xs ih =>
    cases linked with
    | cons next prev own later =>
      obtain ⟨b, first, second⟩ := ih later
      exact ⟨b, .cons next prev own first, second⟩

theorem lastSeq_eq (linked : Linked sha256 a xs b) : b.lastSeq = a.lastSeq + xs.length := by
  induction linked with
  | nil => simp
  | cons next _ _ _ ih =>
    simp only [List.length_cons, next] at ih ⊢
    omega

theorem seq_mem (linked : Linked sha256 a xs b) :
    ∀ entry ∈ xs, a.lastSeq < entry.seq ∧ entry.seq ≤ b.lastSeq := by
  induction linked with
  | nil => nofun
  | cons next prev own later ih =>
    intro other mem
    have more := later.lastSeq_eq
    rcases List.mem_cons.mp mem with rfl | mem
    · dsimp only at more
      omega
    · have := ih other mem
      dsimp only at this
      omega

theorem exists_seq (linked : Linked sha256 a xs b) {n : Int} (after : a.lastSeq < n)
    (within : n ≤ b.lastSeq) : ∃ entry ∈ xs, entry.seq = n := by
  induction linked with
  | nil => omega
  | @cons _ _ entry _ next prev own later ih =>
    by_cases here : entry.seq = n
    · exact ⟨entry, List.mem_cons_self, here⟩
    · obtain ⟨other, mem, is⟩ := ih (by dsimp only; omega) within
      exact ⟨other, List.mem_cons_of_mem _ mem, is⟩

theorem sorted (linked : Linked sha256 a xs b) : xs.Pairwise fun x y => x.seq < y.seq := by
  induction linked with
  | nil => exact .nil
  | cons next prev own later ih => exact .cons (fun other mem => (later.seq_mem other mem).1) ih

theorem of_nil (linked : Linked sha256 a [] b) : b = a := by
  cases linked
  rfl

theorem of_singleton {entry : AuditEntry} (linked : Linked sha256 a [entry] b) :
    entry.seq = a.lastSeq + 1 ∧ entry.prevHash = a.lastHash ∧
      computeHash sha256 entry = entry.hash ∧ b = ⟨entry.seq, entry.hash⟩ := by
  cases linked with
  | cons next prev own later =>
    cases later
    exact ⟨next, prev, own, rfl⟩

theorem unique (collisionFree : Function.Injective sha256) (first : Linked sha256 a xs c)
    (second : Linked sha256 a ys c) : xs = ys := by
  induction xs using List.reverseRecOn generalizing ys c with
  | nil =>
    have none := first.lastSeq_eq
    have as := second.lastSeq_eq
    rw [List.length_nil] at none
    exact (List.length_eq_zero_iff.mp (by omega)).symm
  | append_singleton xs x ih =>
    have length := first.lastSeq_eq
    have length' := second.lastSeq_eq
    rw [List.length_append, List.length_singleton] at length
    rcases List.eq_nil_or_concat ys with rfl | ⟨ys, y, rfl⟩
    · rw [List.length_nil] at length'
      omega
    · rw [List.concat_eq_append] at second ⊢
      obtain ⟨b, toX, atX⟩ := first.split
      obtain ⟨b', toY, atY⟩ := second.split
      obtain ⟨seq, prev, own, rfl⟩ := atX.of_singleton
      obtain ⟨seq', prev', own', same⟩ := atY.of_singleton
      obtain rfl := computeHash_injective collisionFree own own' (AuditHead.mk.inj same).2
      have heads : b = b' := by
        cases b
        cases b'
        simp only at seq seq' prev prev'
        rw [AuditHead.mk.injEq]
        exact ⟨by omega, prev.symm.trans prev'⟩
      subst heads
      rw [ih toX toY]

theorem cut (linked : Linked sha256 a xs c) {n : Int} (after : a.lastSeq ≤ n)
    (within : n ≤ c.lastSeq) :
    ∃ b ys zs, xs = ys ++ zs ∧ Linked sha256 a ys b ∧ Linked sha256 b zs c ∧ b.lastSeq = n := by
  have length := linked.lastSeq_eq
  have whole : xs = xs.take (n - a.lastSeq).toNat ++ xs.drop (n - a.lastSeq).toNat :=
    (List.take_append_drop _ xs).symm
  rw [whole] at linked
  obtain ⟨b, first, second⟩ := linked.split
  refine ⟨b, _, _, whole, first, second, ?_⟩
  have taken := first.lastSeq_eq
  rw [List.length_take] at taken
  omega

end Linked

section Scan

/-- The hash that the check has found for the number `first`. -/
def seen (first : Int) (found : Option String) (rows : List AuditEntry) : Option String :=
  rows.foldl (fun found entry => if entry.seq = first then some entry.hash else found) found

theorem seen_cut {a b c : AuditHead} {xs ys : List AuditEntry} (first : Linked sha256 a xs b)
    (second : Linked sha256 b ys c) (found : Option String) :
    seen b.lastSeq found (xs ++ ys) = if xs = [] then found else some b.lastHash := by
  have unseen : ∀ zs : List AuditEntry, (∀ entry ∈ zs, b.lastSeq < entry.seq) →
      ∀ found, seen b.lastSeq found zs = found := by
    intro zs after
    induction zs with
    | nil => exact fun _ => rfl
    | cons z zs ih =>
      intro found
      have other : z.seq ≠ b.lastSeq := (after z List.mem_cons_self).ne'
      rw [seen, List.foldl_cons, if_neg other]
      exact ih (fun entry mem => after entry (List.mem_cons_of_mem _ mem)) found
  have tail := unseen ys fun entry mem => (second.seq_mem entry mem).1
  rw [seen, List.foldl_append]
  refine (tail _).trans ?_
  rcases List.eq_nil_or_concat xs with rfl | ⟨front, last, rfl⟩
  · rfl
  · rw [List.concat_eq_append] at first ⊢
    obtain ⟨_, -, atLast⟩ := first.split
    obtain ⟨-, -, -, rfl⟩ := atLast.of_singleton
    rw [List.foldl_append, List.foldl_cons, List.foldl_nil, if_pos rfl, if_neg (by simp)]

theorem scan_ok {first : Int} {s s' : Scan} {rows : List AuditEntry} :
    scan sha256 first s rows = .ok s' ↔
      Linked sha256 ⟨s.expectedSeq - 1, s.previous⟩ rows ⟨s'.expectedSeq - 1, s'.previous⟩ ∧
        s'.found = seen first s.found rows := by
  induction rows generalizing s with
  | nil =>
    rw [scan, Except.ok.injEq]
    refine ⟨fun same => same ▸ ⟨.nil, rfl⟩, fun ⟨linked, found⟩ => ?_⟩
    obtain ⟨n, hash⟩ := AuditHead.mk.inj linked.of_nil
    cases s
    cases s'
    rw [Scan.mk.injEq]
    exact ⟨by dsimp only at n; omega, hash.symm, found.symm⟩
  | cons entry rows ih =>
    rw [scan, seen, List.foldl_cons, ← seen]
    generalize (if entry.seq = first then some entry.hash else s.found) = found
    split_ifs with seq prev own
    · refine ⟨nofun, fun ⟨linked, _⟩ => ?_⟩
      cases linked with
      | cons next => exact absurd (by dsimp only at next; omega) seq
    · refine ⟨nofun, fun ⟨linked, _⟩ => ?_⟩
      cases linked with
      | cons _ is => exact absurd is prev
    · refine ⟨nofun, fun ⟨linked, _⟩ => ?_⟩
      cases linked with
      | cons _ _ is => exact absurd is own
    · rw [ne_eq, not_not] at seq prev own
      rw [ih, Int.add_sub_cancel]
      constructor
      · rintro ⟨later, found⟩
        exact ⟨Linked.cons (by dsimp only; omega) prev own later, found⟩
      · rintro ⟨linked, found⟩
        cases linked with
        | cons _ _ _ later => exact ⟨later, found⟩

end Scan
end Smo.Audit
