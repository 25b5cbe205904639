import Smo.Shared.AuditChain

/-! The check of the audit chain against the writers: it finds nothing in what they leave, also
while they append, and it finds every other set of rows under the same head. -/
namespace Smo.Audit

open Runs

variable {sha256 : ByteArray → String} {upper : String → String}

def Db.Ready (sha256 : ByteArray → String) (s : Db) : Prop :=
  ∀ w, s.writing = some w → Linked sha256 s.lockedHead w.rows w.head

/-- What writers leave of the tables: rows only appended, linked from the head there was. -/
structure Appended (sha256 : ByteArray → String) (s s' : Db) (more : List AuditEntry) : Prop where
  rows : s'.rows = s.rows ++ more
  linked : Linked sha256 s.lockedHead more s'.lockedHead
  head : s'.head = none → s.head = none ∧ more = []
  nodup : (s.rows.map (·.seq)).Nodup → (s'.rows.map (·.seq)).Nodup

namespace Appended

variable {s s' s'' : Db} {more later : List AuditEntry}

theorem of_same (rows : s'.rows = s.rows) (head : s'.head = s.head) : Appended sha256 s s' [] where
  rows := by rw [rows, List.append_nil]
  linked := by
    rw [Db.lockedHead, Db.lockedHead, head]
    exact .nil
  head gone := ⟨head ▸ gone, rfl⟩
  nodup kept := rows ▸ kept

theorem trans (first : Appended sha256 s s' more) (second : Appended sha256 s' s'' later) :
    Appended sha256 s s'' (more ++ later) where
  rows := by rw [second.rows, first.rows, List.append_assoc]
  linked := first.linked.append second.linked
  head gone := by
    obtain ⟨gone, rfl⟩ := second.head gone
    obtain ⟨gone, rfl⟩ := first.head gone
    exact ⟨gone, rfl⟩
  nodup kept := second.nodup (first.nodup kept)

end Appended

theorem nextEntry_linked (head : AuditHead) (given : Recorded) :
    Linked sha256 head [nextEntry sha256 upper head given]
      ⟨(nextEntry sha256 upper head given).seq, (nextEntry sha256 upper head given).hash⟩ :=
  .cons rfl rfl rfl .nil

inductive Db.Taken (sha256 : ByteArray → String) (upper : String → String) (s : Db) : Db → Prop
  | record (w : Writing) (given : Recorded)
      (holds : s.writing = some w ∨ s.writing = none ∧ w.rows = [] ∧ w.head = s.lockedHead) :
      Taken sha256 upper s { s with
        writing := some ⟨w.writer, w.rows ++ [nextEntry sha256 upper w.head given],
          (nextEntry sha256 upper w.head given).seq, (nextEntry sha256 upper w.head given).hash⟩ }
  | commit (w : Writing) (holds : s.writing = some w)
      (fresh : ∀ entry ∈ w.rows, ∀ other ∈ s.rows, other.seq ≠ entry.seq) :
      Taken sha256 upper s { rows := s.rows ++ w.rows, head := some w.head }
  | rollback : Taken sha256 upper s { s with writing := none }

theorem Db.Step.taken {s s' : Db} {label : Act} (step : Db.Step sha256 upper s label s') :
    Db.Taken sha256 upper s s' := by
  cases label with
  | record writer given =>
    simp only [Db.Step, Db.act] at step
    generalize mine : s.writing.getD ⟨writer, [], s.lockedHead⟩ = w at step
    split_ifs at step with isWriter
    subst isWriter
    obtain rfl := Option.some.inj step
    refine .record w given ?_
    cases holds : s.writing with
    | none =>
      rw [holds] at mine
      exact .inr ⟨rfl, mine ▸ rfl, mine ▸ rfl⟩
    | some held => exact .inl (by rw [← mine, holds, Option.getD_some])
  | commit =>
    simp only [Db.Step, Db.act] at step
    split at step
    · rename_i w holds
      split_ifs at step with fresh
      obtain rfl := Option.some.inj step
      refine .commit w holds fun entry mem other inRows => ?_
      simpa using List.all_eq_true.mp (List.all_eq_true.mp fresh entry mem) other inRows
    · cases step
  | rollback =>
    obtain rfl := Option.some.inj step
    exact .rollback

theorem Db.Taken.appended {s s' : Db} (taken : Db.Taken sha256 upper s s')
    (ready : s.Ready sha256) : s'.Ready sha256 ∧ ∃ more, Appended sha256 s s' more := by
  cases taken with
  | record w given holds =>
    refine ⟨fun w' is => ?_, [], .of_same rfl rfl⟩
    obtain rfl := Option.some.inj is
    have before : Linked sha256 s.lockedHead w.rows w.head := by
      rcases holds with holds | ⟨-, rows, head⟩
      · exact ready w holds
      · rw [rows, head]
        exact .nil
    exact before.append (nextEntry_linked w.head given)
  | commit w holds fresh =>
    have linked := ready w holds
    refine ⟨nofun, w.rows, ⟨rfl, linked, nofun, fun kept => ?_⟩⟩
    rw [List.map_append]
    refine List.nodup_append.mpr ⟨kept, ?_, ?_⟩
    · exact List.pairwise_map.mpr (linked.sorted.imp fun less => less.ne)
    · intro n inRows m inMore
      obtain ⟨other, mem, rfl⟩ := List.mem_map.mp inRows
      obtain ⟨entry, mem', rfl⟩ := List.mem_map.mp inMore
      exact fresh entry mem' other mem
  | rollback => exact ⟨nofun, [], .of_same rfl rfl⟩

theorem appended {s s' : Db} {trace : List (Step Db Act)}
    (run : Run (Db.Step sha256 upper) s trace s') (ready : s.Ready sha256) :
    s'.Ready sha256 ∧ ∃ more, Appended sha256 s s' more := by
  refine run.invariant (fun s' => s'.Ready sha256 ∧ ∃ more, Appended sha256 s s' more)
    ⟨ready, [], .of_same rfl rfl⟩ fun _ _ _ ⟨ready, more, soFar⟩ step => ?_
  obtain ⟨ready, later, next⟩ := (Db.Step.taken step).appended ready
  exact ⟨ready, _, soFar.trans next⟩

section Verify

def numbered (rows : List AuditEntry) : List AuditEntry := rows.insertionSort (·.seq ≤ ·.seq)

/-- A chain that is intact as the check sees it, between the two heads that it read. -/
structure Intact (sha256 : ByteArray → String) (first : AuditHead) (rows : List AuditEntry)
    (head : Option AuditHead) (last : AuditHead) : Prop where
  linked : Linked sha256 ⟨0, genesis⟩ (numbered rows) last
  empty : head = none → last.lastSeq = 0
  within : ∀ h, head = some h → first.lastSeq ≤ last.lastSeq ∧ last.lastSeq ≤ h.lastSeq
  found : head ≠ none →
    seen first.lastSeq (if first.lastSeq = 0 then some genesis else none) (numbered rows) =
      some first.lastHash
  ends : ∀ h, head = some h → last.lastSeq = h.lastSeq → h.lastHash = last.lastHash

theorem scan_linked {rows : List AuditEntry} {last : AuditHead}
    (linked : Linked sha256 ⟨0, genesis⟩ rows last) (first : Int) (found : Option String) :
    scan sha256 first { found } rows =
      .ok ⟨last.lastSeq + 1, last.lastHash, seen first found rows⟩ := by
  refine scan_ok.mpr ⟨?_, rfl⟩
  rwa [Int.add_sub_cancel]

theorem verify_eq_none {first head : Option AuditHead} {rows : List AuditEntry} :
    verify sha256 first rows head = none ↔
      ∃ last, Intact sha256 (first.getD ⟨0, genesis⟩) rows head last := by
  rw [verify]
  generalize first.getD ⟨0, genesis⟩ = first
  constructor
  · intro passed
    cases read : scan sha256 first.lastSeq
        { found := if first.lastSeq = 0 then some genesis else none } (numbered rows) with
    | error problem =>
      rw [numbered] at read
      rw [read] at passed
      cases passed
    | ok s =>
      obtain ⟨linked, found⟩ := scan_ok.mp read
      rw [numbered] at read
      rw [read] at passed
      cases head with
      | none =>
        refine ⟨_, linked, fun _ => ?_, nofun, fun some => absurd rfl some, nofun⟩
        simpa using passed
      | some head =>
        dsimp only at passed
        split_ifs at passed with wrong
        simp only [not_or, ne_eq, not_not, not_and_not_right] at wrong
        obtain ⟨within, sameHash, ends⟩ := wrong
        exact ⟨_, linked, nofun, fun h is => Option.some.inj is ▸ within,
          fun _ => found.symm.trans sameHash, fun h is => Option.some.inj is ▸ ends⟩
  · rintro ⟨last, linked, empty, within, found, ends⟩
    rw [numbered] at linked found
    rw [scan_linked linked]
    cases head with
    | none => simp [empty rfl]
    | some head =>
      dsimp only
      rw [Int.add_sub_cancel, found nofun, if_neg]
      rintro (outside | other | ⟨atEnd, differs⟩)
      · exact outside (within head rfl)
      · exact other rfl
      · exact differs (ends head rfl atEnd)

end Verify

section Reading

variable {s s₁ s₂ s₃ : Db} {trace reading₁ reading₂ reading₃ : List (Step Db Act)}

theorem numbered_eq {rows : List AuditEntry} {a b : AuditHead} (linked : Linked sha256 a rows b) :
    numbered rows = rows :=
  (linked.sorted.imp fun less => less.le).insertionSort_eq

/-- What the check reads while writers append: the first head, then the rows, then the head. -/
structure Read (sha256 : ByteArray → String) (s s₁ s₂ s₃ : Db)
    (more₁ more₂ more₃ : List AuditEntry) : Prop where
  first : Appended sha256 s s₁ more₁
  rows : Appended sha256 s₁ s₂ more₂
  last : Appended sha256 s₂ s₃ more₃

theorem read_of_runs (ready : s.Ready sha256) (run₁ : Run (Db.Step sha256 upper) s reading₁ s₁)
    (run₂ : Run (Db.Step sha256 upper) s₁ reading₂ s₂)
    (run₃ : Run (Db.Step sha256 upper) s₂ reading₃ s₃) :
    ∃ more₁ more₂ more₃, Read sha256 s s₁ s₂ s₃ more₁ more₂ more₃ := by
  obtain ⟨ready₁, more₁, first⟩ := appended run₁ ready
  obtain ⟨ready₂, more₂, rows⟩ := appended run₂ ready₁
  obtain ⟨-, more₃, last⟩ := appended run₃ ready₂
  exact ⟨more₁, more₂, more₃, first, rows, last⟩

variable {more₁ more₂ more₃ : List AuditEntry}

theorem Read.passes (read : Read sha256 s s₁ s₂ s₃ more₁ more₂ more₃)
    (intact : Linked sha256 ⟨0, genesis⟩ s.rows s.lockedHead) :
    verify sha256 s₁.head s₂.rows s₃.head = none := by
  have upTo : Linked sha256 ⟨0, genesis⟩ (s.rows ++ more₁) s₁.lockedHead :=
    intact.append read.first.linked
  have rows : s₂.rows = (s.rows ++ more₁) ++ more₂ := by rw [read.rows.rows, read.first.rows]
  have whole := upTo.append read.rows.linked
  rw [← rows] at whole
  have length := upTo.lastSeq_eq
  have length₂ := read.rows.linked.lastSeq_eq
  have length₃ := read.last.linked.lastSeq_eq
  dsimp only at length
  have atEnd : ∀ h, s₃.head = some h → s₃.lockedHead = h := fun h is => by
    rw [Db.lockedHead, is, Option.getD_some]
  refine verify_eq_none.mpr ⟨s₂.lockedHead, ?_⟩
  change Intact sha256 s₁.lockedHead s₂.rows s₃.head s₂.lockedHead
  have sorted := numbered_eq whole
  refine ⟨sorted.symm ▸ whole, fun gone => ?_, fun h is => ?_, fun _ => ?_, fun h is same => ?_⟩
  · rw [Db.lockedHead, (read.last.head gone).1, Option.getD_none]
  · rw [← atEnd h is]
    omega
  · rw [sorted, rows, seen_cut upTo read.rows.linked]
    split_ifs with nothing zero
    · rw [nothing] at upTo
      rw [upTo.of_nil]
    · rw [nothing, List.length_nil] at length
      omega
    · rfl
  · rw [← atEnd h is] at same ⊢
    have none : more₃ = [] := List.length_eq_zero_iff.mp (by omega)
    have ended := read.last.linked
    rw [none] at ended
    rw [ended.of_nil]

theorem Intact.goes_on (collisionFree : Function.Injective sha256) {first last : AuditHead}
    {head : Option AuditHead} {rows written : List AuditEntry}
    (intact : Intact sha256 first rows head last) (present : head ≠ none)
    (upTo : Linked sha256 ⟨0, genesis⟩ written first) :
    ∃ later, numbered rows = written ++ later ∧ Linked sha256 first later last := by
  obtain ⟨h, is⟩ := Option.ne_none_iff_exists'.mp present
  have length := upTo.lastSeq_eq
  have found := intact.found present
  obtain ⟨b, front, back, whole, toB, fromB, atFirst⟩ :=
    intact.linked.cut (n := first.lastSeq) (by dsimp only at length ⊢; omega) (intact.within h is).1
  rw [whole, ← atFirst, seen_cut toB fromB] at found
  have heads : b = first := by
    cases first
    cases b
    rw [AuditHead.mk.injEq]
    refine ⟨atFirst, ?_⟩
    split_ifs at found with nothing zero
    · rw [nothing] at toB
      rw [(AuditHead.mk.inj toB.of_nil).2]
      exact Option.some.inj found
    · exact Option.some.inj found
  subst heads
  exact ⟨back, by rw [whole, toB.unique collisionFree upTo], fromB⟩

theorem filter_append {xs ys : List AuditEntry} {n : Int} (upTo : ∀ x ∈ xs, x.seq ≤ n)
    (after : ∀ y ∈ ys, n < y.seq) : (xs ++ ys).filter (·.seq ≤ n) = xs := by
  rw [List.filter_append, List.filter_eq_self.mpr fun x mem => decide_eq_true (upTo x mem),
    List.filter_eq_nil_iff.mpr fun y mem => by simpa using after y mem, List.append_nil]

theorem Read.detects (collisionFree : Function.Injective sha256) {rows : List AuditEntry}
    (read : Read sha256 { s with rows } s₁ s₂ s₃ more₁ more₂ more₃)
    (written : Linked sha256 ⟨0, genesis⟩ s.rows s.lockedHead) (keyed : (rows.map (·.seq)).Nodup)
    (passed : verify sha256 s₁.head s₂.rows s₃.head = none) : rows.Perm s.rows := by
  obtain ⟨last, intact⟩ := verify_eq_none.mp passed
  have started : Linked sha256 s.lockedHead more₁ s₁.lockedHead := read.first.linked
  have whole : s₂.rows = rows ++ (more₁ ++ more₂) := by
    rw [read.rows.rows, read.first.rows, List.append_assoc]
  have sameRows : (numbered s₂.rows).Perm (rows ++ (more₁ ++ more₂)) :=
    whole ▸ List.perm_insertionSort _ _
  by_cases gone : s₃.head = none
  · obtain ⟨gone₂, rfl⟩ := read.last.head gone
    obtain ⟨gone₁, rfl⟩ := read.rows.head gone₂
    obtain ⟨gone₀, rfl⟩ := read.first.head gone₁
    have length := intact.linked.lastSeq_eq
    have length' := written.lastSeq_eq
    rw [intact.empty gone] at length
    rw [Db.lockedHead, gone₀, Option.getD_none] at length'
    have found : numbered s₂.rows = [] :=
      List.length_eq_zero_iff.mp (by dsimp only at length; omega)
    have wrote : s.rows = [] := List.length_eq_zero_iff.mp (by dsimp only at length'; omega)
    rw [List.append_nil, List.append_nil, found] at sameRows
    rw [wrote]
    exact sameRows.symm
  · obtain ⟨later, front, goesOn⟩ := intact.goes_on collisionFree gone (written.append started)
    obtain ⟨h₃, is⟩ := Option.ne_none_iff_exists'.mp gone
    have appends : Linked sha256 s.lockedHead (more₁ ++ later) last := started.append goesOn
    have writes : Linked sha256 s.lockedHead (more₁ ++ more₂ ++ more₃) s₃.lockedHead :=
      (started.append read.rows.linked).append read.last.linked
    have nodup := read.last.nodup (read.rows.nodup (read.first.nodup keyed))
    rw [read.last.rows, whole, List.append_assoc, List.map_append] at nodup
    -- The writers give out every number after the head, so no row of the tampering has one.
    have before : ∀ row ∈ rows, row.seq ≤ s.lockedHead.lastSeq := by
      intro row mem
      by_contra after
      have inChain := sameRows.mem_iff.mpr (List.mem_append_left _ mem)
      have upToLast := (intact.linked.seq_mem row inChain).2
      have upToHead := (intact.within h₃ is).2
      have isHead : s₃.lockedHead = h₃ := by rw [Db.lockedHead, is, Option.getD_some]
      obtain ⟨other, wrote, same⟩ :=
        writes.exists_seq (n := row.seq) (by omega) (by rw [isHead]; omega)
      exact (List.nodup_append.mp nodup).2.2 _ (List.mem_map_of_mem mem) _
        (List.mem_map_of_mem wrote) same.symm
    have kept := sameRows.filter (·.seq ≤ s.lockedHead.lastSeq)
    rw [front, List.append_assoc, filter_append (fun row mem => (written.seq_mem row mem).2)
      (fun row mem => (appends.seq_mem row mem).1), filter_append before
      (fun row mem => ((started.append read.rows.linked).seq_mem row mem).1)] at kept
    exact kept.symm

end Reading

/-- From an empty database, whatever runs of any number of writers: the check finds nothing in
what they wrote, also while they go on between its reads; and where no two texts have one hash, it
finds every other set of rows that a tampering leaves under the head, also while they go on. -/
theorem chain_checked {start s : Db} {trace : List (Step Db Act)}
    (empty : start.rows = [] ∧ start.lockedHead = ⟨0, genesis⟩ ∧ start.writing = none)
    (run : Run (Db.Step sha256 upper) start trace s) :
    (∀ {reading₁ reading₂ reading₃ : List (Step Db Act)} {s₁ s₂ s₃ : Db},
      Run (Db.Step sha256 upper) s reading₁ s₁ → Run (Db.Step sha256 upper) s₁ reading₂ s₂ →
      Run (Db.Step sha256 upper) s₂ reading₃ s₃ →
        verify sha256 s₁.head s₂.rows s₃.head = none) ∧
    (Function.Injective sha256 → ∀ rows : List AuditEntry, (rows.map (·.seq)).Nodup →
      ¬ rows.Perm s.rows →
      ∀ {reading₁ reading₂ reading₃ : List (Step Db Act)} {s₁ s₂ s₃ : Db},
        Run (Db.Step sha256 upper) { s with rows } reading₁ s₁ →
        Run (Db.Step sha256 upper) s₁ reading₂ s₂ →
        Run (Db.Step sha256 upper) s₂ reading₃ s₃ →
          verify sha256 s₁.head s₂.rows s₃.head ≠ none) := by
  obtain ⟨noRows, atGenesis, idle⟩ := empty
  obtain ⟨ready, written, reached⟩ := appended run fun w holds => by rw [idle] at holds; cases holds
  have intact : Linked sha256 ⟨0, genesis⟩ s.rows s.lockedHead := by
    rw [reached.rows, noRows, List.nil_append, ← atGenesis]
    exact reached.linked
  constructor
  · intro _ _ _ s₁ s₂ s₃ run₁ run₂ run₃
    obtain ⟨more₁, more₂, more₃, read⟩ := read_of_runs ready run₁ run₂ run₃
    exact read.passes intact
  · intro collisionFree rows keyed changed _ _ _ s₁ s₂ s₃ run₁ run₂ run₃ passed
    obtain ⟨more₁, more₂, more₃, read⟩ := read_of_runs (s := { s with rows }) ready run₁ run₂ run₃
    exact changed (read.detects collisionFree intact keyed passed)

section Sample

def firstText : String :=
  "\x7b\"action\":\"POST\",\"actor\":\"inv-0\",\"actor_role\":\"rapp\",\"audit_id\":\"00000000-0000-0000-0000-000000000001\",\"correlation_id\":\"c0\",\"detail\":null,\"occurred_at\":\"2026-10-04T12:00:00.000000Z\",\"prev_hash\":\"0000000000000000000000000000000000000000000000000000000000000000\",\"result\":\"201\",\"seq\":1,\"target\":\"/dme/data-jobs/0\"\x7d"

def byteText (bytes : ByteArray) : String :=
  String.ofList (bytes.data.toList.map Char.ofUInt8)

def sampleHash (bytes : ByteArray) : String :=
  Equiv.swap (byteText firstText.toUTF8)
    "0eab66fbec43f80646871e46d5f9a8d9ecfdacd1c105f231fca502eec0aa8435" (byteText bytes)

theorem byteText_injective : Function.Injective byteText := by
  intro bytes bytes' same
  have codes : Function.Injective Char.ofUInt8 := fun m n same => by
    exact UInt8.toNat_inj.mp (congrArg Char.toNat same)
  exact ByteArray.ext (Array.toList_inj.mp
    (List.map_injective_iff.mpr codes (String.ofList_injective same)))

theorem sampleHash_injective : Function.Injective sampleHash :=
  (Equiv.injective _).comp byteText_injective

def firstRecord : Recorded where
  actor := "inv-0"
  action := "post"
  target := "/dme/data-jobs/0"
  result := "201"
  role := some "rapp"
  correlationId := some "c0"
  now := ⟨2026, 10, 4, 12, 0, 0, 0, by decide, by decide, by decide, by decide⟩
  auditId := "00000000-0000-0000-0000-000000000001"

def firstRow : AuditEntry := nextEntry sampleHash String.toUpper ⟨0, genesis⟩ firstRecord

example : firstRow.hash = "0eab66fbec43f80646871e46d5f9a8d9ecfdacd1c105f231fca502eec0aa8435" := by
  have text : String.ofList (Json.dumps false true firstRow.body) = firstText := by decide +kernel
  have hash : computeHash sampleHash firstRow = firstRow.hash :=
    (nextEntry_linked ⟨0, genesis⟩ firstRecord).of_singleton.2.2.1
  rw [← hash, computeHash, text, sampleHash, Equiv.swap_apply_left]

def firstWritten : Db := { rows := [firstRow], head := some ⟨1, firstRow.hash⟩ }

theorem chain_checked_first :
    (∃ trace, Run (Db.Step sampleHash String.toUpper) { head := some ⟨0, genesis⟩ } trace
      firstWritten) ∧
    verify sampleHash firstWritten.head firstWritten.rows firstWritten.head = none ∧
    verify sampleHash firstWritten.head [] firstWritten.head ≠ none := by
  have recorded : Db.Step sampleHash String.toUpper { head := some ⟨0, genesis⟩ }
      (.record 0 firstRecord)
      { head := some ⟨0, genesis⟩, writing := some ⟨0, [firstRow], 1, firstRow.hash⟩ } := rfl
  have committed : Db.Step sampleHash String.toUpper
      { head := some ⟨0, genesis⟩, writing := some ⟨0, [firstRow], 1, firstRow.hash⟩ } .commit
      firstWritten := rfl
  have run := (Run.refl.snoc recorded).snoc committed
  obtain ⟨passes, detects⟩ := chain_checked ⟨rfl, rfl, rfl⟩ run
  have tampered : Run (Db.Step sampleHash String.toUpper) { firstWritten with rows := [] } []
      { firstWritten with rows := [] } := .refl
  have found := detects sampleHash_injective [] .nil (by simp [firstWritten]) tampered tampered tampered
  exact ⟨⟨_, run⟩, passes .refl .refl .refl, found⟩

end Sample

end Smo.Audit
