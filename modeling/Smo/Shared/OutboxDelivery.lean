import Smo.Shared.OutboxClaims

/-! Which runs of the outbox keep its promises: those in which a drain sends a row, and records
what it met, only while no other drain has claimed the row. -/
namespace Smo.Outbox

open Runs

namespace Store

variable {settings : Settings} {s s' : Store} {act : Act} {drain : Drain} {d id : Nat}
  {row : NotificationOutbox}

def Sends (s : Store) (act : Act) (d id : Nat) : Prop :=
  ∃ i response drain held, act = .send d i response ∧ s.drains[d]? = some drain ∧
    drain.held[i]? = some held ∧ held.row.id = id

theorem Inv.sends (inv : Inv s) (taken : Taken settings s act s') (sends : Sends s act d id) :
    s.owner id = some d ∧ ∃ row, s.row id = some row ∧ row.status = .pending := by
  obtain ⟨i, response, drain, held, rfl, is, at_, rfl⟩ := sends
  cases taken with
  | @send _ now _ full held' row _ is' unsent current =>
    cases is.symm.trans is'
    cases at_.symm.trans unsent
    have owned : s.owner row.id = some d := by
      have running := running_some.mpr ⟨is, rfl⟩
      simpa [Store.current, touched, running, unsent] using current
    have claimed : row.id ∈ (Drain.mk now full [] none held' false).claims :=
      List.mem_map.mpr ⟨_, List.mem_of_getElem? unsent, rfl⟩
    obtain ⟨row', found, pending, -⟩ := (inv.drains d _ is).mine _ claimed owned
    exact ⟨owned, row', found, pending⟩
  | sessions _ quiet | enqueue _ _ _ quiet | drain _ quiet | drop _ _ _ _ _ quiet =>
    exact absurd rfl (quiet d i response)

def Settled (s : Store) (id : Nat) (status : Status) : Prop :=
  (∃ row, s.row id = some row ∧ row.status = status) ∨ id ∈ s.purged

theorem Settled.not_pending (inv : Inv s) {status : Status} (settled : s.Settled id status)
    (final : status ≠ .pending) : ¬ ∃ row, s.row id = some row ∧ row.status = .pending := by
  rintro ⟨row, found, pending⟩
  rcases settled with ⟨row', found', is⟩ | purged
  · cases found.symm.trans found'
    exact final (is.symm.trans pending)
  · obtain ⟨mem, same⟩ := row_some_mem found
    exact inv.apart id purged (List.mem_map.mpr ⟨row, mem, same⟩)

theorem Settled.updateRow {status : Status} (settled : s.Settled id status)
    {change : NotificationOutbox → NotificationOutbox} (keeps : ∀ row, (change row).id = row.id)
    {other : Nat} (ne : other ≠ id) : (s.updateRow other change).Settled id status := by
  rcases settled with ⟨row, found, is⟩ | purged
  · refine .inl ⟨row, ?_, is⟩
    rw [row_updateRow keeps, if_neg ne, found]
  · exact .inr purged

theorem Settled.taken (inv : Inv s) {status : Status} (settled : s.Settled id status)
    (final : status ≠ .pending) (taken : Taken settings s act s') : s'.Settled id status := by
  have apart := settled.not_pending inv final
  cases taken with
  | commit is =>
    rcases settled with ⟨row, found, is⟩ | purged
    · refine .inl ⟨row, ?_, is⟩
      exact (Table.get_append _ _).trans (by rw [show Table.get _ _ _ = some row from found]; rfl)
    · exact .inr purged
  | @claim d now other full queue held is due =>
    obtain ⟨row, found, due⟩ := Option.any_eq_true _ _ |>.mp due
    have pending : row.status = .pending ∧ row.nextAttemptAt ≤ now := by
      simpa [NotificationOutbox.due] using due
    refine settled.updateRow (claimed_id now) ?_
    rintro rfl
    exact apart ⟨row, found, pending.1⟩
  | @record d now full held row outcome is current =>
    refine settled.updateRow (flushed_id _ _) ?_
    rintro rfl
    obtain ⟨row', found, pending, -⟩ := (inv.drains d _ is).mine row.id List.mem_cons_self current
    exact apart ⟨row', found, pending⟩
  | @purge d now is =>
    rcases settled with ⟨row, found, is⟩ | purged
    · cases gone : old settings row now with
      | false =>
        refine .inl ⟨row, (Table.get_filter inv.keyed _).trans ?_, is⟩
        rw [show Table.get _ _ _ = some row from found]
        simp [gone]
      | true =>
        obtain ⟨mem, same⟩ := row_some_mem found
        exact .inr (List.mem_append_right _
          (List.mem_map.mpr ⟨row, List.mem_filter.mpr ⟨mem, gone⟩, same⟩))
    · exact .inr (List.mem_append_left _ purged)
  | _ => exact settled

theorem purged_taken (inv : Inv s) (taken : Taken settings s act s') (purged : id ∈ s'.purged)
    (stored : id ∉ s.purged) :
    ∃ row, s.row id = some row ∧ row.status = .sent ∧ row.createdAt + settings.retention < s.clock := by
  cases taken with
  | @purge d now is =>
    rcases List.mem_append.mp purged with before | removed
    · exact absurd before stored
    · obtain ⟨row, here, rfl⟩ := List.mem_map.mp removed
      obtain ⟨mem, is_old⟩ := List.mem_filter.mp here
      obtain ⟨sent, age⟩ : row.status = .sent ∧ row.createdAt + settings.retention < now := by
        simpa [old] using is_old
      exact ⟨row, Table.get_of_mem inv.keyed mem, sent,
        Nat.lt_of_lt_of_le age (inv.drains d _ is).started⟩
  | _ => exact absurd purged stored

theorem selected_of_due (mem : row ∈ s.rows) (due : row.due s.clock) :
    row.id ∈ s.selected settings none ∨ (s.selected settings none).length = settings.limit := by
  unfold selected
  generalize listed : List.insertionSort (older · ·) _ = rows
  have here : row ∈ rows := by
    rw [← listed, List.mem_insertionSort]
    exact List.mem_filter.mpr ⟨mem, by simpa using due⟩
  rcases Nat.le_total rows.length settings.limit with all | more
  · rw [List.take_of_length_le all]
    exact .inl (List.mem_map.mpr ⟨row, here, rfl⟩)
  · rw [List.length_map, List.length_take]
    exact .inr (Nat.min_eq_left more)

/-- While every row that is sent or recorded has been claimed by no other drain since: the rows
are those of the committed transactions, save SENT ones past their retention; a pending row is
due within the longest backoff; none is sent under the lease of another drain, and none after
its outcome, which stays. -/
theorem deliveries_of_current {clock : Nat} {trace : List (Runs.Step Store Act)}
    (run : Run (Step settings) { clock } trace s) (claimed : ∀ t ∈ trace, t.before.current t.label) :
    (∀ id, id ∈ s.committed ↔ id ∈ s.rows.map (·.id) ∨ id ∈ s.purged) ∧
    (∀ t ∈ trace, ∀ id ∈ t.after.purged, id ∉ t.before.purged → ∃ row, t.before.row id = some row ∧
      row.status = .sent ∧ row.createdAt + settings.retention < t.before.clock) ∧
    (∀ row ∈ s.rows, row.status = .pending → row.nextAttemptAt ≤ s.clock + 600 * second ∧
      (∀ later, row.nextAttemptAt ≤ later →
        row.id ∈ { s with clock := later }.selected settings none ∨
          ({ s with clock := later }.selected settings none).length = settings.limit) ∧
      ∀ d drain queue, row.nextAttemptAt ≤ drain.now →
        (s.claim d drain row.id queue).owner row.id = some d) ∧
    (∀ t ∈ trace, ∀ d id, Sends t.before t.label d id → ∀ e ≠ d, ∀ drain,
      t.before.drains[e]? = some drain → id ∈ drain.claims → drain.now + lease ≤ t.before.clock) ∧
    ∀ earlier t later, trace = earlier ++ t :: later → ∀ row ∈ t.before.rows, row.status ≠ .pending →
      ((∃ row' ∈ s.rows, row'.id = row.id ∧ row'.status = row.status) ∨ row.id ∈ s.purged) ∧
        ∀ u ∈ t :: later, ∀ d, ¬ Sends u.before u.label d row.id := by
  have keeps : ∀ s act s', Inv s → s.current act → s.Step settings act s' → Inv s' :=
    fun s act s' inv current step => inv.taken (taken_of_step step current)
  have inv : Inv s := run.invariant_of_guarded Inv (fun s act => s.current act) (inv_start clock)
    keeps claimed
  refine ⟨inv.stored, ?_, fun row mem pending => ⟨inv.soon row mem, fun later due => ?_,
    fun d drain queue due => ?_⟩, ?_, ?_⟩
  · refine run.transitions_of_guarded Inv (fun s act => s.current act) (inv_start clock) keeps
      (fun t => ∀ id ∈ t.after.purged, id ∉ t.before.purged → _) ?_ claimed
    intro s act s' inv current step id purged stored
    exact purged_taken inv (taken_of_step step current) purged stored
  · refine @selected_of_due _ { s with clock := later } row mem ?_
    simp [NotificationOutbox.due, pending, due]
  · have found : s.row row.id = some row := Table.get_of_mem inv.keyed mem
    simp [Store.claim, found, NotificationOutbox.due, pending, due, Store.setDrain]
  · refine run.transitions_of_guarded Inv (fun s act => s.current act) (inv_start clock) keeps
      (fun t => ∀ d id, Sends t.before t.label d id → _) ?_ claimed
    intro s act s' inv current step d id sends e ne drain is claim
    obtain ⟨owned, -⟩ := inv.sends (taken_of_step step current) sends
    refine (inv.drains e drain is).past id claim ?_
    rw [owned]
    exact fun same => ne (Option.some.inj same).symm
  · intro earlier t later same row mem final
    obtain ⟨before, step⟩ := run.split same
    have guarded : ∀ u ∈ t :: later, u.before.current u.label := fun u there =>
      claimed u (by rw [same]; exact List.mem_append_right _ there)
    have inv_t : Inv t.before := before.invariant_of_guarded Inv (fun s act => s.current act)
      (inv_start clock) keeps fun u there =>
        claimed u (by rw [same]; exact List.mem_append_left _ there)
    have after := (Run.refl.snoc step).append (run.rest same)
    have kept : ∀ s act s', Inv s ∧ s.Settled row.id row.status → s.current act →
        s.Step settings act s' → Inv s' ∧ s'.Settled row.id row.status :=
      fun s act s' holds current step =>
        have taken := taken_of_step step current
        ⟨holds.1.taken taken, holds.2.taken holds.1 final taken⟩
    have first : Inv t.before ∧ t.before.Settled row.id row.status :=
      ⟨inv_t, .inl ⟨row, Table.get_of_mem inv_t.keyed mem, rfl⟩⟩
    constructor
    · rcases (after.invariant_of_guarded _ (fun s act => s.current act) first kept guarded).2 with
        ⟨row', found, is⟩ | purged
      · obtain ⟨mem', id⟩ := row_some_mem found
        exact .inl ⟨row', mem', id, is⟩
      · exact .inr purged
    · refine after.transitions_of_guarded _ (fun s act => s.current act) first kept
        (fun u => ∀ d, ¬ Sends u.before u.label d row.id) ?_ guarded
      intro s act s' holds current step d sends
      obtain ⟨inv, settled⟩ := holds
      exact settled.not_pending inv final (inv.sends (taken_of_step step current) sends).2

section Examples

abbrev plainAct : Store → Act → Option Store := Store.act {}

def oneDelivery : List Act := [
  .begin, .enqueue 0 "ran-nf-oam" "http://rapp-1/events" .null .post true, .commit 0, .inline 0,
  .claim 0, .load 0, .send 0 0 (.answered 200), .record 0, .finish 0]

theorem delivered_once : ∃ trace s, Run (Step {}) { clock := 0 } trace s ∧ s.committed = [0] ∧
    ∀ id, id ∈ s.committed ↔ id ∈ s.rows.map (·.id) ∨ id ∈ s.purged := by
  have run := @run_enabled _ _ { clock := 0 } plainAct oneDelivery rfl
  have all : (stepsOf (nextOf plainAct) { clock := 0 } oneDelivery).all
      (fun t => t.before.current t.label) = true := rfl
  exact ⟨_, _, run, rfl, (deliveries_of_current run (List.all_eq_true.mp all)).1⟩

/-- A drain that is slow to send. Its lease passes, another drain claims the row and records it
DEAD, and then it is sent. -/
def slowDrain : List Act := [
  .begin, .enqueue 0 "ran-nf-oam" "http://rapp-1/events" .null .post true, .commit 0,
  .drain, .claim 0, .load 0, .tick lease, .drain, .claim 1, .load 1, .send 1 0 .refused, .record 1,
  .send 0 0 (.answered 200), .record 0]

/-- A row that was recorded DEAD is sent and becomes SENT. -/
theorem sent_after_dead : ∃ trace s, Run (Step {}) { clock := 0 } trace s ∧
    ∃ t ∈ trace, ∃ row ∈ t.before.rows, row.status = .dead ∧ Sends t.before t.label 0 row.id ∧
      ∃ row' ∈ s.rows, row'.id = row.id ∧ row'.status = .sent := by
  have run := @run_enabled _ _ { clock := 0 } plainAct slowDrain rfl
  refine ⟨_, _, run, _, List.mem_of_getElem? (i := 12) rfl, _, List.mem_of_getElem? (i := 0) rfl,
    rfl, ?_, _, List.mem_of_getElem? (i := 0) rfl, rfl, rfl⟩
  exact ⟨0, .answered 200, _, _, rfl, rfl, rfl, rfl⟩

end Examples

end Store
end Smo.Outbox
