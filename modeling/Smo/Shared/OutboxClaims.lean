import Smo.Shared.Outbox

/-! What holds of the outbox while a drain sends a row, and records what it met, only as the
last to claim it. -/
namespace Smo.Outbox

open Runs

theorem backoff_le (attempts : Nat) : backoff attempts ≤ 600 * second := by
  unfold backoff
  split <;> simp [second]

theorem flushed_nextAttemptAt (now : Nat) (outcome : Outcome) (loaded row : NotificationOutbox) :
    (loaded.flushed (loaded.recorded now outcome) row).nextAttemptAt = row.nextAttemptAt ∨
      (loaded.flushed (loaded.recorded now outcome) row).nextAttemptAt ≤ now + 600 * second := by
  have := backoff_le loaded.attempts
  simp only [NotificationOutbox.flushed]
  split
  · exact .inl rfl
  · rename_i moved
    unfold NotificationOutbox.recorded at moved ⊢
    split at moved
    · simp at moved
    · split at moved
      · rw [if_neg ‹_›, if_pos ‹_›]
        exact .inr (by simpa using this)
      · simp at moved

theorem claimed_id (now : Nat) (row : NotificationOutbox) : (row.claimed now).id = row.id := rfl

theorem flushed_id (loaded changed row : NotificationOutbox) :
    (loaded.flushed changed row).id = row.id := rfl

def Drain.claims (drain : Drain) : List Nat := drain.loading.toList ++ drain.held.map (·.row.id)

namespace Store

variable {settings : Settings} {s s' : Store} {act : Act} {drain drain' : Drain} {d id : Nat}
  {row : NotificationOutbox}

def touched (s : Store) : Act → Option (Nat × Nat)
  | .send d i _ => do
    let drain ← s.running d
    let held ← drain.held[i]?
    return (d, held.row.id)
  | .record d => do
    let drain ← s.running d
    let held ← drain.held.head?
    return (d, held.row.id)
  | _ => none

def current (s : Store) (act : Act) : Bool :=
  (s.touched act).all fun (d, id) => s.owner id = some d

def SameOpen (before after : List Session) : Prop :=
  ∀ (i : Nat) rows, after[i]? = some (Session.mk rows .open_) →
    rows = [] ∨ before[i]? = some (Session.mk rows .open_)

inductive Taken (settings : Settings) (s : Store) : Act → Store → Prop
  | tick {clock : Nat} (later : s.clock ≤ clock) : Taken settings s (.tick clock) { s with clock }
  | sessions {act : Act} {sessions : List Session} (same : SameOpen s.sessions sessions)
      (quiet : ∀ d i response, act ≠ .send d i response) :
      Taken settings s act { s with sessions }
  | enqueue {act : Act} {i : Nat} {rows : List NotificationOutbox} {row : NotificationOutbox}
      (is : s.sessions[i]? = some ⟨rows, .open_⟩) (fresh : row.id = s.nextId)
      (dueNow : row.nextAttemptAt = s.clock) (quiet : ∀ d i response, act ≠ .send d i response) :
      Taken settings s act { s.setSession i ⟨rows ++ [row], .open_⟩ with nextId := s.nextId + 1 }
  | commit {i : Nat} {rows : List NotificationOutbox} (is : s.sessions[i]? = some ⟨rows, .open_⟩) :
      Taken settings s (.commit i) { s.setSession i ⟨rows, .committed⟩ with
        rows := s.rows ++ rows
        committed := s.committed ++ rows.map (·.id) }
  | drain {act : Act} {sessions : List Session} {full : Bool} {ids : Option (List Nat)}
      (same : SameOpen s.sessions sessions) (quiet : ∀ d i response, act ≠ .send d i response) :
      Taken settings s act { s with
        sessions
        drains := s.drains ++ [{ now := s.clock, full, queue := s.selected settings ids }] }
  | claim {d now id : Nat} {full : Bool} {queue : List Nat} {held : List Held}
      (is : s.drains[d]? = some ⟨now, full, id :: queue, none, held, false⟩)
      (due : (s.row id).any (·.due now)) :
      Taken settings s (.claim d)
        { (s.updateRow id (.claimed now)).setDrain d ⟨now, full, queue, some id, held, false⟩ with
          owner := fun other => if other = id then some d else s.owner other }
  | skip {d now id : Nat} {full : Bool} {queue : List Nat} {held : List Held}
      (is : s.drains[d]? = some ⟨now, full, id :: queue, none, held, false⟩) :
      Taken settings s (.claim d) (s.setDrain d ⟨now, full, queue, none, held, false⟩)
  | load {d now id : Nat} {full : Bool} {queue : List Nat} {held : List Held}
      (is : s.drains[d]? = some ⟨now, full, queue, some id, held, false⟩) :
      Taken settings s (.load d) (s.setDrain d ⟨now, full, queue, none,
        held ++ ((s.row id).map fun row => Held.mk row none).toList, false⟩)
  | send {d now i : Nat} {full : Bool} {held : List Held} {row : NotificationOutbox}
      (response : Response) (is : s.drains[d]? = some ⟨now, full, [], none, held, false⟩)
      (unsent : held[i]? = some ⟨row, none⟩) (current : s.current (.send d i response)) :
      Taken settings s (.send d i response)
        (s.setDrain d ⟨now, full, [], none, held.set i ⟨row, some (Outbox.send response)⟩, false⟩)
  | record {d now : Nat} {full : Bool} {held : List Held} {row : NotificationOutbox} {outcome : Outcome}
      (is : s.drains[d]? = some ⟨now, full, [], none, ⟨row, some outcome⟩ :: held, false⟩)
      (current : s.owner row.id = some d) :
      Taken settings s (.record d)
        ((s.updateRow row.id (row.flushed (row.recorded now outcome))).setDrain d
          ⟨now, full, [], none, held, false⟩)
  | drop {act : Act} {d : Nat} {drain drain' : Drain} (is : s.drains[d]? = some drain)
      (now : drain'.now = drain.now) (queue : drain'.queue = drain.queue)
      (loading : drain'.loading = drain.loading) (held : drain'.held <:+ drain.held)
      (quiet : ∀ d i response, act ≠ .send d i response) :
      Taken settings s act (s.setDrain d drain')
  | purge {d now : Nat} (is : s.drains[d]? = some ⟨now, true, [], none, [], false⟩) :
      Taken settings s (.finish d)
        { s.setDrain d ⟨now, true, [], none, [], true⟩ with
          rows := s.rows.filter fun row => ¬ old settings row now
          purged := s.purged ++ (s.rows.filter (old settings · now)).map (·.id) }

theorem running_some : s.running d = some drain ↔ s.drains[d]? = some drain ∧ drain.ended = false := by
  simp [running, Option.filter_eq_some_iff]

variable {sessions : List Session} {session : Session} {i j : Nat}
  {rows : List NotificationOutbox} {change : NotificationOutbox → NotificationOutbox}

theorem sameOpen_set (shut : session.state ≠ .open_) :
    SameOpen sessions (sessions.set i session) := by
  intro j rows is
  rw [List.getElem?_set] at is
  split at is
  · split at is
    · cases is
      exact absurd rfl shut
    · cases is
  · exact .inr is

theorem sameOpen_begin (sessions : List Session) : SameOpen sessions (sessions ++ [Session.mk [] .open_]) := by
  intro i rows is
  rw [List.getElem?_append] at is
  split at is
  · exact .inr is
  · have : Session.mk rows .open_ = Session.mk [] .open_ :=
      List.mem_singleton.mp (List.mem_of_getElem? is)
    cases this
    exact .inl rfl

theorem taken_of_step (step : s.Step settings act s') (current : s.current act) :
    Taken settings s act s' := by
  unfold Step at step
  cases act with
  | tick clock =>
    simp only [Store.act, Option.ite_none_right_eq_some, Option.some.injEq] at step
    obtain ⟨later, rfl⟩ := step
    exact .tick later
  | begin =>
    cases step
    exact .sessions (sameOpen_begin _) nofun
  | enqueue i module destination payload method safe =>
    simp only [Store.act] at step
    split at step
    · rename_i rows is
      cases step
      cases safe with
      | true => exact .enqueue is rfl rfl nofun
      | false => exact .sessions (fun _ _ is => .inr is) nofun
    · cases step
  | commit i =>
    simp only [Store.act] at step
    split at step
    · rename_i rows is
      cases step
      exact .commit is
    · cases step
  | rollback i =>
    simp only [Store.act] at step
    split at step
    · cases step
      exact .sessions (sameOpen_set nofun) nofun
    · cases step
  | inline i =>
    simp only [Store.act] at step
    split at step
    · cases step
      exact .drain (sameOpen_set nofun) nofun
    · cases step
  | drain =>
    cases step
    exact .drain (fun _ _ is => .inr is) nofun
  | claim d =>
    simp only [Store.act] at step
    split at step
    · rename_i now full id queue held ended is
      obtain ⟨is, running⟩ := running_some.mp is
      cases running
      cases step
      unfold Store.claim
      split
      · exact .claim is ‹_›
      · exact .skip is
    · cases step
  | load d =>
    simp only [Store.act] at step
    split at step
    · rename_i now full queue id held ended is
      obtain ⟨is, running⟩ := running_some.mp is
      cases running
      cases step
      exact .load is
    · cases step
  | send d i response =>
    simp only [Store.act] at step
    split at step
    · rename_i now full held ended is
      obtain ⟨is, running⟩ := running_some.mp is
      cases running
      split at step
      · rename_i row unsent
        cases step
        exact .send response is unsent current
      · cases step
    · cases step
  | record d =>
    simp only [Store.act] at step
    split at step
    · rename_i now full row outcome held ended found
      obtain ⟨is, running⟩ := running_some.mp found
      cases running
      split at step
      · cases step
        have mine : s.owner row.id = some d := by
          simpa [Store.current, touched, found] using current
        unfold Store.record
        dsimp only
        split
        · split
          · exact .record is mine
          · exact .drop is rfl rfl rfl List.suffix_rfl nofun
        · exact .drop is rfl rfl rfl (List.suffix_cons _ _) nofun
      · cases step
    · cases step
  | finish d =>
    simp only [Store.act] at step
    split at step
    · rename_i now full ended is
      obtain ⟨is, running⟩ := running_some.mp is
      cases running
      cases step
      unfold Store.finish
      cases full with
      | true => exact .purge is
      | false => exact .drop is rfl rfl rfl List.suffix_rfl nofun
    · cases step
  | crash d =>
    simp only [Store.act] at step
    split at step
    · rename_i drain is
      cases step
      exact .drop (running_some.mp is).1 rfl rfl rfl List.suffix_rfl nofun
    · cases step

/-- What a drain may rely on: the rows that it was the last to claim are as it loaded them, and
of the others its lease is past. -/
structure Claims (s : Store) (d : Nat) (drain : Drain) : Prop where
  started : drain.now ≤ s.clock
  distinct : (drain.queue ++ drain.claims).Nodup
  mine : ∀ id ∈ drain.claims, s.owner id = some d →
    ∃ row, s.row id = some row ∧ row.status = .pending ∧ row.nextAttemptAt = drain.now + lease
  past : ∀ id ∈ drain.claims, s.owner id ≠ some d → drain.now + lease ≤ s.clock
  loaded : ∀ held ∈ drain.held, s.owner held.row.id = some d → s.row held.row.id = some held.row

structure Inv (s : Store) : Prop where
  keyed : (s.rows.map (·.id)).Nodup
  stored : ∀ id, id ∈ s.committed ↔ id ∈ s.rows.map (·.id) ∨ id ∈ s.purged
  apart : ∀ id ∈ s.purged, id ∉ s.rows.map (·.id)
  given : ∀ id ∈ s.committed, id < s.nextId
  soon : ∀ row ∈ s.rows, row.nextAttemptAt ≤ s.clock + 600 * second
  fresh : ∀ (i : Nat) rows, s.sessions[i]? = some (Session.mk rows .open_) →
    (rows.map (·.id)).Nodup ∧
      ∀ row ∈ rows, row.id < s.nextId ∧ row.id ∉ s.committed ∧ row.nextAttemptAt ≤ s.clock
  disjoint : ∀ (i j : Nat) rows rows', i ≠ j → s.sessions[i]? = some (Session.mk rows .open_) →
    s.sessions[j]? = some (Session.mk rows' .open_) → ∀ row ∈ rows, ∀ row' ∈ rows', row.id ≠ row'.id
  drains : ∀ (d : Nat) drain, s.drains[d]? = some drain → s.Claims d drain

theorem inv_start (clock : Nat) : Inv { clock } where
  keyed := List.nodup_nil
  stored := by simp
  apart := by simp
  given := by simp
  soon := by simp
  fresh := by simp
  disjoint := by simp
  drains := by simp

theorem Claims.next (inv : s.Claims d drain) (later : s.clock ≤ s'.clock)
    (now : drain'.now = drain.now) (distinct : (drain'.queue ++ drain'.claims).Nodup)
    (fewer : ∀ id ∈ drain'.claims, id ∈ drain.claims)
    (same : ∀ id ∈ drain'.claims, s'.owner id = some d → s.owner id = some d ∧ s'.row id = s.row id)
    (lost : ∀ id ∈ drain'.claims, s.owner id = some d → s'.owner id ≠ some d →
      drain.now + lease ≤ s'.clock)
    (loaded : ∀ held ∈ drain'.held, s'.owner held.row.id = some d →
      (∃ was ∈ drain.held, was.row = held.row) ∨ s.row held.row.id = some held.row) :
    s'.Claims d drain' where
  started := by
    rw [now]
    exact Nat.le_trans inv.started later
  distinct := distinct
  mine id mem owned := by
    obtain ⟨owned, row⟩ := same id mem owned
    rw [row, now]
    exact inv.mine id (fewer id mem) owned
  past id mem other := by
    rw [now]
    by_cases owned : s.owner id = some d
    · exact lost id mem owned other
    · exact Nat.le_trans (inv.past id (fewer id mem) owned) later
  loaded held mem owned := by
    have claimed : held.row.id ∈ drain'.claims :=
      List.mem_append_right _ (List.mem_map.mpr ⟨held, mem, rfl⟩)
    obtain ⟨was, row⟩ := same _ claimed owned
    rw [row]
    rcases loaded held mem owned with ⟨held', mem', is⟩ | here
    · rw [← is]
      exact inv.loaded held' mem' (by rw [is]; exact was)
    · exact here

theorem Claims.carried (inv : s.Claims d drain) (later : s.clock ≤ s'.clock)
    (same : ∀ id ∈ drain.claims, s'.owner id = some d → s.owner id = some d ∧ s'.row id = s.row id)
    (lost : ∀ id ∈ drain.claims, s.owner id = some d → s'.owner id ≠ some d →
      drain.now + lease ≤ s'.clock) : s'.Claims d drain :=
  inv.next later rfl inv.distinct (fun _ mem => mem) same lost fun held mem _ => .inl ⟨held, mem, rfl⟩

theorem drains_setDrain (valid : s.drains[d]? = some drain) {e : Nat} {other : Drain}
    (is : (s.setDrain d drain').drains[e]? = some other) :
    e = d ∧ other = drain' ∨ e ≠ d ∧ s.drains[e]? = some other := by
  obtain ⟨bound, -⟩ := List.getElem?_eq_some_iff.mp valid
  simp only [setDrain, List.getElem?_set] at is
  by_cases same : d = e
  · rw [if_pos same, if_pos bound] at is
    cases is
    exact .inl ⟨same.symm, rfl⟩
  · rw [if_neg same] at is
    exact .inr ⟨Ne.symm same, is⟩

theorem Inv.setDrain (inv : Inv s) (is : s.drains[d]? = some drain) (now : drain'.now = drain.now)
    (distinct : (drain'.queue ++ drain'.claims).Nodup)
    (fewer : ∀ id ∈ drain'.claims, id ∈ drain.claims)
    (loaded : ∀ held ∈ drain'.held, (∃ was ∈ drain.held, was.row = held.row) ∨
      s.row held.row.id = some held.row) : Inv (s.setDrain d drain') :=
  { inv with
    drains e other found := by
      rcases drains_setDrain is found with ⟨rfl, rfl⟩ | ⟨-, found⟩
      · exact (inv.drains e drain is).next (Nat.le_refl _) now distinct fewer (fun _ _ owned => ⟨owned, rfl⟩)
          (fun _ _ owned other => absurd owned other) fun held mem _ => loaded held mem
      · exact (inv.drains e other found).carried (Nat.le_refl _) (fun _ _ owned => ⟨owned, rfl⟩)
          fun _ _ owned other => absurd owned other }

theorem Inv.tick (inv : Inv s) {clock : Nat} (later : s.clock ≤ clock) : Inv { s with clock } :=
  { inv with
    soon row mem := Nat.le_trans (inv.soon row mem) (Nat.add_le_add_right later _)
    fresh i rows is := ⟨(inv.fresh i rows is).1, fun row mem =>
      let ⟨given, new, due⟩ := (inv.fresh i rows is).2 row mem
      ⟨given, new, Nat.le_trans due later⟩⟩
    drains d drain is := (inv.drains d drain is).carried later (fun _ _ owned => ⟨owned, rfl⟩)
      fun _ _ owned other => absurd owned other }

theorem Inv.sameOpen (inv : Inv s) (same : SameOpen s.sessions sessions) :
    Inv { s with sessions } :=
  { inv with
    fresh i rows is := by
      rcases same i rows is with rfl | was
      · simp
      · exact inv.fresh i rows was
    disjoint i j rows rows' ne is is' row mem row' mem' := by
      rcases same i rows is with rfl | was
      · cases mem
      · rcases same j rows' is' with rfl | was'
        · cases mem'
        · exact inv.disjoint i j rows rows' ne was was' row mem row' mem'
    drains d drain is := (inv.drains d drain is).carried (Nat.le_refl _)
      (fun _ _ owned => ⟨owned, rfl⟩) fun _ _ owned other => absurd owned other }

theorem sessions_set (is : (sessions.set i session)[j]? = some ⟨rows, .open_⟩) :
    i = j ∧ session = ⟨rows, .open_⟩ ∨ i ≠ j ∧ sessions[j]? = some ⟨rows, .open_⟩ := by
  rw [List.getElem?_set] at is
  split at is
  · split at is
    · cases is
      exact .inl ⟨‹_›, rfl⟩
    · cases is
  · exact .inr ⟨‹_›, is⟩

theorem mem_enqueued {rows' : List NotificationOutbox} {row' : NotificationOutbox}
    (is : sessions[i]? = some ⟨rows, .open_⟩)
    (found : (sessions.set i ⟨rows ++ [row], .open_⟩)[j]? = some ⟨rows', .open_⟩)
    (mem : row' ∈ rows') :
    (∃ old, sessions[j]? = some ⟨old, .open_⟩ ∧ row' ∈ old) ∨ i = j ∧ row' = row := by
  rcases sessions_set found with ⟨rfl, changed⟩ | ⟨-, found⟩
  · cases changed
    rcases List.mem_append.mp mem with mem | mem
    · exact .inl ⟨rows, is, mem⟩
    · exact .inr ⟨rfl, List.mem_singleton.mp mem⟩
  · exact .inl ⟨rows', found, mem⟩

theorem Inv.enqueue (inv : Inv s) (is : s.sessions[i]? = some ⟨rows, .open_⟩)
    (fresh : row.id = s.nextId) (dueNow : row.nextAttemptAt = s.clock) :
    Inv { s.setSession i ⟨rows ++ [row], .open_⟩ with nextId := s.nextId + 1 } := by
  have before : ∀ {j rows}, s.sessions[j]? = some (Session.mk rows .open_) → ∀ row' ∈ rows,
      row'.id < row.id := fun found row' mem => by
    have := ((inv.fresh _ _ found).2 row' mem).1
    omega
  have new : row.id ∉ s.committed := fun mem => by
    have := inv.given _ mem
    omega
  refine { inv with
    given := fun id mem => Nat.lt_succ_of_lt (inv.given id mem)
    fresh := fun j rows' found => ⟨?_, fun row' mem => ?_⟩
    disjoint := fun j k rows' rows'' ne found found' row' mem row'' mem' => ?_
    drains := fun d drain found => (inv.drains d drain found).carried (Nat.le_refl _)
      (fun _ _ owned => ⟨owned, rfl⟩) fun _ _ owned other => absurd owned other }
  · rcases sessions_set found with ⟨rfl, changed⟩ | ⟨-, found⟩
    · cases changed
      rw [List.map_append, List.nodup_append]
      refine ⟨(inv.fresh i rows is).1, List.nodup_singleton _, ?_⟩
      intro id mem id' mem'
      obtain ⟨row', held, rfl⟩ := List.mem_map.mp mem
      obtain rfl := List.mem_singleton.mp mem'
      exact Nat.ne_of_lt (before is row' held)
    · exact (inv.fresh j rows' found).1
  · rcases mem_enqueued is found mem with ⟨old, found, mem⟩ | ⟨-, rfl⟩
    · obtain ⟨given, new, due⟩ := (inv.fresh j old found).2 row' mem
      exact ⟨Nat.lt_succ_of_lt given, new, due⟩
    · exact ⟨by dsimp only; omega, new, Nat.le_of_eq dueNow⟩
  · rcases mem_enqueued is found mem with ⟨old, found, mem⟩ | ⟨rfl, rfl⟩
    · rcases mem_enqueued is found' mem' with ⟨old', found', mem'⟩ | ⟨-, rfl⟩
      · exact inv.disjoint j k old old' ne found found' row' mem row'' mem'
      · exact Nat.ne_of_lt (before ‹_› row' mem)
    · rcases mem_enqueued is found' mem' with ⟨old', found', mem'⟩ | ⟨rfl, -⟩
      · exact Nat.ne_of_gt (before found' row'' mem')
      · exact absurd rfl ne

theorem row_some_mem (found : s.row id = some row) : row ∈ s.rows ∧ row.id = id :=
  ⟨Table.mem_of_get found, Table.key_of_get found⟩

theorem Inv.commit (inv : Inv s) (is : s.sessions[i]? = some ⟨rows, .open_⟩) :
    Inv { s.setSession i ⟨rows, .committed⟩ with
      rows := s.rows ++ rows
      committed := s.committed ++ rows.map (·.id) } := by
  obtain ⟨nodup, each⟩ := inv.fresh i rows is
  have new : ∀ id ∈ rows.map (·.id), id ∉ s.committed := fun id mem => by
    obtain ⟨row, held, rfl⟩ := List.mem_map.mp mem
    exact (each row held).2.1
  have stays : ∀ {j rows'}, (s.sessions.set i ⟨rows, .committed⟩)[j]? = some (Session.mk rows' .open_) →
      i ≠ j ∧ s.sessions[j]? = some (Session.mk rows' .open_) := fun found => by
    rcases sessions_set found with ⟨-, changed⟩ | stays
    · cases changed
    · exact stays
  constructor
  case keyed =>
    rw [List.map_append, List.nodup_append]
    refine ⟨inv.keyed, nodup, fun id mem id' mem' same => new id' mem' ?_⟩
    rw [← same]
    exact (inv.stored id).mpr (.inl mem)
  case stored =>
    intro id
    simp only [List.map_append, List.mem_append, inv.stored]
    exact or_right_comm
  case apart =>
    intro id purged mem
    rw [List.map_append, List.mem_append] at mem
    rcases mem with mem | mem
    · exact inv.apart id purged mem
    · exact new id mem ((inv.stored id).mpr (.inr purged))
  case given =>
    intro id mem
    rcases List.mem_append.mp mem with mem | mem
    · exact inv.given id mem
    · obtain ⟨row, held, rfl⟩ := List.mem_map.mp mem
      exact (each row held).1
  case soon =>
    intro row mem
    rcases List.mem_append.mp mem with mem | mem
    · exact inv.soon row mem
    · exact Nat.le_trans (each row mem).2.2 (Nat.le_add_right _ _)
  case fresh =>
    intro j rows' found
    obtain ⟨ne, found⟩ := stays found
    obtain ⟨nodup', each'⟩ := inv.fresh j rows' found
    refine ⟨nodup', fun row' mem => ?_⟩
    obtain ⟨given, new', due⟩ := each' row' mem
    refine ⟨given, fun committed => ?_, due⟩
    rcases List.mem_append.mp committed with old | here
    · exact new' old
    · obtain ⟨row, here, same⟩ := List.mem_map.mp here
      exact inv.disjoint i j rows rows' ne is found row here row' mem same
  case disjoint =>
    intro j k rows' rows'' ne found found'
    exact inv.disjoint j k rows' rows'' ne (stays found).2 (stays found').2
  case drains =>
    intro d drain found
    refine (inv.drains d drain found).carried (Nat.le_refl _) (fun id mem owned => ⟨owned, ?_⟩)
      fun _ _ owned other => absurd owned other
    obtain ⟨row, here, -⟩ := (inv.drains d drain found).mine id mem owned
    rw [here]
    simp only [Store.row, Table.get_append] at here ⊢
    rw [here, Option.some_or]

theorem selected_nodup (inv : Inv s) (ids : Option (List Nat)) : (s.selected settings ids).Nodup := by
  have nodup : ((s.rows.filter fun row =>
      row.due s.clock && ids.all (·.contains row.id)).map (·.id)).Nodup :=
    inv.keyed.sublist (List.filter_sublist.map _)
  have sorted := ((List.perm_insertionSort (older · ·) _).map (·.id)).nodup_iff.mpr nodup
  exact sorted.sublist ((List.take_sublist _ _).map _)

theorem Inv.startDrain (inv : Inv s) (full : Bool) (ids : Option (List Nat)) :
    Inv { s with drains := s.drains ++ [{ now := s.clock, full, queue := s.selected settings ids }] } :=
  { inv with
    drains d drain found := by
      rw [List.getElem?_append] at found
      split at found
      · exact (inv.drains d drain found).carried (Nat.le_refl _) (fun _ _ owned => ⟨owned, rfl⟩)
          fun _ _ owned other => absurd owned other
      · obtain rfl := List.mem_singleton.mp (List.mem_of_getElem? found)
        exact {
          started := Nat.le_refl _
          distinct := by simpa [Drain.claims] using selected_nodup inv ids
          mine := by simp [Drain.claims]
          past := by simp [Drain.claims]
          loaded := by simp } }

theorem row_updateRow (keeps : ∀ row, (change row).id = row.id) (other : Nat) :
    (s.updateRow id change).row other = if id = other then (s.row other).map change else s.row other :=
  Table.get_modify change keeps

theorem mem_updateRow (mem : row ∈ (s.updateRow id change).rows) :
    row ∈ s.rows ∨ ∃ was ∈ s.rows, change was = row := by
  obtain ⟨was, here, rfl⟩ := List.mem_map.mp mem
  split
  · exact .inr ⟨was, here, rfl⟩
  · exact .inl here

theorem ids_updateRow {change : NotificationOutbox → NotificationOutbox}
    (keeps : ∀ row, (change row).id = row.id) :
    (s.updateRow id change).rows.map (·.id) = s.rows.map (·.id) :=
  Table.keys_modify change keeps

theorem Inv.updateRow (inv : Inv s) {owner : Nat → Option Nat}
    (keeps : ∀ row, (change row).id = row.id)
    (soon : ∀ row ∈ s.rows, (change row).nextAttemptAt ≤ s.clock + 600 * second)
    (is : s.drains[d]? = some drain)
    (one : Claims { (s.updateRow id change).setDrain d drain' with owner } d drain')
    (rest : ∀ e ≠ d, ∀ other, s.drains[e]? = some other →
      Claims { (s.updateRow id change).setDrain d drain' with owner } e other) :
    Inv { (s.updateRow id change).setDrain d drain' with owner } where
  keyed := by
    have := inv.keyed
    rwa [← @ids_updateRow s id change keeps] at this
  stored := by
    have := inv.stored
    rwa [← @ids_updateRow s id change keeps] at this
  apart := by
    have := inv.apart
    rwa [← @ids_updateRow s id change keeps] at this
  given := inv.given
  soon row mem := by
    rcases mem_updateRow mem with here | ⟨was, here, rfl⟩
    · exact inv.soon row here
    · exact soon was here
  fresh := inv.fresh
  disjoint := inv.disjoint
  drains e other found := by
    rcases drains_setDrain (s := s.updateRow id change) is found with ⟨rfl, rfl⟩ | ⟨ne, found⟩
    · exact one
    · exact rest e ne other found

theorem Inv.claim (inv : Inv s) {now : Nat} {full : Bool} {queue : List Nat} {held : List Held}
    (is : s.drains[d]? = some ⟨now, full, id :: queue, none, held, false⟩)
    (due : (s.row id).any (·.due now)) :
    Inv { (s.updateRow id (.claimed now)).setDrain d ⟨now, full, queue, some id, held, false⟩ with
      owner := fun other => if other = id then some d else s.owner other } := by
  have claims := inv.drains d _ is
  have started : now ≤ s.clock := claims.started
  obtain ⟨row, found, due⟩ := Option.any_eq_true _ _ |>.mp due
  obtain ⟨pending, due⟩ : row.status = .pending ∧ row.nextAttemptAt ≤ now := by
    simpa [NotificationOutbox.due] using due
  have distinct := claims.distinct
  simp only [Drain.claims, Option.toList_none, List.nil_append, List.cons_append,
    List.nodup_cons] at distinct
  have rows : ∀ other, (s.updateRow id (.claimed now)).row other =
      if id = other then (s.row other).map (.claimed now) else s.row other :=
    row_updateRow (claimed_id now)
  refine inv.updateRow (claimed_id now) (fun row _ => ?_) is ?_ fun e ne other there => ?_
  · simp only [NotificationOutbox.claimed, lease]
    omega
  · have held_ne : ∀ other ∈ held.map (·.row.id), other ≠ id := fun other mem same =>
      distinct.1 (List.mem_append_right _ (by rwa [← same]))
    constructor
    case started => exact started
    case distinct => exact (List.perm_middle.nodup_iff).mpr (List.nodup_cons.mpr distinct)
    case mine =>
      intro other mem owned
      rcases List.mem_cons.mp mem with rfl | mem
      · refine ⟨row.claimed now, (rows other).trans ?_, pending, rfl⟩
        rw [if_pos rfl, found, Option.map_some]
      · have ne := held_ne other mem
        obtain ⟨row', here, is'⟩ := claims.mine other mem (by simpa [ne] using owned)
        refine ⟨row', (rows other).trans ?_, is'⟩
        rw [if_neg (Ne.symm ne), here]
    case past =>
      intro other mem lost
      rcases List.mem_cons.mp mem with rfl | mem
      · simp at lost
      · exact claims.past other mem (by simpa [held_ne other mem] using lost)
    case loaded =>
      intro h mem owned
      have ne := held_ne _ (List.mem_map.mpr ⟨h, mem, rfl⟩)
      refine (rows h.row.id).trans ?_
      rw [if_neg (Ne.symm ne)]
      exact claims.loaded h mem (by simpa [ne] using owned)
  · have inv' := inv.drains e other there
    refine inv'.carried (Nat.le_refl _) (fun j mem owned => ?_) fun j mem owned lost => ?_
    · have apart : j ≠ id := by
        rintro rfl
        simp [Ne.symm ne] at owned
      refine ⟨by simpa [apart] using owned, (rows j).trans ?_⟩
      rw [if_neg (Ne.symm apart)]
    · -- a drain that was the last to claim the row: it is due, so that lease is past
      obtain ⟨row', here, -, leased⟩ := inv'.mine j mem owned
      have same : j = id := by
        by_contra apart
        exact lost (by simpa [apart] using owned)
      rw [same, found] at here
      cases here
      exact Nat.le_trans (by omega) started

theorem Inv.load (inv : Inv s) {now : Nat} {full : Bool} {queue : List Nat} {held : List Held}
    (is : s.drains[d]? = some ⟨now, full, queue, some id, held, false⟩) :
    Inv (s.setDrain d ⟨now, full, queue, none,
      held ++ ((s.row id).map fun row => Held.mk row none).toList, false⟩) := by
  have distinct := (inv.drains d _ is).distinct
  have was : (Drain.mk now full queue (some id) held false).claims = id :: held.map (·.row.id) := rfl
  rw [was] at distinct
  cases found : s.row id with
  | none =>
    refine inv.setDrain is rfl ?_ (fun other mem => ?_) fun h mem => ?_
    · refine distinct.sublist ((List.Sublist.refl queue).append ?_)
      simp [Drain.claims]
    · rw [was]
      exact List.mem_cons_of_mem _ (by simpa [Drain.claims] using mem)
    · exact .inl ⟨h, by simpa using mem, rfl⟩
  | some row =>
    obtain ⟨-, rfl⟩ := row_some_mem found
    have now_ : (Drain.mk now full queue none (held ++ [⟨row, none⟩]) false).claims =
        held.map (·.row.id) ++ [row.id] := by simp [Drain.claims]
    refine inv.setDrain is rfl ?_ (fun other mem => ?_) fun h mem => ?_
    · refine (List.Perm.nodup_iff ?_).mpr distinct
      exact (List.Perm.refl queue).append ((List.Perm.of_eq now_).trans List.perm_append_comm)
    · rw [was]
      exact List.perm_append_comm.mem_iff.mp (now_ ▸ mem)
    · rcases List.mem_append.mp mem with mem | mem
      · exact .inl ⟨h, mem, rfl⟩
      · obtain rfl := List.mem_singleton.mp mem
        exact .inr found

theorem Inv.record (inv : Inv s) {now : Nat} {full : Bool} {held : List Held} {outcome : Outcome}
    (is : s.drains[d]? = some ⟨now, full, [], none, ⟨row, some outcome⟩ :: held, false⟩)
    (current : s.owner row.id = some d) :
    Inv ((s.updateRow row.id (row.flushed (row.recorded now outcome))).setDrain d
      ⟨now, full, [], none, held, false⟩) := by
  have claims := inv.drains d _ is
  have started : now ≤ s.clock := claims.started
  have distinct : (row.id :: held.map (·.row.id)).Nodup := claims.distinct
  obtain ⟨here, distinct⟩ := List.nodup_cons.mp distinct
  have rows : ∀ other, other ≠ row.id →
      (s.updateRow row.id (row.flushed (row.recorded now outcome))).row other = s.row other :=
    fun other ne => (row_updateRow (flushed_id _ _) other).trans (if_neg (Ne.symm ne))
  refine inv.updateRow (flushed_id _ _) (fun row' mem => ?_) is ?_ fun e ne other there => ?_
  · have old := inv.soon row' mem
    rcases flushed_nextAttemptAt now outcome row row' with same | near <;> omega
  · have ne : ∀ other ∈ held.map (·.row.id), other ≠ row.id := fun other mem same =>
      here (by rwa [← same])
    refine claims.next (Nat.le_refl _) rfl distinct (fun other mem => List.mem_cons_of_mem _ mem)
      (fun other mem owned => ⟨owned, rows other (ne other mem)⟩)
      (fun _ _ owned lost => absurd owned lost)
      fun h mem _ => .inl ⟨h, List.mem_cons_of_mem _ mem, rfl⟩
  · refine (inv.drains e other there).carried (Nat.le_refl _) (fun j _ owned => ⟨owned, rows j ?_⟩)
      fun _ _ owned lost => absurd owned lost
    rintro rfl
    have owned : s.owner row.id = some e := owned
    rw [current] at owned
    exact ne (Option.some.inj owned).symm

theorem Inv.purge (inv : Inv s) (now : Nat) : Inv { s with
    rows := s.rows.filter fun row => ¬ old settings row now
    purged := s.purged ++ (s.rows.filter (old settings · now)).map (·.id) } where
  keyed := inv.keyed.sublist (List.filter_sublist.map _)
  stored id := by
    simp only [inv.stored, List.mem_append, List.mem_map, List.mem_filter, Bool.not_eq_true,
      decide_eq_true_eq]
    constructor
    · rintro (⟨row, mem, rfl⟩ | purged)
      · cases gone : old settings row now with
        | false => exact .inl ⟨row, ⟨mem, gone⟩, rfl⟩
        | true => exact .inr (.inr ⟨row, ⟨mem, gone⟩, rfl⟩)
      · exact .inr (.inl purged)
    · rintro (⟨row, ⟨mem, -⟩, rfl⟩ | purged | ⟨row, ⟨mem, -⟩, rfl⟩)
      · exact .inl ⟨row, mem, rfl⟩
      · exact .inr purged
      · exact .inl ⟨row, mem, rfl⟩
  apart id purged mem := by
    obtain ⟨row, kept, rfl⟩ := List.mem_map.mp mem
    obtain ⟨here, stays⟩ := List.mem_filter.mp kept
    rcases List.mem_append.mp purged with before | gone
    · exact inv.apart row.id before (List.mem_map.mpr ⟨row, here, rfl⟩)
    · obtain ⟨row', removed, same⟩ := List.mem_map.mp gone
      obtain ⟨there, is⟩ := List.mem_filter.mp removed
      obtain rfl := List.inj_on_of_nodup_map inv.keyed there here same
      simp [is] at stays
  given := inv.given
  soon row mem := inv.soon row (List.mem_of_mem_filter mem)
  fresh := inv.fresh
  disjoint := inv.disjoint
  drains d drain is := by
    refine (inv.drains d drain is).carried (Nat.le_refl _) (fun j mem owned => ⟨owned, ?_⟩)
      fun _ _ owned lost => absurd owned lost
    obtain ⟨row, found, pending, -⟩ := (inv.drains d drain is).mine j mem owned
    refine (Table.get_filter inv.keyed _).trans ?_
    rw [show Table.get _ _ _ = some row from found, found]
    simp [old, pending]

theorem Inv.taken (inv : Inv s) (taken : Taken settings s act s') : Inv s' := by
  cases taken with
  | tick later => exact inv.tick later
  | sessions same => exact inv.sameOpen same
  | enqueue is fresh dueNow => exact inv.enqueue is fresh dueNow
  | commit is => exact inv.commit is
  | @drain _ sessions full ids same => exact (inv.startDrain full ids).sameOpen same
  | claim is due => exact inv.claim is due
  | skip is =>
    have distinct := (inv.drains _ _ is).distinct
    exact inv.setDrain is rfl (List.nodup_cons.mp distinct).2 (fun _ mem => mem)
      fun h mem => .inl ⟨h, mem, rfl⟩
  | load is => exact inv.load is
  | @send d now i full held row response is unsent =>
    have rows : (held.set i ⟨row, some (Outbox.send response)⟩).map (·.row.id) = held.map (·.row.id) := by
      refine List.ext_getElem? fun j => ?_
      simp only [List.getElem?_map, List.getElem?_set]
      split
      · rename_i same
        subst same
        obtain ⟨bound, -⟩ := List.getElem?_eq_some_iff.mp unsent
        rw [if_pos bound, unsent]
        rfl
      · rfl
    have distinct : (held.map (·.row.id)).Nodup := (inv.drains _ _ is).distinct
    refine inv.setDrain is rfl (by rwa [← rows] at distinct) (fun id mem => ?_) fun h mem => .inl ?_
    · change id ∈ held.map (·.row.id)
      rw [← rows]
      exact mem
    · rcases List.mem_or_eq_of_mem_set mem with mem | rfl
      · exact ⟨h, mem, rfl⟩
      · exact ⟨_, List.mem_of_getElem? unsent, rfl⟩
  | record is current => exact inv.record is current
  | @drop _ d drain drain' is now queue loading held =>
    have distinct := (inv.drains _ _ is).distinct
    have fewer : drain'.claims.Sublist drain.claims := by
      unfold Drain.claims
      rw [loading]
      exact (List.Sublist.refl _).append (held.sublist.map _)
    refine inv.setDrain is now ?_ (fun id mem => fewer.subset mem)
      fun h mem => .inl ⟨h, held.subset mem, rfl⟩
    rw [queue]
    exact distinct.sublist ((List.Sublist.refl _).append fewer)
  | @purge d now is =>
    have ended : Inv (s.setDrain d ⟨now, true, [], none, [], true⟩) :=
      inv.setDrain is rfl List.nodup_nil nofun nofun
    exact ended.purge now

end Store
end Smo.Outbox
