import Smo.GuiBff.Users

/-! The console keeps an active admin when no request takes one away that another has overtaken. -/
namespace Smo.GuiBff.Users

def Backed (users : List GuiUser) (username : String) : Prop :=
  ∃ other, other ≠ username ∧ isActiveAdmin users other = true

def Write.Keeps : Write → Prop
  | .delete => False
  | .change columns => columns.role.all (· = .admin) = true ∧ columns.active ≠ some false

section Commits

variable {users after : List GuiUser} {username other : String} {write : Write} {user : GuiUser}

theorem activeAdmin_of_mem (distinct : (users.map (·.username)).Nodup) (mem : user ∈ users)
    (admin : user.activeAdmin = true) : isActiveAdmin users user.username = true := by
  unfold isActiveAdmin user?
  rw [Table.get_of_mem distinct mem]
  exact admin

theorem activeAdmins_pos : 1 ≤ activeAdmins users ↔ ∃ user ∈ users, user.activeAdmin = true := by
  unfold activeAdmins
  rw [Nat.one_le_iff_ne_zero, Ne, List.length_eq_zero_iff, List.filter_eq_nil_iff]
  simp

theorem counted_of_activeAdmin (admin : isActiveAdmin users other = true) :
    1 ≤ activeAdmins users := by
  unfold isActiveAdmin at admin
  cases found : user? users other with
  | none =>
    rw [found] at admin
    cases admin
  | some user =>
    rw [found] at admin
    exact activeAdmins_pos.mpr ⟨user, Table.mem_of_get found, admin⟩

theorem backed_of_two (distinct : (users.map (·.username)).Nodup)
    (two : ¬activeAdmins users ≤ 1) (username : String) : Backed users username := by
  refine Classical.byContradiction fun alone => two ?_
  have named : ∀ name ∈ (users.filter (·.activeAdmin)).map (·.username), name = username := by
    intro name mem
    obtain ⟨user, inUsers, rfl⟩ := List.mem_map.mp mem
    obtain ⟨there, admin⟩ := List.mem_filter.mp inUsers
    exact Classical.byContradiction fun differs =>
      alone ⟨user.username, differs, activeAdmin_of_mem distinct there admin⟩
  have apart : ((users.filter (·.activeAdmin)).map (·.username)).Nodup :=
    distinct.sublist (List.filter_sublist.map _)
  rw [List.eq_replicate_of_mem named, List.nodup_replicate, List.length_map] at apart
  exact apart

theorem commit_other (ok : write.commit users username = .ok after) (differs : other ≠ username) :
    isActiveAdmin after other = isActiveAdmin users other := by
  unfold Write.commit at ok
  unfold isActiveAdmin user?
  cases write with
  | delete =>
    cases ok
    have kept := @Table.get_filter_key _ _ _ GuiUser.username users other (· ≠ username)
    simp only [differs, ne_eq, not_false_eq_true, decide_true, if_true] at kept
    rw [kept]
  | change columns =>
    simp only at ok
    split at ok
    · cases ok
      rfl
    · split at ok
      · cases ok
        rw [Table.get_modify columns.write fun _ => rfl, if_neg (Ne.symm differs)]
      · cases ok

theorem commit_distinct (ok : write.commit users username = .ok after)
    (distinct : (users.map (·.username)).Nodup) : (after.map (·.username)).Nodup := by
  unfold Write.commit at ok
  cases write with
  | delete =>
    cases ok
    exact distinct.sublist (List.filter_sublist.map _)
  | change columns =>
    simp only at ok
    split at ok
    · cases ok
      exact distinct
    · split at ok
      · cases ok
        rw [Table.keys_modify columns.write fun _ => rfl]
        exact distinct
      · cases ok

theorem commit_keeps (ok : write.commit users username = .ok after)
    (left : takes users after username = false) (admin : isActiveAdmin users other = true) :
    isActiveAdmin after other = true := by
  by_cases same : other = username
  · subst same
    unfold takes at left
    rw [admin] at left
    simpa using left
  · rw [commit_other ok same]
    exact admin

theorem keeps_takes (keeps : write.Keeps) (ok : write.commit users username = .ok after) :
    takes users after username = false := by
  unfold Write.Keeps at keeps
  unfold Write.commit at ok
  cases write with
  | delete => exact keeps.elim
  | change columns =>
    simp only at keeps ok
    unfold takes
    split at ok
    · cases ok
      simp
    · split at ok
      · cases ok
        unfold isActiveAdmin user?
        rw [Table.get_modify columns.write fun _ => rfl, if_pos rfl]
        cases Table.get GuiUser.username users username with
        | none => rfl
        | some user =>
          obtain ⟨role, active⟩ := keeps
          have roles : user.role = .admin → (columns.write user).role = .admin := by
            intro admin
            unfold Columns.write
            cases is : columns.role with
            | none => exact admin
            | some role' =>
              rw [is] at role
              simpa using role
          have actives : user.active = true → (columns.write user).active = true := by
            intro was
            unfold Columns.write
            cases is : columns.active with
            | none => exact was
            | some active' =>
              rw [is] at active
              cases active' with
              | true => rfl
              | false => exact absurd rfl active
          have stays : user.activeAdmin = true → (columns.write user).activeAdmin = true := by
            unfold GuiUser.activeAdmin
            simp only [Bool.and_eq_true, decide_eq_true_eq]
            exact fun admin => ⟨roles admin.1, actives admin.2⟩
          simp only [Option.map_some, Option.any_some]
          cases was : user.activeAdmin with
          | false => rfl
          | true =>
            rw [stays was]
            rfl
      · cases ok

theorem changes_keeps {body : UpdateUserRequest} {columns : Columns}
    (changes : body.changes user = .ok columns) (stays : body.demoting = false) :
    (Write.change columns).Keeps := by
  unfold UpdateUserRequest.changes at changes
  simp only at changes
  split at changes
  · cases changes
  · cases changes
    unfold UpdateUserRequest.demoting at stays
    rw [Bool.or_eq_false_iff] at stays
    constructor
    · cases is : body.role with
      | none => rfl
      | some role =>
        rw [is] at stays
        have admin : role = .admin := by simpa using stays.1
        by_cases same : role = user.role <;> simp [Option.filter, same, ← admin]
    · cases is : body.active with
      | none => simp
      | some active =>
        rw [is] at stays
        cases active with
        | true => simp [Option.filter]
        | false => simp at stays

end Commits

/-- What holds in every state: an admin is active, and a write that may take one away and that no
other has overtaken leaves another. -/
structure Sound (s : State) : Prop where
  distinct : (s.users.map (·.username)).Nodup
  admin : ∃ other, isActiveAdmin s.users other = true
  backed : ∀ (i : Nat) username write, s.requests[i]? = some (Stage.writing username write s.taken) →
    write.Keeps ∨ Backed s.users username
  seen : ∀ (i : Nat) username write seen, s.requests[i]? = some (Stage.writing username write seen) →
    seen ≤ s.taken

section Steps

variable {s s' : State} {i j : Nat} {stage : Stage}

theorem Sound.at_ (sound : Sound s)
    (backed : ∀ username write seen, stage = .writing username write seen →
      seen = s.taken ∧ (write.Keeps ∨ Backed s.users username)) : Sound (s.at_ i stage) where
  distinct := sound.distinct
  admin := sound.admin
  backed j username write found := by
    rcases Table.set_cases found with ⟨_, is⟩ | ⟨_, other⟩
    · exact (backed username write s.taken is.symm).2
    · exact sound.backed j username write other
  seen j username write seen found := by
    rcases Table.set_cases found with ⟨_, is⟩ | ⟨_, other⟩
    · exact (backed username write seen is.symm).1.le
    · exact sound.seen j username write seen other

theorem go_writing {username name : String} {taken seen : Nat} {next : Except Refusal Write}
    {write : Write} (is : Stage.go username taken next = .writing name write seen) :
    next = .ok write ∧ name = username ∧ seen = taken := by
  cases next with
  | error refusal => cases is
  | ok write =>
    cases is
    exact ⟨rfl, rfl, rfl⟩

theorem read_writing {request : Request} {username : String} {write : Write} {seen : Nat}
    (sound : Sound s) (is : request.read s.users s.taken = .writing username write seen) :
    seen = s.taken ∧ (write.Keeps ∨ Backed s.users username) := by
  have other {name : String} (none_ : isActiveAdmin s.users name = false) :
      Backed s.users name := by
    obtain ⟨admin, active⟩ := sound.admin
    refine ⟨admin, fun same => ?_, active⟩
    rw [same, none_] at active
    cases active
  cases request with
  | update name body =>
    unfold Request.read at is
    simp only at is
    split at is
    · cases is
    · split at is
      · cases is
      · next user found =>
        split at is
        · cases is
        · split at is
          · cases is
          · next uncounted =>
            obtain ⟨next, rfl, rfl⟩ := go_writing is
            refine ⟨rfl, ?_⟩
            cases changes : body.changes user with
            | error refusal =>
              rw [changes] at next
              cases next
            | ok columns =>
              rw [changes] at next
              cases next
              by_cases demoting : body.demoting = true
              · refine .inr (other ?_)
                unfold isActiveAdmin
                rw [found]
                have role : user.role ≠ .admin := fun admin => uncounted ⟨admin, demoting⟩
                simp [GuiUser.activeAdmin, role]
              · exact .inl (changes_keeps changes (Bool.eq_false_iff.mpr demoting))
  | delete caller name =>
    unfold Request.read at is
    simp only at is
    split at is
    · cases is
    · split at is
      · cases is
      · next user found =>
        split at is
        · cases is
        · next inactive =>
          cases is
          refine ⟨rfl, .inr (other ?_)⟩
          unfold isActiveAdmin
          rw [found]
          exact Bool.eq_false_iff.mpr inactive

theorem Sound.commit (sound : Sound s) {username : String} {write : Write} {seen : Nat}
    {users : List GuiUser} (found : s.requests[i]? = some (Stage.writing username write seen))
    (ok : write.commit s.users username = .ok users)
    (first : (takes s.users users username && seen ≠ s.taken) = false) :
    Sound { s.at_ i (.answered .done) with
      users, taken := s.taken + (takes s.users users username).toNat } := by
  have others {j : Nat} {name : String} {later : Write} {seen' : Nat}
      (there : (s.at_ i (.answered .done)).requests[j]? = some (Stage.writing name later seen')) :
      s.requests[j]? = some (Stage.writing name later seen') := by
    rcases Table.set_cases there with ⟨_, is⟩ | ⟨_, other⟩
    · cases is
    · exact other
  cases taken : takes s.users users username with
  | false =>
    refine ⟨commit_distinct ok sound.distinct, ?_, fun j name later there => ?_,
      fun j name later seen' there => sound.seen j name later seen' (others there)⟩
    · obtain ⟨admin, active⟩ := sound.admin
      exact ⟨admin, commit_keeps ok taken active⟩
    · rcases sound.backed j name later (others there) with keeps | ⟨admin, differs, active⟩
      · exact .inl keeps
      · exact .inr ⟨admin, differs, commit_keeps ok taken active⟩
  | true =>
    rw [taken] at first
    obtain rfl : seen = s.taken := by simpa using first
    obtain ⟨admin, differs, active⟩ : Backed s.users username := by
      rcases sound.backed i username write found with keeps | backed
      · rw [keeps_takes keeps ok] at taken
        cases taken
      · exact backed
    refine ⟨commit_distinct ok sound.distinct, ⟨admin, ?_⟩, fun j name later there => ?_,
      fun j name later seen' there => ?_⟩
    · rw [commit_other ok differs]
      exact active
    · have bound := sound.seen j name later _ (others there)
      simp only [Bool.toNat_true] at bound
      omega
    · have bound := sound.seen j name later seen' (others there)
      simp only [Bool.toNat_true]
      omega

theorem Sound.act {a : Act} (sound : Sound s) (inTime : s.overtaken a = false)
    (step : State.Step s a s') : Sound s' := by
  unfold State.Step State.act at step
  cases a with
  | ask request =>
    cases step
    refine ⟨sound.distinct, sound.admin, fun j name write there => ?_,
      fun j name write seen there => ?_⟩
    · rcases Table.append_cases there with ⟨_, is⟩ | other
      · cases is
      · exact sound.backed j name write other
    · rcases Table.append_cases there with ⟨_, is⟩ | other
      · cases is
      · exact sound.seen j name write seen other
  | read i =>
    simp only at step
    split at step
    · cases step
      exact sound.at_ fun username write seen is => read_writing sound is
    · cases step
  | count i =>
    simp only at step
    split at step
    · next username next _ =>
      cases step
      refine sound.at_ fun name write seen is => ?_
      split at is
      · cases is
      · next two =>
        obtain ⟨_, _, rfl⟩ := go_writing is
        exact ⟨rfl, .inr (backed_of_two sound.distinct two name)⟩
    · cases step
  | commit i =>
    simp only at step
    split at step
    · next username write seen found =>
      split at step
      · cases step
        exact sound.at_ fun _ _ _ is => by cases is
      · next users ok =>
        cases step
        refine sound.commit found ok ?_
        unfold State.overtaken at inTime
        simpa only [found, ok] using inTime
    · cases step

theorem at_answered {answer : Answer} (there : s.requests[j]? = some (Stage.answered answer))
    (pending : ∀ answer, s.requests[i]? ≠ some (Stage.answered answer)) :
    (s.at_ i stage).requests[j]? = some (Stage.answered answer) := by
  have differs : i ≠ j := fun same => pending answer (same ▸ there)
  rw [State.at_, List.getElem?_set_ne differs]
  exact there

theorem act_answered {a : Act} {answer : Answer} (step : State.Step s a s')
    (there : s.requests[j]? = some (Stage.answered answer)) :
    s'.requests[j]? = some (Stage.answered answer) := by
  unfold State.Step State.act at step
  cases a with
  | ask request =>
    cases step
    obtain ⟨within, _⟩ := List.getElem?_eq_some_iff.mp there
    rw [List.getElem?_append_left within]
    exact there
  | read i | count i =>
    simp only at step
    split at step
    · next found =>
      cases step
      exact at_answered there fun _ is => by
        rw [found] at is
        cases is
    · cases step
  | commit i =>
    simp only at step
    split at step
    · next found =>
      split at step <;> cases step <;> exact at_answered there fun _ is => by
        rw [found] at is
        cases is
    · cases step

theorem act_users {a : Act} (step : State.Step s a s') :
    s'.users = s.users ∨
      ∃ i, a.of? = some i ∧ s'.requests[i]? = some (Stage.answered .done) := by
  unfold State.Step State.act at step
  cases a with
  | ask request =>
    cases step
    exact .inl rfl
  | read i | count i =>
    simp only at step
    split at step
    · cases step
      exact .inl rfl
    · cases step
  | commit i =>
    simp only at step
    split at step
    · next found =>
      split at step
      · cases step
        exact .inl rfl
      · cases step
        obtain ⟨within, _⟩ := List.getElem?_eq_some_iff.mp found
        exact .inr ⟨i, rfl, by simp [State.at_, within]⟩
    · cases step

end Steps

structure Started (s : State) : Prop where
  distinct : (s.users.map (·.username)).Nodup
  admin : 1 ≤ activeAdmins s.users
  idle : s.requests = []

theorem Started.sound {s : State} (started : Started s) : Sound s where
  distinct := started.distinct
  admin := by
    obtain ⟨user, mem, admin⟩ := activeAdmins_pos.mp started.admin
    exact ⟨user.username, activeAdmin_of_mem started.distinct mem admin⟩
  backed i username write there := by
    rw [started.idle] at there
    cases there
  seen i username write seen there := by
    rw [started.idle] at there
    cases there

/-- An active admin remains after every commit, and a refused request leaves the table as it was. -/
structure AdminKept (trace : List (Runs.Step State Act)) (final : State) : Prop where
  admins : ∀ t ∈ trace, 1 ≤ activeAdmins t.after.users
  refused : ∀ t ∈ trace, ∀ i refusal, t.label.of? = some i →
    final.requests[i]? = some (.answered (.refused refusal)) → t.after.users = t.before.users

section Runs_

variable {start final : State} {trace : List (Runs.Step State Act)}

theorem refused_unwritten (run : Runs.Run State.Step start trace final) :
    ∀ t ∈ trace, ∀ i refusal, t.label.of? = some i →
      final.requests[i]? = some (Stage.answered (.refused refusal)) →
        t.after.users = t.before.users := by
  intro t mem i refusal of_ refused
  have kept := run.later_of_guarded (fun _ => True) (fun _ _ => True) trivial
    (fun _ _ _ _ _ _ => trivial)
    (fun s s' => ∀ (j : Nat) answer, s.requests[j]? = some (Stage.answered answer) →
      s'.requests[j]? = some (Stage.answered answer))
    (fun _ _ _ there => there)
    (fun _ _ _ first second j answer there => second j answer (first j answer there))
    (fun _ _ _ _ _ step j answer there => act_answered step there) (fun _ _ => trivial) t mem
  have writes := run.transitions (fun _ => True) trivial (fun _ _ _ _ _ => trivial)
    (fun t => t.after.users = t.before.users ∨
      ∃ i, t.label.of? = some i ∧ t.after.requests[i]? = some (Stage.answered .done))
    (fun _ _ _ _ step => act_users step) t mem
  rcases writes with same | ⟨j, of_', done_⟩
  · exact same
  · obtain rfl : i = j := Option.some.inj (of_.symm.trans of_')
    have later := kept i .done done_
    rw [refused] at later
    cases later

/-- The console never loses its last administrator, when no commit takes an active admin away that
another one has overtaken. -/
theorem last_admin_kept (started : Started start) (run : Runs.Run State.Step start trace final)
    (inTime : ∀ t ∈ trace, t.before.overtaken t.label = false) : AdminKept trace final where
  admins := by
    refine run.transitions_of_guarded Sound (fun s a => s.overtaken a = false) started.sound
      (fun _ _ _ sound first step => sound.act first step) _ (fun s a s' sound first step => ?_) inTime
    obtain ⟨other, admin⟩ := (sound.act first step).admin
    exact counted_of_activeAdmin admin
  refused := refused_unwritten run

end Runs_

def twoAdmins : State where
  users := [⟨"alice", "h1", .admin, true, 0, false, none⟩, ⟨"bob", "h2", .admin, true, 0, false, none⟩]

def demoted (username : String) : Request := .update username { role := some .viewer }

def inTurn : List Act :=
  [.ask (demoted "alice"), .ask (demoted "bob"), .read 0, .count 0, .commit 0, .read 1, .count 1]

theorem twoAdmins_started : Started twoAdmins := ⟨by decide, by decide, rfl⟩

theorem one_admin_left : AdminKept (Runs.stepsOf (Runs.nextOf State.act) twoAdmins inTurn)
    (inTurn.foldl (Runs.nextOf State.act) twoAdmins) :=
  last_admin_kept twoAdmins_started (Runs.run_enabled (by decide +kernel)) (by decide +kernel)

def atOnce : List Act :=
  [.ask (demoted "alice"), .ask (demoted "bob"), .read 0, .read 1, .count 0, .count 1, .commit 0,
    .commit 1]

theorem no_admin_left : ¬∀ (start final : State) (trace : List (Runs.Step State Act)),
    Started start → Runs.Run State.Step start trace final → AdminKept trace final := by
  intro always
  have kept := always _ _ _ twoAdmins_started
    (@Runs.run_enabled _ _ twoAdmins State.act atOnce (by decide +kernel))
  have none_ : ∃ t ∈ Runs.stepsOf (Runs.nextOf State.act) twoAdmins atOnce,
      ¬1 ≤ activeAdmins t.after.users := by decide +kernel
  obtain ⟨t, mem, lost⟩ := none_
  exact lost (kept.admins t mem)

end Smo.GuiBff.Users
