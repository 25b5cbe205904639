import Smo.GuiBff.Sessions

/-! What holds of the console's sessions after a run: one that was ended lets no later request in,
and a request that is let in has the role and the scope of the row it read. -/
namespace Smo.GuiBff.Sessions

open Users (GuiUser Columns UpdateUserRequest Write user?)

section Changes

def Bumps (columns : Columns) : Prop :=
  columns.active = some false ∨ columns.passwordHash.isSome → columns.tokenVersion.isSome

def WriteSound : Write → Prop
  | .delete => True
  | .change columns => Bumps columns

def StageSound : Users.Stage → Prop
  | .counting _ next => ∀ write, next = .ok write → WriteSound write
  | .writing _ write _ => WriteSound write
  | _ => True

theorem changes_bumps {body : UpdateUserRequest} {user : GuiUser} {columns : Columns}
    (is : body.changes user = .ok columns) : Bumps columns := by
  simp only [UpdateUserRequest.changes] at is
  split at is
  · cases is
  · cases is
    generalize body.active.filter (· ≠ user.active) = active
    rintro (off | password)
    · simp only at off ⊢
      simp [off]
    · simp only at password ⊢
      simp [password]

theorem go_sound {username : String} {next : Except Users.Refusal Write}
    (sound : ∀ write, next = .ok write → WriteSound write) :
    StageSound (.go username 0 next) := by
  cases next with
  | error refusal => exact trivial
  | ok write => exact sound write rfl

theorem read_sound (users : List GuiUser) (request : Users.Request) :
    StageSound (request.read users 0) := by
  cases request with
  | delete caller username =>
    simp only [Users.Request.read]
    split
    · exact trivial
    · split
      · exact trivial
      · split
        · rintro write ⟨⟩
          exact trivial
        · exact trivial
  | update username body =>
    simp only [Users.Request.read]
    split
    · exact trivial
    · split
      · exact trivial
      · rename_i user _
        have sound : ∀ write, (body.changes user).map Write.change = .ok write → WriteSound write := by
          intro write is
          cases changed : body.changes user with
          | error refusal => simp [changed, Except.map] at is
          | ok columns =>
            simp only [changed, Except.map, Except.ok.injEq] at is
            subst is
            exact changes_bumps changed
        split
        · exact trivial
        · split
          · exact sound
          · exact go_sound sound

end Changes

section Steps

variable {cfg : Config} {s s' : State} {a : Act} {token : Token}

def JobSound (s : State) : Job → Prop
  | .admin stage => StageSound stage
  | .provisioning _ columns => Bumps columns
  | .leaving token => token ∈ s.issued
  | .forgetting token now => token ∈ s.issued ∧ token.jti ≠ "" ∧ now ≤ s.clock
  | _ => True

def State.Sound (s : State) : Prop := ∀ (k : Nat) job, s.jobs[k]? = some job → JobSound s job

def Job.past? : Job → Option Token
  | .seen call _ | .accepted call _ => some call.token
  | _ => none

variable {job next : Job} {username : String} {write : Write} {i : Nat} {call : Call}
  {row : GuiUser}

theorem write_sound (sound : JobSound s job) (is : job.write? = some (username, write, next)) :
    WriteSound write := by
  cases job with
  | admin stage =>
    cases stage with
    | writing name write seen =>
      cases is
      exact sound
    | _ => cases is
  | changing user password =>
    cases password with
    | none | some hash =>
      cases is
      exact fun _ => rfl
  | provisioning user columns =>
    cases is
    exact sound
  | _ => cases is

inductive Came (s : State) (a : Act) (k : Nat) : Job → Prop
  | decoded (call : Call) (late : s.jobs.length ≤ k) (live : s.clock < call.token.exp) :
      Came s a k (.decoded call)
  | seen (call : Call) (user : GuiUser) (was : s.jobs[k]? = some (.decoded call))
      (is : a = .check k) (found : user? s.users call.token.sub = some user)
      (active : user.active = true) (version : user.tokenVersion = call.token.ver) :
      Came s a k (.seen call user)
  | accepted (call : Call) (user : GuiUser) (session : Session)
      (was : s.jobs[k]? = some (.seen call user))
      (is : session.user = ⟨user.username, user.role, user.scope⟩)
      (left : call.token.jti = "" ∨ ∀ row ∈ s.revoked, row.jti ≠ call.token.jti) :
      Came s a k (.accepted call session)
  | other (job : Job) (call : job.call? = none) (past : job.past? = none)
      (sound : JobSound s job) : Came s a k job

inductive Wrote (s : State) (a : Act) : List GuiUser → Prop
  | same : Wrote s a s.users
  | committed (i : Nat) (username : String) (write : Write) (next : Job) (users : List GuiUser)
      (is : a = .commit i) (found : s.jobs[i]? >>= Job.write? = some (username, write, next))
      (commits : write.commit s.users username = .ok users) : Wrote s a users
  | created (user : GuiUser) (is : a = .create user)
      (absent : user? s.users user.username = none) : Wrote s a (s.users ++ [user])

inductive Forgot (s : State) (a : Act) : List RevokedSession → Prop
  | same : Forgot s a s.revoked
  | forgot (i : Nat) (token : Token) (now : Nat) (is : a = .forget i)
      (found : s.jobs[i]? = some (.forgetting token now)) :
      Forgot s a (revokeSession s.revoked token now)

structure Facts (s : State) (a : Act) (s' : State) : Prop where
  issued : s.issued ⊆ s'.issued
  clock : s.clock ≤ s'.clock
  length : s.jobs.length ≤ s'.jobs.length
  users : Wrote s a s'.users
  revoked : Forgot s a s'.revoked
  jobs : ∀ (k : Nat) job, s'.jobs[k]? = some job → s.jobs[k]? = some job ∨ Came s a k job

theorem Facts.begins (came : Came s a s.jobs.length job) : Facts s a (s.begin_ job) where
  issued := List.Subset.refl _
  clock := Nat.le_refl _
  length := by simp [State.begin_]
  users := .same
  revoked := .same
  jobs k next there := by
    rcases Table.append_cases there with ⟨rfl, rfl⟩ | was
    · exact .inr came
    · exact .inl was

theorem jobs_set {k : Nat} (came : Came s a i job) (there : (s.jobs.set i job)[k]? = some next) :
    s.jobs[k]? = some next ∨ Came s a k next :=
  Table.set_holds came there

theorem Facts.moves (came : Came s a i job) : Facts s a (s.at_ i job) where
  issued := List.Subset.refl _
  clock := Nat.le_refl _
  length := by simp [State.at_]
  users := .same
  revoked := .same
  jobs _ _ := jobs_set came

theorem checkRow_came (was : s.jobs[i]? = some (.decoded call)) :
    Came s (.check i) i (checkRow s.users call) := by
  unfold checkRow
  split
  · exact .other _ rfl rfl trivial
  · rename_i user found
    split
    · rename_i passes
      exact .seen call user was rfl found passes.1 passes.2
    · exact .other _ rfl rfl trivial

theorem checkRest_came {user : GuiUser} {enrolled : Bool}
    (was : s.jobs[i]? = some (.seen call user)) :
    Came s a i (checkRest cfg s.revoked call user enrolled) := by
  unfold checkRest
  split
  · exact .other _ rfl rfl trivial
  · rename_i open_
    split
    · exact .other _ rfl rfl trivial
    · split
      · exact .other _ rfl rfl trivial
      · refine .accepted call user _ was rfl ?_
        by_cases named : call.token.jti = ""
        · exact .inl named
        · refine .inr fun row mem same => open_ ⟨named, ?_⟩
          exact List.any_eq_true.mpr ⟨row, mem, decide_eq_true same⟩

theorem next_plain (is : job.write? = some (username, write, next)) :
    next.call? = none ∧ next.past? = none ∧ JobSound s next := by
  cases job with
  | admin stage =>
    cases stage with
    | writing name write seen =>
      cases is
      exact ⟨rfl, rfl, trivial⟩
    | _ => cases is
  | changing user password =>
    cases password with
    | none | some hash =>
      cases is
      exact ⟨rfl, rfl, trivial⟩
  | provisioning user columns =>
    cases is
    exact ⟨rfl, rfl, trivial⟩
  | _ => cases is

theorem facts_of_step (step : s.Step cfg a s') (sound : s.Sound) : Facts s a s' := by
  cases a with
  | tick now =>
    simp only [State.Step, State.act, Option.ite_none_right_eq_some, Option.some.injEq] at step
    obtain ⟨later, rfl⟩ := step
    exact ⟨List.Subset.refl _, later, Nat.le_refl _, .same, .same, fun _ _ => .inl⟩
  | ask call =>
    simp only [State.Step, State.act, Option.ite_none_right_eq_some, Option.some.injEq] at step
    obtain ⟨⟨_, live⟩, rfl⟩ := step
    exact .begins (.decoded call (Nat.le_refl _) live)
  | check i =>
    simp only [State.Step, State.act] at step
    split at step <;> cases step
    rename_i was
    exact .moves (checkRow_came was)
  | pass i enrolled =>
    simp only [State.Step, State.act] at step
    split at step <;> cases step
    rename_i was
    exact .moves (checkRest_came was)
  | signIn username =>
    simp only [State.Step, State.act] at step
    split at step
    · split at step <;> cases step
      exact .begins (.other _ rfl rfl trivial)
    · cases step
  | provision username role scope =>
    simp only [State.Step, State.act] at step
    split at step
    · split at step <;> cases step
      refine .begins (.other _ rfl rfl ?_)
      rintro (active | password)
      · cases active
      · cases password
    · cases step
  | issue i csrf jti =>
    simp only [State.Step, State.act] at step
    split at step <;> cases step
    exact ⟨List.subset_append_left _ _, Nat.le_refl _, by simp [State.at_], .same, .same,
      fun _ _ => jobs_set (.other _ rfl rfl trivial)⟩
  | password username verified hash =>
    simp only [State.Step, State.act] at step
    split at step <;> cases step
    cases verified <;> exact .begins (.other _ rfl rfl trivial)
  | revoke username =>
    simp only [State.Step, State.act] at step
    split at step <;> cases step <;> exact .begins (.other _ rfl rfl trivial)
  | admin request =>
    cases step
    exact .begins (.other _ rfl rfl trivial)
  | read i =>
    simp only [State.Step, State.act] at step
    split at step <;> cases step
    exact .moves (.other _ rfl rfl (read_sound _ _))
  | count i =>
    simp only [State.Step, State.act] at step
    split at step <;> cases step
    rename_i was
    refine .moves (.other _ rfl rfl ?_)
    split
    · exact trivial
    · exact go_sound (sound i _ was)
  | commit i =>
    simp only [State.Step, State.act] at step
    split at step
    · rename_i username write next found
      obtain ⟨job, was, writes⟩ := Option.bind_eq_some_iff.mp found
      obtain ⟨noCall, noPast, nextSound⟩ := next_plain writes (s := s)
      split at step <;> cases step
      · exact .moves (.other _ rfl rfl trivial)
      · rename_i users commits
        exact ⟨List.Subset.refl _, Nat.le_refl _, by simp [State.at_],
          .committed i username write next users rfl found commits, .same,
          fun _ _ => jobs_set (.other _ noCall noPast nextSound)⟩
    · cases step
  | create user =>
    simp only [State.Step, State.act, Option.ite_none_right_eq_some, Option.some.injEq] at step
    obtain ⟨absent, rfl⟩ := step
    exact ⟨List.Subset.refl _, Nat.le_refl _, Nat.le_refl _, .created user rfl absent, .same,
      fun _ _ => .inl⟩
  | logout token =>
    simp only [State.Step, State.act, Option.ite_none_right_eq_some, Option.some.injEq] at step
    obtain ⟨⟨issued, _⟩, rfl⟩ := step
    exact .begins (.other _ rfl rfl issued)
  | leave i =>
    simp only [State.Step, State.act] at step
    split at step <;> cases step
    rename_i token was
    refine .moves ?_
    split
    · exact .other _ rfl rfl trivial
    · rename_i named
      exact .other _ rfl rfl ⟨sound i _ was, named, Nat.le_refl _⟩
  | forget i =>
    simp only [State.Step, State.act] at step
    split at step <;> cases step
    rename_i token now was
    exact ⟨List.Subset.refl _, Nat.le_refl _, by simp [State.at_], .same,
      .forgot i token now rfl was, fun _ _ => jobs_set (.other _ rfl rfl trivial)⟩

theorem sound_of_facts (facts : Facts s a s') (sound : s.Sound) : s'.Sound := by
  intro k job there
  have grown : JobSound s job → JobSound s' job := by
    intro was
    cases job with
    | leaving token => exact facts.issued was
    | forgetting token now => exact ⟨facts.issued was.1, was.2.1, was.2.2.trans facts.clock⟩
    | _ => exact was
  rcases facts.jobs k job there with was | came
  · exact grown (sound k job was)
  · cases came with
    | other _ call past plain => exact grown plain
    | _ => exact trivial

theorem version_of_facts (facts : Facts s a s') (fresh : s.fresh a = true)
    (issued : token ∈ s.issued) (found : user? s'.users token.sub = some row)
    (is : row.tokenVersion = token.ver) :
    ∃ was, user? s.users token.sub = some was ∧ was.tokenVersion = token.ver := by
  obtain ⟨_, _, _, users, _, _⟩ := facts
  generalize s'.users = after at users found
  cases users with
  | same => exact ⟨row, found, is⟩
  | created user is_ absent =>
    subst is_
    have snoc : user? (s.users ++ [user]) token.sub =
        if user.username = token.sub then some user else user? s.users token.sub :=
      Table.get_snoc absent
    rw [snoc] at found
    split at found
    · rename_i mine
      cases found
      simp only [State.fresh, List.all_eq_true] at fresh
      simpa [mine, is] using fresh token issued
    · exact ⟨row, found, is⟩
  | committed i username write next users is_ there commits =>
    subst is_
    cases write with
    | delete =>
      cases commits
      rw [Users.removed_row] at found
      split at found
      · exact ⟨row, found, is⟩
      · cases found
    | change columns =>
      simp only [State.fresh, there, List.all_eq_true] at fresh
      simp only [Write.commit] at commits
      split at commits
      · cases commits
        exact ⟨row, found, is⟩
      · split at commits <;> cases commits
        have modified := @Table.get_modify _ _ _ (·.username) s.users token.sub username columns.write
          fun _ => rfl
        rw [user?, modified] at found
        split at found
        · rename_i mine
          obtain ⟨was, before, rfl⟩ := Option.map_eq_some_iff.mp found
          refine ⟨was, before, ?_⟩
          have other := fresh token issued
          cases counts : columns.tokenVersion with
          | none => simpa [Columns.write, counts] using is
          | some n =>
            have same : n = token.ver := by simpa [Columns.write, counts] using is
            simp [mine, counts, same] at other
        · exact ⟨row, found, is⟩

theorem version_of_ends (step : s.Step cfg a s') (fresh : s.fresh a = true) (sound : s.Sound)
    {users : List GuiUser} (is : a = .commit i) (issued : token ∈ s.issued)
    (there : s.jobs[i]? >>= Job.write? = some (token.sub, write, next))
    (commits : write.commit s.users token.sub = .ok users) (ending : ends write = true)
    (found : user? s'.users token.sub = some row) : row.tokenVersion ≠ token.ver := by
  subst is
  obtain ⟨job, was, writes⟩ := Option.bind_eq_some_iff.mp there
  have bumps := write_sound (sound i job was) writes
  simp only [State.Step, State.act, there, commits, Option.some.injEq] at step
  subst step
  simp only at found
  cases write with
  | delete =>
    cases commits
    rw [Users.removed_row, if_neg (by simp)] at found
    cases found
  | change columns =>
    have counted : columns.tokenVersion.isSome = true := by
      simp only [ends, Bool.or_eq_true, decide_eq_true_eq] at ending
      rcases ending with (active | password) | version
      · exact bumps (.inl active)
      · exact bumps (.inr password)
      · exact version
    obtain ⟨n, counts⟩ := Option.isSome_iff_exists.mp counted
    simp only [State.fresh, there, List.all_eq_true] at fresh
    have other := fresh token issued
    simp only [Write.commit] at commits
    split at commits
    · rename_i nothing
      rw [nothing] at counts
      cases counts
    · split at commits <;> cases commits
      have modified := @Table.get_modify _ _ _ (·.username) s.users token.sub token.sub columns.write
        fun _ => rfl
      rw [user?, modified, if_pos rfl] at found
      obtain ⟨was, before, rfl⟩ := Option.map_eq_some_iff.mp found
      simp only [Columns.write, counts, Option.getD_some]
      simpa [counts] using other

end Steps

section Ended

variable {cfg : Config} {s s' : State} {a : Act} {token : Token} {n : Nat}

def State.Ended (s : State) (token : Token) : Prop := ∃ row ∈ s.revoked, row.jti = token.jti

/-- A token whose version its user does not have; `n` requests had been made when it was left. -/
structure Outdated (token : Token) (n : Nat) (s : State) : Prop where
  issued : token ∈ s.issued
  length : n ≤ s.jobs.length
  version : ∀ row, user? s.users token.sub = some row → row.tokenVersion ≠ token.ver
  kept : ∀ (k : Nat) job, n ≤ k → s.jobs[k]? = some job → job.past? ≠ some token

structure LoggedOut (token : Token) (n : Nat) (s : State) : Prop where
  issued : token ∈ s.issued
  length : n ≤ s.jobs.length
  named : token.jti ≠ ""
  ended : s.Ended token ∨ token.exp ≤ s.clock
  checked : ∀ (k : Nat) job call, n ≤ k → s.jobs[k]? = some job → job.call? = some call →
    call.token = token → s.Ended token
  refused : ∀ (k : Nat) call session, n ≤ k → s.jobs[k]? = some (.accepted call session) →
    call.token ≠ token

theorem Outdated.step (outdated : Outdated token n s) (facts : Facts s a s')
    (fresh : s.fresh a = true) : Outdated token n s' where
  issued := facts.issued outdated.issued
  length := outdated.length.trans facts.length
  version row found is := by
    obtain ⟨was, before, same⟩ := version_of_facts facts fresh outdated.issued found is
    exact outdated.version was before same
  kept k job late there past := by
    rcases facts.jobs k job there with was | came
    · exact outdated.kept k job late was past
    · cases came with
      | decoded call => cases past
      | seen call user was is found active version =>
        cases past
        exact outdated.version user found version
      | accepted call user session was =>
        cases past
        exact outdated.kept k _ late was rfl
      | other _ call none_ =>
        rw [none_] at past
        cases past

variable {revoked : List RevokedSession}

theorem ended_revokes {token : Token} (now : Nat) :
    ∃ row ∈ revokeSession revoked token now, row.jti = token.jti := by
  simp only [revokeSession]
  split
  · rename_i there
    obtain ⟨row, mem, is⟩ := List.any_eq_true.mp there
    exact ⟨row, mem, of_decide_eq_true is⟩
  · exact ⟨_, List.mem_append_right _ (List.mem_singleton_self _), rfl⟩

theorem kept_revokes {row : RevokedSession} {now : Nat} (mem : row ∈ revoked)
    (live : now < row.expiresAt) : row ∈ revokeSession revoked token now := by
  have kept : row ∈ revoked.filter (now < ·.expiresAt) :=
    List.mem_filter.mpr ⟨mem, decide_eq_true live⟩
  simp only [revokeSession]
  split
  · exact kept
  · exact List.mem_append_left _ kept

theorem ended_of_facts (facts : Facts s a s') (fresh : s.fresh a = true)
    (sound : s.Sound) (issued : token ∈ s.issued)
    (ended : s.Ended token) : s'.Ended token ∨ (token.exp ≤ s.clock ∧
      ∀ job ∈ s.jobs, ∀ call, job.call? = some call → call.token ≠ token) := by
  obtain ⟨row, mem, is⟩ := ended
  obtain ⟨_, _, _, _, revoked, _⟩ := facts
  simp only [State.Ended]
  generalize s'.revoked = after at revoked ⊢
  cases revoked with
  | same => exact .inl ⟨row, mem, is⟩
  | forgot i other now is_ there =>
    subst is_
    simp only [State.fresh, there, List.all_eq_true, Bool.or_eq_true, Bool.and_eq_true,
      decide_eq_true_eq] at fresh
    rcases fresh token issued with live | ⟨expired, free⟩
    · rcases live row mem with differs | live
      · exact absurd is differs
      · exact .inl ⟨row, kept_revokes mem live, is⟩
    · refine .inr ⟨expired.trans (sound i _ there).2.2, fun job inJobs call carries same => ?_⟩
      have none_ := free job inJobs
      simp [carries, same] at none_

theorem LoggedOut.step (out : LoggedOut token n s) (facts : Facts s a s')
    (fresh : s.fresh a = true)
    (sound : s.Sound) : LoggedOut token n s' where
  issued := facts.issued out.issued
  length := out.length.trans facts.length
  named := out.named
  ended := by
    rcases out.ended with ended | expired
    · rcases ended_of_facts facts fresh sound out.issued ended with still | ⟨expired, _⟩
      · exact .inl still
      · exact .inr (expired.trans facts.clock)
    · exact .inr (expired.trans facts.clock)
  checked k job call late there carries is := by
    have held {job} (was : s.jobs[k]? = some job) (carried : job.call? = some call) :
        s'.Ended token := by
      have ended := out.checked k job call late was carried is
      rcases ended_of_facts facts fresh sound out.issued ended with still | ⟨_, free⟩
      · exact still
      · exact absurd is (free job (List.mem_of_getElem? was) call carried)
    rcases facts.jobs k job there with was | came
    · exact held was carries
    · cases came with
      | decoded _ _ live =>
        cases carries
        rcases out.ended with ended | expired
        · rcases ended_of_facts facts fresh sound out.issued ended with still | ⟨expired, _⟩
          · exact still
          · exact absurd live (by rw [is]; omega)
        · exact absurd live (by rw [is]; omega)
      | seen _ user was =>
        cases carries
        exact held was rfl
      | accepted => cases carries
      | other _ none_ =>
        rw [none_] at carries
        cases carries
  refused k call session late there is := by
    rcases facts.jobs k _ there with was | came
    · exact out.refused k call session late was is
    · cases came with
      | accepted _ user _ was same left =>
        obtain ⟨row, mem, named⟩ := out.checked k _ call late was rfl is
        rcases left with unnamed | none_
        · exact out.named (is ▸ unnamed)
        · exact none_ row mem (by rw [named, is])
      | other _ _ past => cases past

theorem ended_by (step : s.Step cfg a s') (facts : Facts s a s') (fresh : s.fresh a = true)
    (sound : s.Sound) (ends_ : s.Ends a token) :
    Outdated token s'.jobs.length s' ∨ LoggedOut token s'.jobs.length s' := by
  obtain ⟨issued, how⟩ := ends_
  have none_ {k : Nat} {job : Job} (late : s'.jobs.length ≤ k) : s'.jobs[k]? ≠ some job := by
    rw [List.getElem?_eq_none late]
    exact Option.some_ne_none job ∘ Eq.symm
  cases a with
  | commit i =>
    obtain ⟨write, next, users, there, commits, ending⟩ := how
    refine .inl ⟨facts.issued issued, Nat.le_refl _, fun row found => ?_, fun k job late is => ?_⟩
    · exact version_of_ends step fresh sound rfl issued there commits ending found
    · exact absurd is (none_ late)
  | forget i =>
    obtain ⟨now, there⟩ := how
    refine .inr ⟨facts.issued issued, Nat.le_refl _, (sound i _ there).2.1, .inl ?_,
      fun k job call late is => absurd is (none_ late),
      fun k call session late is => absurd is (none_ late)⟩
    simp only [State.Step, State.act, there, Option.some.injEq] at step
    subst step
    exact ended_revokes now
  | _ => exact how.elim

end Ended

section Runs

variable {cfg : Config} {s : State} {trace : List (Runs.Step State Act)}

theorem sound_run {start : State} (run : Runs.Run (State.Step cfg) start trace s)
    (idle : start.jobs = []) : s.Sound :=
  run.invariant State.Sound (by simp [State.Sound, idle])
    fun s a s' sound step => sound_of_facts (facts_of_step step sound) sound

def ReadIn (trace : List (Runs.Step State Act)) (k : Nat) (call : Call) (user : User) : Prop :=
  ∃ t ∈ trace, t.label = .check k ∧ ∃ row, user? t.before.users call.token.sub = some row ∧
    row.active = true ∧ row.tokenVersion = call.token.ver ∧
    user = ⟨row.username, row.role, row.scope⟩

/-- No request made after a step that ended a session carries that session's token and is let in, and
one that is let in has the role and the scope its user had when the row was read. -/
def SessionsEnd (trace : List (Runs.Step State Act)) (s : State) : Prop :=
  (∀ earlier t later token, trace = earlier ++ t :: later → t.before.Ends t.label token →
    ∀ (k : Nat) call session, t.after.jobs.length ≤ k →
      s.jobs[k]? = some (.accepted call session) → call.token ≠ token) ∧
  ∀ (k : Nat) call session, s.jobs[k]? = some (.accepted call session) →
    ReadIn trace k call session.user

theorem ReadIn.snoc {k : Nat} {call : Call} {user : User} {t : Runs.Step State Act}
    (read : ReadIn trace k call user) : ReadIn (trace ++ [t]) k call user := by
  obtain ⟨was, mem, rest⟩ := read
  exact ⟨was, List.mem_append_left _ mem, rest⟩

structure Reads (trace : List (Runs.Step State Act)) (s : State) : Prop where
  sound : s.Sound
  seen : ∀ (k : Nat) call user, s.jobs[k]? = some (.seen call user) →
    ReadIn trace k call ⟨user.username, user.role, user.scope⟩
  accepted : ∀ (k : Nat) call session, s.jobs[k]? = some (.accepted call session) →
    ReadIn trace k call session.user

theorem Reads.step {s' : State} {a : Act} (reads : Reads trace s) (step : s.Step cfg a s') :
    Reads (trace ++ [⟨s, a, s'⟩]) s' := by
  have facts := facts_of_step step reads.sound
  refine ⟨sound_of_facts facts reads.sound, fun k call user there => ?_,
    fun k call session there => ?_⟩
  · rcases facts.jobs k _ there with was | came
    · exact (reads.seen k call user was).snoc
    · cases came with
      | seen _ _ was is found active version =>
        exact ⟨_, List.mem_append_right _ (List.mem_singleton_self _), is, user, found, active,
          version, rfl⟩
      | other _ _ past => cases past
  · rcases facts.jobs k _ there with was | came
    · exact (reads.accepted k call session was).snoc
    · cases came with
      | accepted _ user _ was is =>
        rw [is]
        exact (reads.seen k call user was).snoc
      | other _ _ past => cases past

/-- Sessions end when they are ended, if no token was issued under a version when it is written, and
no ended session is forgotten while its token may be let in. -/
theorem sessions_end {start : State} (run : Runs.Run (State.Step cfg) start trace s)
    (idle : start.jobs = []) (fresh : ∀ t ∈ trace, t.before.fresh t.label = true) :
    SessionsEnd trace s := by
  have reads : Reads trace s :=
    run.invariant_of_history Reads ⟨by simp [State.Sound, idle], by simp [idle], by simp [idle]⟩
      fun trace s a s' reads step => reads.step step
  refine ⟨fun earlier t later token same ends_ k call session late there is => ?_, reads.accepted⟩
  obtain ⟨before, step⟩ := run.split same
  have sound := sound_run before idle
  have now := fresh t (by rw [same]; exact List.mem_append_right _ List.mem_cons_self)
  have facts := facts_of_step step sound
  have left := ended_by step facts now sound ends_
  have held := (run.rest same).invariant_of_guarded
    (fun s => s.Sound ∧
      (Outdated token t.after.jobs.length s ∨ LoggedOut token t.after.jobs.length s))
    (fun s a => s.fresh a = true) ⟨sound_of_facts facts sound, left⟩
    (fun s a s' inv fresh step => by
      have facts := facts_of_step step inv.1
      refine ⟨sound_of_facts facts inv.1, inv.2.imp ?_ ?_⟩
      · exact fun outdated => outdated.step facts fresh
      · exact fun out => out.step facts fresh inv.1)
    (fun t mem => fresh t (by rw [same]; exact List.mem_append_right _ (List.mem_cons_of_mem _ mem)))
  rcases held.2 with outdated | out
  · exact outdated.kept k _ late there (by rw [← is]; rfl)
  · exact out.refused k call session late there is

end Runs

section Sample

def console : Config where
  adminMfaRequired := true
  sessionTtlSeconds := 28800

def office : State where
  users := [{ username := "alice", passwordHash := "scrypt", role := .viewer }]

def next : State → Act → State := Runs.nextOf (State.act console)

def aliceToken (ver : Nat) (jti : String) : Token := ⟨"alice", ver, "csrf", jti, 28800⟩

def reading (token : Token) : Call := ⟨token, true, false, false, ""⟩

def requests (k : Nat) (token : Token) : List Act := [.ask (reading token), .check k, .pass k false]

def ended : List Act :=
  [.signIn "alice", .issue 0 "csrf" "first"] ++ requests 1 (aliceToken 0 "first") ++
    [.revoke "alice", .commit 2, .ask (reading (aliceToken 0 "first")), .check 3,
      .signIn "alice", .issue 4 "csrf" "second", .logout (aliceToken 1 "second"), .leave 5,
      .forget 5] ++ requests 6 (aliceToken 1 "second")

theorem ended_end : SessionsEnd (Runs.stepsOf next office ended) (ended.foldl next office) :=
  sessions_end (Runs.run_enabled (by decide +kernel)) rfl (by decide +kernel)

/-- Two changes read one version and write the next, and a session begins between their commits. -/
def collapse : List Act :=
  [.revoke "alice", .revoke "alice", .commit 0, .signIn "alice", .issue 2 "csrf" "between"]

theorem session_survives : ¬∀ (s : State) (trace : List (Runs.Step State Act)),
    Runs.Run (State.Step console) office trace s → SessionsEnd trace s := by
  intro always
  let token := aliceToken 1 "between"
  let later : List Act := requests 3 token
  have kept := always _ _
    (@Runs.run_enabled _ _ office (State.act console) (collapse ++ .commit 1 :: later)
      (by decide +kernel))
  exact kept.1 (Runs.stepsOf next office collapse) _ _ token rfl
    ⟨by decide +kernel, _, _, _, rfl, rfl, rfl⟩ 3 (reading token) _ (by decide +kernel) rfl rfl

end Sample

end Smo.GuiBff.Sessions
