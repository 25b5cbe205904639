import Smo.GuiBff.SignIns

/-! What holds of the sign-ins after a run: whose sessions they lead to, which rows they write, and that
a person who is refused keeps no session. -/
namespace Smo.GuiBff.Oidc

open Users (GuiUser Columns UpdateUserRequest SentScope unusableHash user? removed_row)

namespace Stage

def held? : Stage → Option GuiUser
  | .giving _ user _ | .issuing _ user => some user
  | _ => none

def denied? : Stage → Option String
  | .denying sub _ | .bumping sub _ _ => some sub
  | _ => none

def issued : Stage → Bool
  | .issuing _ _ | .signedIn => true
  | _ => false

def ended : Stage → Bool
  | .refused _ | .failed => true
  | _ => false

end Stage

section Rows

variable {s s' : State} {name username : String} {v : Nat} {columns : Columns}

def State.Known (s : State) (name : String) (v : Nat) : Prop :=
  (name, v) ∈ s.closed ∨ ∃ row, user? s.users name = some row ∧ row.tokenVersion = v

inductive Rows (s s' : State) : Prop
  | same (users : s'.users = s.users) (closed : s'.closed = s.closed)
  | added (user : GuiUser) (absent : user? s.users user.username = none)
      (users : s'.users = s.users ++ [user]) (closed : s'.closed = s.closed)
      (sound : localName user.username = false → user.passwordHash = unusableHash ∧
        ∀ v, (user.username, v) ∈ s.closed → v < user.tokenVersion)
  | written (username : String) (columns : Columns) (row : GuiUser)
      (found : user? s.users username = some row)
      (users : s'.users = (s.writeUser username columns).users)
      (closed : s'.closed = (s.writeUser username columns).closed)
      (sound : localName username = false → columns.passwordHash = none ∧
        ∀ n, columns.tokenVersion = some n → row.tokenVersion < n)
  | removed (username : String) (users : s'.users = s.users.filter (·.username ≠ username))
      (closed : s'.closed = s.closed ++
        ((user? s.users username).toList.map fun user => (username, user.tokenVersion)))

theorem writeUser_row (s : State) (username name : String) (columns : Columns) :
    user? (s.writeUser username columns).users name =
      if username = name then (user? s.users name).map columns.write else user? s.users name :=
  Table.get_modify _ fun _ => rfl

theorem writeUser_closed (found : user? s.users username = some row) (n : Nat)
    (counts : columns.tokenVersion = some n) :
    (s.writeUser username columns).closed = s.closed ++ [(username, row.tokenVersion)] := by
  simp only [State.writeUser, found, counts]

theorem writeUser_open (columns : Columns) (keeps : columns.tokenVersion = none) :
    (s.writeUser username columns).closed = s.closed := by
  simp only [State.writeUser, keeps]
  cases user? s.users username <;> exact List.append_nil _

theorem closed_grows (rows : Rows s s') : s.closed ⊆ s'.closed := by
  intro left mem
  cases rows with
  | same users closed | added user absent users closed sound => exact closed ▸ mem
  | written username columns row found users closed sound =>
    exact closed ▸ List.mem_append_left _ mem
  | removed username users closed => exact closed ▸ List.mem_append_left _ mem

theorem Rows.known (rows : Rows s s') (known : s.Known name v) : s'.Known name v := by
  rcases known with left | ⟨row, found, is⟩
  · exact .inl (closed_grows rows left)
  · cases rows with
    | same users closed => exact .inr ⟨row, users ▸ found, is⟩
    | added user absent users closed sound =>
      refine .inr ⟨row, ?_, is⟩
      have first : user? (s.users ++ [user]) name = (user? s.users name).or _ := Table.get_append _ _
      rw [users, first, found]
      rfl
    | written username columns old there users closed sound =>
      by_cases mine : username = name
      · subst mine
        cases counts : columns.tokenVersion with
        | none =>
          refine .inr ⟨columns.write row, ?_, ?_⟩
          · rw [users, writeUser_row, if_pos rfl, found]
            rfl
          · rw [Columns.write, counts]
            exact is
        | some n =>
          refine .inl ?_
          rw [closed, writeUser_closed found n counts, is]
          exact List.mem_append_right _ (List.mem_singleton_self _)
      · refine .inr ⟨row, ?_, is⟩
        rw [users, writeUser_row, if_neg mine]
        exact found
    | removed username users closed =>
      by_cases mine : name = username
      · subst mine
        refine .inl ?_
        rw [closed, found, ← is]
        exact List.mem_append_right _ (List.mem_singleton_self _)
      · refine .inr ⟨row, ?_, is⟩
        rw [users, removed_row, if_pos mine]
        exact found

/-- The versions an identity-provider user left are below the one they have, and such a user has no
password. -/
structure Accounts (s : State) : Prop where
  unusable : ∀ row ∈ s.users, localName row.username = false → row.passwordHash = unusableHash
  left : ∀ name v row, (name, v) ∈ s.closed → localName name = false →
    user? s.users name = some row → v < row.tokenVersion

theorem Accounts.rows (accounts : Accounts s) (rows : Rows s s') : Accounts s' := by
  obtain ⟨unusable, left⟩ := accounts
  cases rows with
  | same users closed =>
    refine ⟨?_, ?_⟩
    · rwa [users]
    · rwa [users, closed]
  | added user absent users closed sound =>
    refine ⟨fun row mem named => ?_, fun name v row mem named found => ?_⟩
    · rw [users] at mem
      rcases List.mem_append.mp mem with was | now
      · exact unusable row was named
      · obtain rfl := List.mem_singleton.mp now
        exact (sound named).1
    · rw [closed] at mem
      have snoc : user? (s.users ++ [user]) name = if user.username = name then some user
        else user? s.users name := Table.get_snoc absent
      rw [users, snoc] at found
      split_ifs at found with mine
      · cases found
        subst mine
        exact (sound named).2 v mem
      · exact left name v row mem named found
  | written username columns old there users closed sound =>
    refine ⟨fun row mem named => ?_, fun name v row mem named found => ?_⟩
    · rw [users] at mem
      obtain ⟨was, inRows, rfl⟩ := List.mem_map.mp mem
      by_cases mine : was.username = username
      · rw [if_pos mine] at named ⊢
        have hash := (sound (mine ▸ named)).1
        rw [Columns.write, hash]
        exact unusable was inRows named
      · rw [if_neg mine] at named ⊢
        exact unusable was inRows named
    · rw [users, writeUser_row] at found
      rw [closed] at mem
      cases counts : columns.tokenVersion with
      | none =>
        rw [writeUser_open columns counts] at mem
        split_ifs at found with mine
        · obtain ⟨was, wasFound, rfl⟩ := Option.map_eq_some_iff.mp found
          rw [Columns.write, counts]
          exact left name v was mem named wasFound
        · exact left name v row mem named found
      | some n =>
        rw [writeUser_closed there n counts] at mem
        split_ifs at found with mine
        · subst mine
          rw [there] at found
          cases found
          rw [Columns.write, counts]
          have above := (sound named).2 n counts
          rcases List.mem_append.mp mem with was | now
          · exact (left username v old was named there).trans above
          · cases List.mem_singleton.mp now
            exact above
        · rcases List.mem_append.mp mem with was | now
          · exact left name v row was named found
          · cases List.mem_singleton.mp now
            exact absurd rfl mine
  | removed username users closed =>
    refine ⟨fun row mem named => ?_, fun name v row mem named found => ?_⟩
    · rw [users] at mem
      exact unusable row (List.mem_filter.mp mem).1 named
    · rw [users, removed_row] at found
      split_ifs at found with other
      rw [closed] at mem
      rcases List.mem_append.mp mem with was | now
      · exact left name v row was named found
      · obtain ⟨gone, _, is⟩ := List.mem_map.mp now
        cases is
        exact absurd rfl other

end Rows

section Steps

variable {service : Service} {s s' : State} {a : Act} {i : Nat} {old stage : Stage}

/-- A change of an identity-provider user sets no password, and counts the version up. -/
def Patch.Sound (patch : Patch) : Prop :=
  (localName patch.username = false → patch.columns.passwordHash = none) ∧
    ∀ n, patch.columns.tokenVersion = some n → patch.seen < n

structure Came (s s' : State) (old stage : Stage) : Prop where
  held : ∀ user, stage.held? = some user →
    (∃ was, old.held? = some was ∧ was.username = user.username ∧
      was.tokenVersion = user.tokenVersion) ∨ s'.Known user.username user.tokenVersion
  issued : old.issued = true → stage.issued = true
  denied : ∀ sub v, old.denied? = some sub → stage.ended = true → s.Known (subjectName sub) v →
    (subjectName sub, v) ∈ s'.closed

def Began (s s' : State) (session : Session) : Prop :=
  ∃ (i : Nat) (user : GuiUser), s.callbacks[i]? = some (.issuing session.verified user) ∧
    session.username = user.username ∧ session.version = user.tokenVersion ∧
    s.stale user = false ∧ s'.users = s.users

structure Facts (service : Service) (s : State) (a : Act) (s' : State) : Prop where
  rows : Rows s s'
  patches : ∀ patch ∈ s'.patches, patch ∈ s.patches ∨ patch.Sound
  stays : ∀ (k : Nat) old, s.callbacks[k]? = some old →
    ∃ stage, s'.callbacks[k]? = some stage ∧ Came s s' old stage
  fresh : ∀ (k : Nat) stage, s'.callbacks[k]? = some stage → s.callbacks[k]? = none →
    stage.held? = none
  sessions : ∀ session ∈ s'.sessions, session ∈ s.sessions ∨ Began s s' session
  made : ∀ i, a.of? = some i → (∀ row ∈ s'.users, row.username ∈ s.users.map (·.username)) ∨
    ∃ stage, s'.callbacks[i]? = some stage ∧ stage.issued = true
  started : ∀ login ∈ s'.started, login ∈ s.started ∨ ∃ binding,
    a = .login login.state login.nonce binding ∧ login.bindingHash = service.sha256 binding ∧
      login.expiresAt = s.clock + service.ttl

theorem Came.refl (stage : Stage) : Came s s' stage stage where
  held user is := .inl ⟨user, is, rfl, rfl⟩
  issued is := is
  denied sub v is ended := by cases stage <;> simp [Stage.denied?, Stage.ended] at is ended

theorem came_plain (unheld : stage.held? = none) (unissued : old.issued = false)
    (undenied : old.denied? = none) : Came s s' old stage where
  held user is := by simp [unheld] at is
  issued is := by simp [unissued] at is
  denied sub v is := by simp [undenied] at is

theorem left_of_gone {sub : String} {v : Nat} (absent : user? s.users (subjectName sub) = none)
    (known : s.Known (subjectName sub) v) : (subjectName sub, v) ∈ s.closed := by
  rcases known with left | ⟨row, found, _⟩
  · exact left
  · rw [absent] at found
    cases found

theorem stays_set (found : s.callbacks[i]? = some old)
    (callbacks : s'.callbacks = s.callbacks.set i stage) (came : Came s s' old stage) (k : Nat)
    (was : Stage) (there : s.callbacks[k]? = some was) :
    ∃ next, s'.callbacks[k]? = some next ∧ Came s s' was next := by
  by_cases mine : i = k
  · subst mine
    rw [found] at there
    cases there
    obtain ⟨within, _⟩ := List.getElem?_eq_some_iff.mp found
    exact ⟨stage, by rw [callbacks, List.getElem?_set_self within], came⟩
  · exact ⟨was, by rw [callbacks, List.getElem?_set_ne mine, there], .refl was⟩

theorem fresh_set (callbacks : s'.callbacks = s.callbacks.set i stage) (k : Nat) (next : Stage)
    (there : s'.callbacks[k]? = some next) (absent : s.callbacks[k]? = none) :
    next.held? = none := by
  rw [callbacks] at there
  have within := (List.getElem?_eq_some_iff.mp there).1
  rw [List.length_set] at within
  rw [List.getElem?_eq_getElem within] at absent
  cases absent

theorem Facts.moved (found : s.callbacks[i]? = some old) (users : s'.users = s.users)
    (closed : s'.closed = s.closed) (patches : s'.patches = s.patches)
    (sessions : s'.sessions = s.sessions) (began : s'.started = s.started)
    (callbacks : s'.callbacks = s.callbacks.set i stage) (came : Came s s' old stage) :
    Facts service s a s' where
  rows := .same users closed
  patches _ mem := .inl (patches ▸ mem)
  stays := stays_set found callbacks came
  fresh := fresh_set callbacks
  sessions _ mem := .inl (sessions ▸ mem)
  made _ _ := .inl fun _ mem => List.mem_map_of_mem (users ▸ mem)
  started _ mem := .inl (began ▸ mem)

theorem Facts.wrote {username : String} {columns : Columns} {next : State}
    (found : s.callbacks[i]? = some old) (rows : Rows s next)
    (users : next.users = (s.writeUser username columns).users)
    (patches : next.patches = s.patches) (sessions : next.sessions = s.sessions)
    (began : next.started = s.started) (callbacks : next.callbacks = s.callbacks.set i stage)
    (came : Came s next old stage) : Facts service s a next where
  rows := rows
  patches _ mem := .inl (patches ▸ mem)
  stays := stays_set found callbacks came
  fresh := fresh_set callbacks
  sessions _ mem := .inl (sessions ▸ mem)
  made _ _ := .inl fun _ mem => by
    have kept : next.users.map (·.username) = s.users.map (·.username) := by
      rw [users]
      exact Table.keys_modify _ fun _ => rfl
    rw [← kept]
    exact List.mem_map_of_mem mem
  started _ mem := .inl (began ▸ mem)

theorem Facts.beside (of_ : a.of? = none) (rows : Rows s s')
    (patches : ∀ patch ∈ s'.patches, patch ∈ s.patches ∨ patch.Sound)
    (sessions : s'.sessions = s.sessions)
    (started : ∀ login ∈ s'.started, login ∈ s.started ∨ ∃ binding,
      a = .login login.state login.nonce binding ∧ login.bindingHash = service.sha256 binding ∧
        login.expiresAt = s.clock + service.ttl)
    (callbacks : s'.callbacks = s.callbacks) : Facts service s a s' where
  rows := rows
  patches := patches
  stays k old there := ⟨old, callbacks ▸ there, .refl old⟩
  fresh k stage there absent := by
    rw [callbacks, absent] at there
    cases there
  sessions _ mem := .inl (sessions ▸ mem)
  made i is := by simp [of_] at is
  started := started

theorem localName_subject (sub : String) : localName (subjectName sub) = false := by
  simp [localName, subjectName, String.toList_append]

theorem verified_unheld (taken : Taken) (tokens : Tokens) :
    (s.verified service taken tokens).held? = none := by
  unfold State.verified
  split
  · rfl
  · split
    · rfl
    · split <;> rfl

theorem provisioned_came (verified : Verified) (again : Bool) (users : s'.users = s.users) :
    Came s s' (.provisioning verified again) (s.provisioned verified again) where
  held user is := by
    unfold State.provisioned at is
    cases found : user? s.users (subjectName verified.sub) with
    | none => simp [found, Stage.held?] at is
    | some row =>
      cases active : row.active with
      | false => simp [found, active, Stage.held?] at is
      | true =>
        simp only [found, active, if_true, Stage.held?, Option.some.injEq] at is
        subst is
        have named : row.username = subjectName verified.sub := Table.key_of_get found
        exact .inr (.inr ⟨row, by rw [users, named, found], rfl⟩)
  issued is := by cases is
  denied sub v is := by cases is

theorem patch_sound {username : String} {body : UpdateUserRequest} {user : GuiUser}
    {columns : Columns} (accounts : Accounts s) (found : user? s.users username = some user)
    (allowed : ¬(body.password.isSome = true ∧ user.passwordHash = unusableHash))
    (made : body.changes user = .ok columns) :
    Patch.Sound ⟨username, user.tokenVersion, columns⟩ := by
  unfold UpdateUserRequest.changes at made
  dsimp only at made
  split_ifs at made
  all_goals cases made
  · refine ⟨fun named => ?_, nofun⟩
    have row : user.username = username := Table.key_of_get found
    have hash := accounts.unusable user (Table.mem_of_get found) (row ▸ named)
    cases sent : body.password with
    | none => rfl
    | some password => exact absurd ⟨by rw [sent]; rfl, hash⟩ allowed
  · next some_ =>
    refine ⟨fun named => ?_, fun n counts => ?_⟩
    · have row : user.username = username := Table.key_of_get found
      have hash := accounts.unusable user (Table.mem_of_get found) (row ▸ named)
      cases sent : body.password with
      | none => rfl
      | some password => exact absurd ⟨by rw [sent]; rfl, hash⟩ allowed
    · cases counts
      dsimp only
      omega

end Steps

section Inversion

variable {service : Service} {s s' : State} {a : Act}

theorem facts_of_step (origins : Origins service s) (accounts : Accounts s)
    (patches : ∀ patch ∈ s.patches, patch.Sound) (inTime : s.lapses a = false)
    (step : State.Step service s a s') : Facts service s a s' := by
  have plain {i : Nat} {old stage : Stage} {next : State} (found : s.callbacks[i]? = some old)
      (users : next.users = s.users) (closed : next.closed = s.closed)
      (patches : next.patches = s.patches) (sessions : next.sessions = s.sessions)
      (began : next.started = s.started) (callbacks : next.callbacks = s.callbacks.set i stage)
      (unheld : stage.held? = none) (unissued : old.issued = false) (undenied : old.denied? = none) :
      Facts service s a next :=
    .moved found users closed patches sessions began callbacks (came_plain unheld unissued undenied)
  have gone {i : Nat} {old stage : Stage} {sub : String} (found : s.callbacks[i]? = some old)
      (unheld : stage.held? = none) (unissued : old.issued = false) (denies : old.denied? = some sub)
      (absent : user? s.users (subjectName sub) = none) : Facts service s a (s.at_ i stage) := by
    refine .moved found rfl rfl rfl rfl rfl rfl ⟨?_, ?_, fun other v is _ known => ?_⟩
    · intro user is
      simp [unheld] at is
    · intro is
      simp [unissued] at is
    · rw [denies] at is
      cases is
      exact left_of_gone absent known
  unfold State.Step State.act at step
  cases a with
  | tick seconds =>
    cases step
    exact .beside rfl (.same rfl rfl) (fun _ mem => .inl mem) rfl (fun _ mem => .inl mem) rfl
  | login state nonce binding =>
    dsimp only at step
    split_ifs at step with drawn full
    · cases step
      exact .beside rfl (.same rfl rfl) (fun _ mem => .inl mem) rfl (fun _ mem => .inl mem) rfl
    · cases step
      refine .beside rfl (.same rfl rfl) (fun _ mem => .inl mem) rfl (fun login mem => ?_) rfl
      rcases List.mem_append.mp mem with was | now
      · exact .inl was
      · obtain rfl := List.mem_singleton.mp now
        exact .inr ⟨binding, rfl, rfl, rfl⟩
  | callback callback =>
    cases step
    refine ⟨.same rfl rfl, fun _ mem => .inl mem, fun k old there => ⟨old, ?_, .refl old⟩,
      fun k stage there absent => ?_, fun _ mem => .inl mem, (fun i is => by cases is),
      fun _ mem => .inl mem⟩
    · exact List.getElem?_append_left (List.getElem?_eq_some_iff.mp there).1 ▸ there
    · rcases Table.append_cases there with ⟨_, rfl⟩ | was
      · rfl
      · rw [absent] at was
        cases was
  | find i =>
    cases found : s.callbacks[i]? with
    | none => simp [found] at step
    | some stage =>
      cases stage with
      | arrived callback =>
        simp only [found] at step
        cases there : callback.state.bind fun state => s.logins.find? (·.state = state) with
        | none =>
          simp only [there, Option.some.injEq] at step
          subst step
          exact plain found rfl rfl rfl rfl rfl rfl rfl rfl rfl
        | some login =>
          simp only [there, Option.some.injEq] at step
          subst step
          exact plain found rfl rfl rfl rfl rfl rfl rfl rfl rfl
      | _ => simp [found] at step
  | consume i =>
    cases found : s.callbacks[i]? with
    | none => simp [found] at step
    | some stage =>
      cases stage with
      | found taken =>
        simp only [found] at step
        split_ifs at step with bad unwilling
        all_goals
          cases step
          exact plain found rfl rfl rfl rfl rfl rfl rfl rfl rfl
      | _ => simp [found] at step
  | exchange i answer =>
    cases found : s.callbacks[i]? with
    | none => simp [found] at step
    | some stage =>
      cases stage with
      | consumed taken =>
        cases answer with
        | none =>
          simp only [found, Option.some.injEq] at step
          subst step
          exact plain found rfl rfl rfl rfl rfl rfl rfl rfl rfl
        | some tokens =>
          simp only [found, Option.some.injEq] at step
          subst step
          exact plain found rfl rfl rfl rfl rfl rfl (verified_unheld taken tokens) rfl rfl
      | _ => simp [found] at step
  | readDenied i =>
    cases found : s.callbacks[i]? with
    | none => simp [found] at step
    | some stage =>
      cases stage with
      | denying sub code =>
        simp only [found] at step
        cases there : user? s.users (subjectName sub) with
        | none =>
          simp only [there, Option.some.injEq] at step
          subst step
          exact gone found rfl rfl rfl there
        | some user =>
          simp only [there, Option.some.injEq] at step
          subst step
          refine .moved found rfl rfl rfl rfl rfl rfl
            ⟨(fun _ is => by cases is), (fun is => by cases is), ?_⟩
          intro sub v _ ended
          cases ended
      | _ => simp [found] at step
  | bump i =>
    cases found : s.callbacks[i]? with
    | none => simp [found] at step
    | some stage =>
      cases stage with
      | bumping sub seen code =>
        simp only [found] at step
        cases there : user? s.users (subjectName sub) with
        | none =>
          simp only [there, Option.some.injEq] at step
          subst step
          exact gone found rfl rfl rfl there
        | some row =>
          simp only [there, Option.some.injEq] at step
          subst step
          have current : row.tokenVersion = seen := by simpa [State.lapses, found, there] using inTime
          have rows : Rows s ((s.writeUser (subjectName sub) { tokenVersion := some (seen + 1) }).at_ i
              (.refused code)) := by
            refine .written (subjectName sub) { tokenVersion := some (seen + 1) } row there rfl rfl
              fun _ => ⟨rfl, fun n counts => ?_⟩
            cases counts
            omega
          refine .wrote found rows rfl rfl rfl rfl rfl
            ⟨(fun _ is => by cases is), (fun is => by cases is), ?_⟩
          intro other v is _ known
          cases is
          rcases known with left | ⟨row', found', version⟩
          · exact closed_grows rows left
          · rw [there] at found'
            cases found'
            have closes := @writeUser_closed s (subjectName sub) { tokenVersion := some (seen + 1) } row
              there (seen + 1) rfl
            change _ ∈ (s.writeUser (subjectName sub) { tokenVersion := some (seen + 1) }).closed
            rw [closes, version]
            exact List.mem_append_right _ (List.mem_singleton_self _)
      | _ => simp [found] at step
  | provision i =>
    cases found : s.callbacks[i]? with
    | none => simp [found] at step
    | some stage =>
      cases stage with
      | provisioning verified again =>
        simp only [found, Option.some.injEq] at step
        subst step
        exact .moved found rfl rfl rfl rfl rfl rfl (provisioned_came verified again rfl)
      | _ => simp [found] at step
  | create i drawn =>
    cases found : s.callbacks[i]? with
    | none => simp [found] at step
    | some stage =>
      cases stage with
      | creating verified again =>
        simp only [found] at step
        cases there : user? s.users (subjectName verified.sub) with
        | some user =>
          simp only [there, Option.some.injEq] at step
          subst step
          cases again with
          | true => exact plain found rfl rfl rfl rfl rfl rfl rfl rfl rfl
          | false => exact plain found rfl rfl rfl rfl rfl rfl rfl rfl rfl
        | none =>
          simp only [there, Option.some.injEq] at step
          subst step
          have above : ∀ v, (subjectName verified.sub, v) ∈ s.closed → v < drawn := by
            intro v mem
            have apart := List.any_eq_false.mp
              (by simpa only [State.lapses, found] using inTime) _ mem
            simpa using apart
          have callbacks : (s.at_ i (.issuing verified (State.newUser verified drawn))).callbacks =
              s.callbacks.set i (.issuing verified (State.newUser verified drawn)) := rfl
          have absent : user? s.users (State.newUser verified drawn).username = none := there
          have snoc : user? (s.users ++ [State.newUser verified drawn])
              (State.newUser verified drawn).username = some (State.newUser verified drawn) := by
            rw [user?, Table.get_snoc absent, if_pos rfl]
          refine ⟨.added (State.newUser verified drawn) there rfl rfl fun _ => ⟨rfl, above⟩,
            fun _ mem => .inl mem, stays_set found callbacks
              ⟨fun user is => ?_, (fun is => by cases is), ?_⟩,
            fresh_set callbacks, fun _ mem => .inl mem, fun j of_ => ?_, fun _ mem => .inl mem⟩
          · cases is
            exact .inr (.inr ⟨_, snoc, rfl⟩)
          · intro sub v is
            cases is
          · cases of_
            obtain ⟨within, _⟩ := List.getElem?_eq_some_iff.mp found
            exact .inr ⟨_, List.getElem?_set_self within, rfl⟩
      | _ => simp [found] at step
  | give i =>
    cases found : s.callbacks[i]? with
    | none => simp [found] at step
    | some stage =>
      cases stage with
      | giving verified user columns =>
        obtain ⟨good, named, version, password, active⟩ := origins.stages i _ found
        simp only [found] at step
        split_ifs at step with nothing
        · cases step
          refine .moved found rfl rfl rfl rfl rfl rfl
            ⟨fun held is => ?_, (fun is => by cases is), ?_⟩
          · cases is
            exact .inl ⟨user, rfl, rfl, rfl⟩
          · intro sub v is
            cases is
        · cases there : user? s.users user.username with
          | none =>
            simp only [there, Option.some.injEq] at step
            subst step
            exact plain found rfl rfl rfl rfl rfl rfl rfl rfl rfl
          | some row =>
            simp only [there, Option.some.injEq] at step
            subst step
            refine .wrote found (.written user.username columns row there rfl rfl fun _ =>
              ⟨password, fun n counts => ?_⟩) rfl rfl rfl rfl rfl
                ⟨fun held is => ?_, (fun is => by cases is), ?_⟩
            · rw [version] at counts
              cases counts
            · cases is
              refine .inl ⟨user, rfl, rfl, ?_⟩
              rw [Columns.write, version]
              rfl
            · intro sub v is
              cases is
      | _ => simp [found] at step
  | issue i =>
    cases found : s.callbacks[i]? with
    | none => simp [found] at step
    | some stage =>
      cases stage with
      | issuing verified user =>
        simp only [found, Option.some.injEq] at step
        subst step
        have callbacks : (s.at_ i .signedIn).callbacks = s.callbacks.set i .signedIn := rfl
        refine ⟨.same rfl rfl, fun _ mem => .inl mem, stays_set found callbacks ⟨?_, fun _ => rfl, ?_⟩,
          fresh_set callbacks, fun session mem => ?_, fun j _ => .inl fun row mem =>
            List.mem_map_of_mem mem, fun _ mem => .inl mem⟩
        · intro held is
          cases is
        · intro sub v is
          cases is
        · rcases List.mem_append.mp mem with was | now
          · exact .inl was
          · obtain rfl := List.mem_singleton.mp now
            refine .inr ⟨i, user, found, rfl, rfl, ?_, rfl⟩
            simpa only [State.lapses, found] using inTime
      | _ => simp [found] at step
  | addLocal username passwordHash role drawn =>
    dsimp only at step
    split_ifs at step with ok
    cases step
    have absent : user? s.users username = none := by simpa using ok.2.2
    refine .beside rfl (.added ⟨username, passwordHash, role, true, drawn, false, none⟩ absent rfl rfl
      fun named => ?_) (fun _ mem => .inl mem) rfl (fun _ mem => .inl mem) rfl
    rw [ok.1] at named
    cases named
  | patch username body =>
    cases there : user? s.users username with
    | none => simp [there] at step
    | some user =>
      simp only [there] at step
      split_ifs at step with refused
      cases made : body.changes user with
      | error refusal => simp [made] at step
      | ok columns =>
        simp only [made, Option.some.injEq] at step
        subst step
        refine .beside rfl (.same rfl rfl) (fun patch mem => ?_) rfl (fun _ mem => .inl mem) rfl
        rcases List.mem_append.mp mem with was | now
        · exact .inl was
        · obtain rfl := List.mem_singleton.mp now
          exact .inr (patch_sound accounts there refused made)
  | commitPatch i =>
    cases found : s.patches[i]? with
    | none => simp [found] at step
    | some patch =>
      simp only [found] at step
      cases there : user? s.users patch.username with
      | none => simp [there] at step
      | some row =>
        simp only [there, Option.some.injEq] at step
        subst step
        obtain ⟨password, counted⟩ := patches patch (List.mem_of_getElem? found)
        refine .beside rfl (.written patch.username patch.columns row there rfl rfl fun named =>
          ⟨password named, fun n counts => ?_⟩)
          (fun other mem => .inl ((List.eraseIdx_sublist _ _).subset mem)) rfl
          (fun _ mem => .inl mem) rfl
        have current : row.tokenVersion = patch.seen := by
          simpa [State.lapses, found, there, named, counts] using inTime
        have := counted n counts
        omega
  | remove username =>
    cases step
    exact .beside rfl (.removed username rfl rfl) (fun _ mem => .inl mem) rfl (fun _ mem => .inl mem)
      rfl

end Inversion

section Runs_

open Runs (Run)

variable {service : Service} {s s' : State} {a : Act} {trace : List (Runs.Step State Act)}

structure Kept (service : Service) (s : State) : Prop where
  origins : Origins service s
  accounts : Accounts s
  patches : ∀ patch ∈ s.patches, patch.Sound
  held : ∀ (i : Nat) stage user, s.callbacks[i]? = some stage → stage.held? = some user →
    s.Known user.username user.tokenVersion
  sessions : ∀ session ∈ s.sessions, s.Known session.username session.version

theorem kept_empty : Kept service {} where
  origins := by constructor <;> simp
  accounts := by constructor <;> simp
  patches := by simp
  held := by simp
  sessions := by simp

theorem Kept.facts (kept : Kept service s) (inTime : s.lapses a = false)
    (step : State.Step service s a s') : Facts service s a s' :=
  facts_of_step kept.origins kept.accounts kept.patches inTime step

theorem Kept.act (kept : Kept service s) (inTime : s.lapses a = false)
    (step : State.Step service s a s') : Kept service s' := by
  have facts := kept.facts inTime step
  refine ⟨kept.origins.act step, kept.accounts.rows facts.rows, fun patch mem => ?_,
    fun i stage user there is => ?_, fun session mem => ?_⟩
  · exact (facts.patches patch mem).elim (kept.patches patch) id
  · cases before : s.callbacks[i]? with
    | none =>
      rw [facts.fresh i stage there before] at is
      cases is
    | some old =>
      obtain ⟨next, there', came⟩ := facts.stays i old before
      rw [there] at there'
      cases there'
      rcases came.held user is with ⟨was, isWas, name, version⟩ | known
      · have known := kept.held i old was before isWas
        rw [name, version] at known
        exact facts.rows.known known
      · exact known
  · rcases facts.sessions session mem with was | ⟨i, user, found, name, version, _⟩
    · exact facts.rows.known (kept.sessions session was)
    · rw [name, version]
      exact facts.rows.known (kept.held i _ user found rfl)

def State.Accepts (s : State) (session : Session) : Prop :=
  ∃ row, user? s.users session.username = some row ∧ row.active = true ∧
    row.tokenVersion = session.version

/-- The session is of the browser in which the sign-in was started, which came back in time. -/
def Session.FromBrowser (service : Service) (trace : List (Runs.Step State Act)) (session : Session) :
    Prop :=
  ∃ t ∈ trace, t.label = .login session.verified.taken.login.state session.verified.taken.login.nonce
      session.verified.taken.callback.binding ∧
    session.verified.taken.callback.state = some session.verified.taken.login.state ∧
    session.verified.taken.now < t.before.clock + service.ttl

/-- The session is of a token that verified, for this sign-in and this client, and its groups. -/
structure Session.FromToken (service : Service) (session : Session) : Prop where
  passed : Passed service.cfg service.jwt session.verified.tokens.idToken
    session.verified.taken.login.nonce session.verified.at_ session.verified.sub session.verified.claims
  audience : service.cfg.clientId ∈ audience session.verified.claims
  role : Highest service.cfg session.verified.claims session.verified.role

structure SignInsHold (service : Service) (trace : List (Runs.Step State Act)) (s : State) : Prop where
  single : (s.sessions.map Session.state).Nodup
  browser : ∀ session ∈ s.sessions, session.FromBrowser service trace
  token : ∀ session ∈ s.sessions, session.FromToken service
  named : ∀ session ∈ s.sessions, session.username = subjectName session.verified.sub ∧
    localName session.username = false ∧
    ∀ row, user? s.users session.username = some row → row.passwordHash = unusableHash
  active : ∀ t ∈ trace, ∀ session ∈ t.after.sessions, session ∈ t.before.sessions ∨
    ∃ row, user? t.after.users session.username = some row ∧ row.active = true ∧
      row.role = session.verified.role
  denied : ∀ t ∈ trace, ∀ (i : Nat) old stage sub, t.before.callbacks[i]? = some old →
    old.denied? = some sub → t.after.callbacks[i]? = some stage → stage.ended = true →
      ∀ session ∈ t.before.sessions, session.username = subjectName sub → ¬s.Accepts session
  unmade : ∀ (i : Nat) stage, s.callbacks[i]? = some stage → stage.ended = true → ∀ t ∈ trace,
    t.label.of? = some i → ∀ row ∈ t.after.users, row.username ∈ t.before.users.map (·.username)

theorem began_active (origins : Origins service s) {session : Session} (began : Began s s' session) :
    ∃ row, user? s'.users session.username = some row ∧ row.active = true ∧
      row.role = session.verified.role := by
  obtain ⟨i, user, found, name, _, current, users⟩ := began
  obtain ⟨_, _, active, role⟩ := origins.stages i _ found
  have same := of_decide_eq_false current
  rw [ne_eq, not_not] at same
  obtain ⟨row, there, is⟩ := Option.map_eq_some_iff.mp same
  rw [Prod.mk.injEq] at is
  exact ⟨row, by rw [users, name, there], is.1.trans active, is.2.trans role⟩

theorem started_of_run (run : Run (State.Step service) {} trace s)
    (inTime : ∀ t ∈ trace, t.before.lapses t.label = false) : ∀ login ∈ s.started, ∃ t ∈ trace,
      ∃ binding, t.label = .login login.state login.nonce binding ∧
        login.bindingHash = service.sha256 binding ∧
        login.expiresAt = t.before.clock + service.ttl := by
  refine (run.invariant_of_guarded_history
    (fun trace s => Kept service s ∧ ∀ login ∈ s.started, ∃ t ∈ trace, ∃ binding,
      t.label = .login login.state login.nonce binding ∧
        login.bindingHash = service.sha256 binding ∧ login.expiresAt = t.before.clock + service.ttl)
    (fun _ s a => s.lapses a = false) ⟨kept_empty, nofun⟩ ?_ ?_).2
  · rintro trace s a s' ⟨kept, began⟩ first step
    refine ⟨kept.act first step, fun login mem => ?_⟩
    rcases (kept.facts first step).started login mem with was | ⟨binding, now⟩
    · obtain ⟨t, inTrace, is⟩ := began login was
      exact ⟨t, List.mem_append_left _ inTrace, is⟩
    · exact ⟨_, List.mem_append_right _ (List.mem_singleton_self _), binding, now⟩
  · intro earlier t later same
    exact inTime t (by simp [same])

/-- The sign-ins of a run lead to what they should, when no row is changed between its read and the
session or the version written from it, and no version is drawn at or below one that was left. -/
theorem sign_ins_hold (injective : Function.Injective service.sha256)
    (audiences : ∀ token now claims, service.jwt.decode token now = some claims →
      service.cfg.clientId ∈ audience claims)
    (run : Run (State.Step service) {} trace s)
    (inTime : ∀ t ∈ trace, t.before.lapses t.label = false) : SignInsHold service trace s := by
  have keeps : ∀ s a s', Kept service s → s.lapses a = false → State.Step service s a s' →
      Kept service s' := fun s a s' kept first step => kept.act first step
  have kept := run.invariant_of_guarded (Kept service) (fun s a => s.lapses a = false) kept_empty keeps
    inTime
  refine ⟨kept.origins.single, fun session mem => ?_, fun session mem => ?_, fun session mem => ?_,
    ?_, fun t mem => ?_, fun i stage refused ended t mem of_ => ?_⟩
  · obtain ⟨good, _⟩ := kept.origins.sessions session mem
    obtain ⟨t, inTrace, binding, is, hash, expires⟩ := started_of_run run inTime _ good.taken.started
    have cookie := injective (good.taken.cookie.trans hash)
    exact ⟨t, inTrace, cookie ▸ is, good.taken.asked, expires ▸ good.taken.inTime⟩
  · obtain ⟨good, _⟩ := kept.origins.sessions session mem
    exact ⟨good.passed, audiences _ _ _ good.passed.decoded, good.role⟩
  · obtain ⟨_, named⟩ := kept.origins.sessions session mem
    refine ⟨named, named ▸ localName_subject _, fun row found => ?_⟩
    have row_ : row.username = session.username := Table.key_of_get found
    refine kept.accounts.unusable row (Table.mem_of_get found) ?_
    rw [row_, named]
    exact localName_subject _
  · refine run.transitions_of_guarded (Kept service) (fun s a => s.lapses a = false) kept_empty keeps
      _ (fun s a s' kept first step session mem => ?_) inTime
    exact ((kept.facts first step).sessions session mem).imp_right (began_active kept.origins)
  · have closes := run.transitions_of_guarded (Kept service) (fun s a => s.lapses a = false) kept_empty
      keeps (fun t => ∀ (i : Nat) old stage sub, t.before.callbacks[i]? = some old →
        old.denied? = some sub → t.after.callbacks[i]? = some stage → stage.ended = true →
          ∀ session ∈ t.before.sessions, session.username = subjectName sub →
            (subjectName sub, session.version) ∈ t.after.closed) ?_ inTime t mem
    · have later := run.later_of_guarded (Kept service) (fun s a => s.lapses a = false) kept_empty keeps
        (fun s s' => s.closed ⊆ s'.closed) (fun _ => List.Subset.refl _)
        (fun _ _ _ first second => List.Subset.trans first second)
        (fun s a s' kept first step => closed_grows (kept.facts first step).rows) inTime t mem
      rintro i old stage sub before denies after ended session was named ⟨row, found, _, version⟩
      have left := later (closes i old stage sub before denies after ended session was named)
      have above := kept.accounts.left _ _ row left (localName_subject sub) (named ▸ found)
      omega
    · intro s a s' kept first step i old stage sub before denies after ended session was named
      obtain ⟨next, there, came⟩ := (kept.facts first step).stays i old before
      rw [after] at there
      cases there
      exact came.denied sub session.version denies ended (named ▸ kept.sessions session was)
  · have made := run.transitions_of_guarded (Kept service) (fun s a => s.lapses a = false) kept_empty
      keeps (fun t => ∀ i, t.label.of? = some i →
        (∀ row ∈ t.after.users, row.username ∈ t.before.users.map (·.username)) ∨
          ∃ stage, t.after.callbacks[i]? = some stage ∧ stage.issued = true)
      (fun s a s' kept first step => (kept.facts first step).made) inTime t mem i of_
    have later := run.later_of_guarded (Kept service) (fun s a => s.lapses a = false) kept_empty keeps
      (fun s s' => ∀ (i : Nat) stage, s.callbacks[i]? = some stage → stage.issued = true →
        ∃ next, s'.callbacks[i]? = some next ∧ next.issued = true)
      (fun _ i stage there is => ⟨stage, there, is⟩)
      (fun _ _ _ first second i stage there is => by
        obtain ⟨next, there', is'⟩ := first i stage there is
        exact second i next there' is')
      (fun s a s' kept first step i stage there is => by
        obtain ⟨next, there', came⟩ := (kept.facts first step).stays i stage there
        exact ⟨next, there', came.issued is⟩) inTime t mem
    rcases made with unmade | ⟨issued, there, is⟩
    · exact unmade
    · obtain ⟨next, there', is'⟩ := later i issued there is
      rw [refused] at there'
      cases there'
      cases stage <;> simp [Stage.ended, Stage.issued] at ended is'

end Runs_

section Sample

/-- A provider of which every token is Amy's, with its own text as the nonce and as her group. -/
def provider : Service where
  cfg := ⟨"console", "groups", [("joined", .operator), ("joined again", .operator)], none⟩
  jwt := {
    decode := fun token _ => some [("sub", .text "amy"), ("aud", .text "console"),
      ("nonce", .text token), ("groups", .list [.text token])]
    halfHash := fun _ _ => "" }
  sha256 := id
  scopeOf := fun _ => .absent

theorem provider_audience (token : String) (now : Nat) (claims : Claims)
    (is : provider.jwt.decode token now = some claims) : provider.cfg.clientId ∈ audience claims := by
  cases is
  simp [audience, provider, List.lookup_cons]

def comesBack (i : Nat) (state group : String) : List Act :=
  [.login state group "cookie", .callback ⟨some state, "cookie", false, true⟩, .find i, .consume i,
    .exchange i (some ⟨group, none⟩)]

def firstSignIn : List Act := comesBack 0 "first" "joined" ++ [.provision 0, .create 0 7, .issue 0]

def leaves : List Act := firstSignIn ++ comesBack 1 "second" "left" ++ [.readDenied 1, .bump 1]

theorem leaves_holds : SignInsHold provider (Runs.stepsOf (Runs.nextOf (State.act provider)) {} leaves)
    (leaves.foldl (Runs.nextOf (State.act provider)) {}) :=
  sign_ins_hold Function.injective_id provider_audience (Runs.run_enabled (by decide +kernel))
    (by decide +kernel)

/-- Two refusals read the same version; Amy signs in again after the first is written, and the second
one writes the version of that session. -/
def overwrites : List Act :=
  firstSignIn ++ comesBack 1 "second" "left" ++ [.readDenied 1] ++ comesBack 2 "third" "gone" ++
    [.readDenied 2, .bump 2] ++ comesBack 3 "fourth" "joined again" ++
    [.provision 3, .give 3, .issue 3, .bump 1]

theorem refused_keeps_session : ¬∀ (service : Service) (s : State) (trace : List (Runs.Step State Act)),
    Function.Injective service.sha256 →
      (∀ token now claims, service.jwt.decode token now = some claims →
        service.cfg.clientId ∈ audience claims) →
      Runs.Run (State.Step service) {} trace s → SignInsHold service trace s := by
  intro always
  have holds := always provider _ _ Function.injective_id provider_audience
    (@Runs.run_enabled _ _ ({} : State) (State.act provider) overwrites (by decide +kernel))
  have kept : ∃ t ∈ Runs.stepsOf (Runs.nextOf (State.act provider)) {} overwrites,
      (t.before.callbacks[1]?.bind Stage.denied?) = some "amy" ∧
        t.after.callbacks[1]?.any Stage.ended = true ∧
        (t.before.sessions.any fun session => session.username = subjectName "amy" &&
          (user? (overwrites.foldl (Runs.nextOf (State.act provider)) {}).users session.username).any
            fun row => row.active && row.tokenVersion = session.version) = true := by
    decide +kernel
  obtain ⟨t, mem, denies, ends, accepted⟩ := kept
  obtain ⟨old, before, denied⟩ := Option.bind_eq_some_iff.mp denies
  obtain ⟨stage, after, ended⟩ := (Option.any_eq_true _ _).mp ends
  obtain ⟨session, was, is⟩ := List.any_eq_true.mp accepted
  simp only [Bool.and_eq_true, decide_eq_true_eq] at is
  obtain ⟨row, found, current⟩ := (Option.any_eq_true _ _).mp is.2
  simp only [Bool.and_eq_true, decide_eq_true_eq] at current
  exact holds.denied t mem 1 old stage "amy" before denied after ended session was is.1
    ⟨row, found, current.1, current.2⟩

end Sample

end Smo.GuiBff.Oidc
