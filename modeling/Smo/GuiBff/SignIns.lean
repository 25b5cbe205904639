import Smo.GuiBff.Oidc

/-! What a sign-in through the identity provider comes from: one login, one browser, one token. -/
namespace Smo.GuiBff.Oidc

open Users (GuiUser Columns UpdateUserRequest SentScope unusableHash user?)

section Token

variable {cfg : OidcConfig} {jwt : Jwt} {claims : Claims}

def Highest (cfg : OidcConfig) (claims : Claims) (role : Role) : Prop :=
  (∃ group ∈ groupsFrom claims cfg.groupsClaim, cfg.groupRoles.lookup group = some role ∧
    ∀ other ∈ groupsFrom claims cfg.groupsClaim, ∀ mapped, cfg.groupRoles.lookup other = some mapped →
      mapped.rank ≤ role.rank) ∨
  (∀ group ∈ groupsFrom claims cfg.groupsClaim, cfg.groupRoles.lookup group = none) ∧
    cfg.defaultRole = some role

theorem higher_of (best role : Role) : (higher best role = best ∨ higher best role = role) ∧
    best.rank ≤ (higher best role).rank ∧ role.rank ≤ (higher best role).rank := by
  unfold higher
  split_ifs with less
  · exact ⟨.inr rfl, less.le, Nat.le_refl _⟩
  · exact ⟨.inl rfl, Nat.le_refl _, Nat.le_of_not_lt less⟩

theorem foldl_higher (roles : List Role) (first : Role) :
    roles.foldl higher first ∈ first :: roles ∧
      ∀ role ∈ first :: roles, role.rank ≤ (roles.foldl higher first).rank := by
  induction roles generalizing first with
  | nil => simp
  | cons role rest ih =>
    obtain ⟨mem, most⟩ := ih (higher first role)
    obtain ⟨one, above, above'⟩ := higher_of first role
    have top : (higher first role).rank ≤ (rest.foldl higher (higher first role)).rank :=
      most _ List.mem_cons_self
    constructor
    · rcases List.mem_cons.mp mem with same | later
      · rcases one with is | is
        · rw [List.foldl_cons, same, is]
          exact List.mem_cons_self
        · rw [List.foldl_cons, same, is]
          exact List.mem_cons_of_mem _ List.mem_cons_self
      · exact List.mem_cons_of_mem _ (List.mem_cons_of_mem _ later)
    · intro other there
      rcases List.mem_cons.mp there with rfl | there
      · exact above.trans top
      · rcases List.mem_cons.mp there with rfl | there
        · exact above'.trans top
        · exact most other (List.mem_cons_of_mem _ there)

theorem roleFor_highest {role : Role} (is : roleFor cfg claims = some role) :
    Highest cfg claims role := by
  unfold roleFor at is
  cases matched : (groupsFrom claims cfg.groupsClaim).filterMap fun group =>
      cfg.groupRoles.lookup group with
  | nil =>
    rw [matched] at is
    refine .inr ⟨fun group mem => ?_, is⟩
    exact List.filterMap_eq_nil_iff.mp matched group mem
  | cons first rest =>
    rw [matched] at is
    cases is
    obtain ⟨mem, most⟩ := foldl_higher rest first
    rw [← matched] at mem most
    obtain ⟨group, there, maps⟩ := List.mem_filterMap.mp mem
    refine .inl ⟨group, there, maps, fun other among mapped is => ?_⟩
    exact most mapped (List.mem_filterMap.mpr ⟨other, among, is⟩)

/-- The claims of a token that passed: what PyJWT verified, for this client and this sign-in. -/
structure Passed (cfg : OidcConfig) (jwt : Jwt) (token nonce : String) (now : Nat) (sub : String)
    (claims : Claims) : Prop where
  decoded : jwt.decode token now = some claims
  subject : textOf claims "sub" = some sub
  nonce : textOf claims "nonce" = some nonce
  party : textOf claims "azp" = some cfg.clientId ∨
    present claims "azp" = false ∧ manyAudiences claims = false

theorem validate_passed {token nonce sub : String} {access : Option String} {now : Nat}
    (is : validateIdToken cfg jwt token nonce access now = some (sub, claims)) :
    Passed cfg jwt token nonce now sub claims := by
  unfold validateIdToken at is
  obtain ⟨read, decoded, is⟩ := Option.bind_eq_some_iff.mp is
  obtain ⟨subject, named, is⟩ := Option.bind_eq_some_iff.mp is
  split_ifs at is with bad party mismatch
  have answer : (subject, read) = (sub, claims) := by
    cases sent : access.filter (· ≠ "") with
    | none =>
      rw [sent] at is
      exact Option.some.inj is
    | some token' =>
      simp only [sent] at is
      split_ifs at is
      exact Option.some.inj is
  cases answer
  refine ⟨decoded, named, not_not.mp mismatch, ?_⟩
  by_cases asked : present claims "azp" = true ∨ manyAudiences claims = true
  · refine .inl (Classical.byContradiction fun other => party ⟨asked, other⟩)
  · obtain ⟨absent, single⟩ := not_or.mp asked
    exact .inr ⟨by simpa using absent, by simpa using single⟩

end Token

section Origins

variable {service : Service} {started more : List OidcLogin} {s s' : State} {i j : Nat}
  {stage old : Stage}

structure Taken.Good (service : Service) (started : List OidcLogin) (taken : Taken) : Prop where
  started : taken.login ∈ started
  asked : taken.callback.state = some taken.login.state
  cookie : service.sha256 taken.callback.binding = taken.login.bindingHash
  inTime : taken.now < taken.login.expiresAt

structure Verified.Good (service : Service) (started : List OidcLogin) (verified : Verified) :
    Prop where
  taken : verified.taken.Good service started
  passed : Passed service.cfg service.jwt verified.tokens.idToken verified.taken.login.nonce
    verified.at_ verified.sub verified.claims
  role : Highest service.cfg verified.claims verified.role

namespace Stage

def login? : Stage → Option String
  | .consumed taken => some taken.login.state
  | .provisioning verified _ | .creating verified _ | .giving verified _ _ | .issuing verified _ =>
    some verified.taken.login.state
  | _ => none

def Good (service : Service) (started : List OidcLogin) : Stage → Prop
  | .found taken => taken.login ∈ started ∧ taken.callback.state = some taken.login.state
  | .consumed taken => taken.Good service started
  | .provisioning verified _ | .creating verified _ => verified.Good service started
  | .giving verified user columns => verified.Good service started ∧
      user.username = subjectName verified.sub ∧ columns.tokenVersion = none ∧
      columns.passwordHash = none ∧ columns.active = none ∧ user.active = true ∧
      columns.role.getD user.role = verified.role
  | .issuing verified user => verified.Good service started ∧
      user.username = subjectName verified.sub ∧ user.active = true ∧ user.role = verified.role
  | _ => True

end Stage

theorem Taken.Good.append {taken : Taken} (good : taken.Good service started) :
    taken.Good service (started ++ more) :=
  ⟨List.mem_append_left _ good.started, good.asked, good.cookie, good.inTime⟩

theorem Verified.Good.append {verified : Verified} (good : verified.Good service started) :
    verified.Good service (started ++ more) :=
  ⟨good.taken.append, good.passed, good.role⟩

theorem Stage.Good.append (good : stage.Good service started) :
    stage.Good service (started ++ more) := by
  cases stage with
  | found taken => exact ⟨List.mem_append_left _ good.1, good.2⟩
  | consumed taken => exact Taken.Good.append good
  | provisioning verified again | creating verified again => exact Verified.Good.append good
  | giving verified user columns | issuing verified user =>
    exact ⟨Verified.Good.append good.1, good.2⟩
  | _ => trivial

theorem Stage.Good.login_started {state : String} (good : stage.Good service started)
    (holds : stage.login? = some state) : state ∈ started.map (·.state) := by
  cases stage with
  | consumed taken =>
    cases holds
    exact List.mem_map_of_mem (Taken.Good.started good)
  | provisioning verified again | creating verified again =>
    cases holds
    exact List.mem_map_of_mem (Verified.Good.taken good).started
  | giving verified user columns | issuing verified user =>
    cases holds
    exact List.mem_map_of_mem good.1.taken.started
  | _ => cases holds

def Session.state (session : Session) : String := session.verified.taken.login.state

/-- A login is in the table, in the hands of one callback, or the origin of one session. -/
structure Origins (service : Service) (s : State) : Prop where
  stored : ∀ login ∈ s.logins, login ∈ s.started
  stages : ∀ (i : Nat) stage, s.callbacks[i]? = some stage → stage.Good service s.started
  sessions : ∀ session ∈ s.sessions, session.verified.Good service s.started ∧
    session.username = subjectName session.verified.sub
  alone : ∀ (i j : Nat) stage other state, s.callbacks[i]? = some stage →
    s.callbacks[j]? = some other → stage.login? = some state → other.login? = some state → i = j
  out : ∀ (i : Nat) stage state, s.callbacks[i]? = some stage → stage.login? = some state →
    state ∉ s.logins.map (·.state) ∧ state ∉ s.sessions.map (·.state)
  single : (s.sessions.map (·.state)).Nodup
  gone : ∀ session ∈ s.sessions, session.state ∉ s.logins.map (·.state)

theorem Origins.step (origins : Origins service s) (found : s.callbacks[i]? = some old)
    (logins : s'.logins = s.logins) (began : s'.started = s.started)
    (callbacks : s'.callbacks = s.callbacks.set i stage) (sessions : s'.sessions = s.sessions)
    (good : stage.Good service s.started)
    (same : ∀ state, stage.login? = some state → old.login? = some state) : Origins service s' := by
  have cases_ (k : Nat) (other : Stage) (is : s'.callbacks[k]? = some other) :
      k = i ∧ other = stage ∨ k ≠ i ∧ s.callbacks[k]? = some other := by
    rw [callbacks] at is
    exact Table.set_cases is
  have before (k : Nat) (other : Stage) (state : String) (is : s'.callbacks[k]? = some other)
      (holds : other.login? = some state) :
      ∃ was, s.callbacks[k]? = some was ∧ was.login? = some state := by
    rcases cases_ k other is with ⟨rfl, rfl⟩ | ⟨_, was⟩
    · exact ⟨old, found, same state holds⟩
    · exact ⟨other, was, holds⟩
  refine ⟨?_, fun k other is => ?_, ?_, fun k k' other other' state is is' holds holds' => ?_,
    fun k other state is holds => ?_, ?_, ?_⟩
  · rw [logins, began]
    exact origins.stored
  · rw [began]
    rcases cases_ k other is with ⟨_, rfl⟩ | ⟨_, was⟩
    · exact good
    · exact origins.stages k other was
  · rw [sessions, began]
    exact origins.sessions
  · obtain ⟨was, at_, held⟩ := before k other state is holds
    obtain ⟨was', at', held'⟩ := before k' other' state is' holds'
    exact origins.alone k k' was was' state at_ at' held held'
  · rw [logins, sessions]
    obtain ⟨was, at_, held⟩ := before k other state is holds
    exact origins.out k was state at_ held
  · rw [sessions]
    exact origins.single
  · rw [logins, sessions]
    exact origins.gone

theorem Origins.same (origins : Origins service s) (logins : s'.logins = s.logins)
    (began : s'.started = s.started) (callbacks : s'.callbacks = s.callbacks)
    (sessions : s'.sessions = s.sessions) : Origins service s' := by
  obtain ⟨stored, stages, issued, alone, out, single, gone⟩ := origins
  refine ⟨?_, ?_, ?_, ?_, ?_, ?_, ?_⟩
  · rw [logins, began]
    exact stored
  · rw [callbacks, began]
    exact stages
  · rw [sessions, began]
    exact issued
  · rw [callbacks]
    exact alone
  · rw [callbacks, logins, sessions]
    exact out
  · rw [sessions]
    exact single
  · rw [logins, sessions]
    exact gone

theorem provisioned_good {verified : Verified} {again : Bool}
    (good : verified.Good service started) :
    (s.provisioned verified again).Good service started ∧
      ∀ state, (s.provisioned verified again).login? = some state →
        verified.taken.login.state = state := by
  unfold State.provisioned
  cases found : user? s.users (subjectName verified.sub) with
  | none => exact ⟨good, fun state holds => Option.some.inj holds⟩
  | some user =>
    cases active : user.active with
    | true =>
      simp only [active, if_true]
      refine ⟨⟨good, Table.key_of_get found, rfl, rfl, rfl, active, ?_⟩,
        fun state holds => Option.some.inj holds⟩
      dsimp only
      split_ifs with same
      · exact same
      · rfl
    | false =>
      simp only [active, Bool.false_eq_true, if_false]
      exact ⟨trivial, fun state holds => by cases holds⟩

theorem verified_good {taken : Taken} {tokens : Tokens} (good : taken.Good service started) :
    (s.verified service taken tokens).Good service started ∧
      ∀ state, (s.verified service taken tokens).login? = some state → taken.login.state = state := by
  unfold State.verified
  cases checked : validateIdToken service.cfg service.jwt tokens.idToken taken.login.nonce
      tokens.accessToken s.clock with
  | none => exact ⟨trivial, fun state holds => by cases holds⟩
  | some pair =>
    obtain ⟨sub, claims⟩ := pair
    dsimp only
    cases role : roleFor service.cfg claims with
    | none => exact ⟨trivial, fun state holds => by cases holds⟩
    | some role_ =>
      have passes (scope : SentScope) : Verified.Good service started
          ⟨taken, tokens, s.clock, sub, claims, role_, scope⟩ :=
        ⟨good, validate_passed checked, roleFor_highest role⟩
      cases service.scopeOf claims with
      | invalid => exact ⟨trivial, fun state holds => by cases holds⟩
      | absent => exact ⟨passes .absent, fun state holds => Option.some.inj holds⟩
      | valid stored => exact ⟨passes (.valid stored), fun state holds => Option.some.inj holds⟩

theorem Origins.consume (origins : Origins service s) {taken : Taken} {next : State}
    (found : s.callbacks[i]? = some (.found taken))
    (logins : next.logins = s.logins.filter (·.state ≠ taken.login.state))
    (began : next.started = s.started) (callbacks : next.callbacks = s.callbacks.set i stage)
    (sessions : next.sessions = s.sessions) (good : stage.Good service s.started)
    (own : ∀ state, stage.login? = some state →
      state = taken.login.state ∧ state ∈ s.logins.map (·.state)) : Origins service next := by
  have cases_ (k : Nat) (other : Stage) (is : next.callbacks[k]? = some other) :
      k = i ∧ other = stage ∨ k ≠ i ∧ s.callbacks[k]? = some other := by
    rw [callbacks] at is
    exact Table.set_cases is
  have fewer (state : String) (mem : state ∈ next.logins.map (·.state)) :
      state ∈ s.logins.map (·.state) ∧ state ≠ taken.login.state := by
    rw [logins] at mem
    obtain ⟨login, there, rfl⟩ := List.mem_map.mp mem
    obtain ⟨inLogins, differs⟩ := List.mem_filter.mp there
    exact ⟨List.mem_map_of_mem inLogins, of_decide_eq_true differs⟩
  refine ⟨fun login mem => ?_, fun k other is => ?_, ?_,
    fun k k' other other' state is is' holds holds' => ?_, fun k other state is holds => ?_, ?_,
    fun session mem there => ?_⟩
  · rw [logins] at mem
    rw [began]
    exact origins.stored login (List.mem_filter.mp mem).1
  · rw [began]
    rcases cases_ k other is with ⟨_, rfl⟩ | ⟨_, was⟩
    · exact good
    · exact origins.stages k other was
  · rw [sessions, began]
    exact origins.sessions
  · rcases cases_ k other is with ⟨rfl, rfl⟩ | ⟨_, was⟩
    · rcases cases_ k' other' is' with ⟨rfl, _⟩ | ⟨_, was'⟩
      · rfl
      · exact absurd (own state holds).2 (origins.out k' other' state was' holds').1
    · rcases cases_ k' other' is' with ⟨rfl, rfl⟩ | ⟨_, was'⟩
      · exact absurd (own state holds').2 (origins.out k other state was holds).1
      · exact origins.alone k k' other other' state was was' holds holds'
  · rw [sessions]
    rcases cases_ k other is with ⟨_, rfl⟩ | ⟨_, was⟩
    · obtain ⟨mine, stored⟩ := own state holds
      refine ⟨fun mem => (fewer state mem).2 mine, fun mem => ?_⟩
      obtain ⟨session, there, rfl⟩ := List.mem_map.mp mem
      exact origins.gone session there stored
    · obtain ⟨out, unissued⟩ := origins.out k other state was holds
      exact ⟨fun mem => out (fewer state mem).1, unissued⟩
  · rw [sessions]
    exact origins.single
  · rw [sessions] at mem
    exact origins.gone session mem (fewer _ there).1

theorem Origins.issue (origins : Origins service s) {verified : Verified} {user : GuiUser}
    {next : State} (found : s.callbacks[i]? = some (.issuing verified user))
    (logins : next.logins = s.logins) (began : next.started = s.started)
    (callbacks : next.callbacks = s.callbacks.set i .signedIn)
    (sessions : next.sessions = s.sessions ++ [⟨user.username, user.tokenVersion, verified⟩]) :
    Origins service next := by
  have good := origins.stages i _ found
  obtain ⟨out, fresh⟩ := origins.out i _ _ found rfl
  have cases_ (k : Nat) (other : Stage) (is : next.callbacks[k]? = some other) :
      other = .signedIn ∨ k ≠ i ∧ s.callbacks[k]? = some other := by
    rw [callbacks] at is
    exact (Table.set_cases is).imp_left And.right
  refine ⟨?_, fun k other is => ?_, fun session mem => ?_,
    fun k k' other other' state is is' holds holds' => ?_, fun k other state is holds => ?_, ?_,
    fun session mem => ?_⟩
  · rw [logins, began]
    exact origins.stored
  · rw [began]
    rcases cases_ k other is with rfl | ⟨_, was⟩
    · trivial
    · exact origins.stages k other was
  · rw [sessions] at mem
    rw [began]
    rcases List.mem_append.mp mem with was | now
    · exact origins.sessions session was
    · rw [List.mem_singleton.mp now]
      exact ⟨good.1, good.2.1⟩
  · rcases cases_ k other is with rfl | ⟨_, was⟩
    · cases holds
    · rcases cases_ k' other' is' with rfl | ⟨_, was'⟩
      · cases holds'
      · exact origins.alone k k' other other' state was was' holds holds'
  · rcases cases_ k other is with rfl | ⟨differs, was⟩
    · cases holds
    · obtain ⟨unstored, unissued⟩ := origins.out k other state was holds
      rw [logins, sessions, List.map_append]
      refine ⟨unstored, fun mem => ?_⟩
      rcases List.mem_append.mp mem with there | now
      · exact unissued there
      · have is := List.mem_singleton.mp now
        subst is
        exact differs (origins.alone k i other _ _ was found holds rfl)
  · rw [sessions, List.map_append]
    refine List.nodup_append.mpr ⟨origins.single, List.nodup_singleton _, fun state mem other now => ?_⟩
    rw [List.mem_singleton.mp now]
    rintro rfl
    exact fresh mem
  · rw [logins]
    rw [sessions] at mem
    rcases List.mem_append.mp mem with was | now
    · exact origins.gone session was
    · rw [List.mem_singleton.mp now]
      exact out

theorem Origins.login (origins : Origins service s) {login : OidcLogin} {next : State}
    (fresh : login.state ∉ s.started.map (·.state))
    (logins : ∀ other ∈ next.logins, other = login ∨ other ∈ s.logins)
    (began : next.started = s.started ++ [login]) (callbacks : next.callbacks = s.callbacks)
    (sessions : next.sessions = s.sessions) : Origins service next := by
  have other (state : String) (known : state ∈ s.started.map (·.state))
      (out : state ∉ s.logins.map (·.state)) : state ∉ next.logins.map (·.state) := by
    intro mem
    obtain ⟨there, among, rfl⟩ := List.mem_map.mp mem
    rcases logins there among with rfl | was
    · exact fresh known
    · exact out (List.mem_map_of_mem was)
  refine ⟨fun there mem => ?_, fun k stage is => ?_, ?_, ?_, fun k stage state is holds => ?_, ?_,
    fun session mem => ?_⟩
  · rw [began]
    rcases logins there mem with rfl | was
    · exact List.mem_append_right _ (List.mem_singleton_self _)
    · exact List.mem_append_left _ (origins.stored there was)
  · rw [began]
    rw [callbacks] at is
    exact (origins.stages k stage is).append
  · rw [sessions, began]
    exact fun session mem => ⟨(origins.sessions session mem).1.append, (origins.sessions session mem).2⟩
  · rw [callbacks]
    exact origins.alone
  · rw [sessions]
    rw [callbacks] at is
    obtain ⟨out, unissued⟩ := origins.out k stage state is holds
    exact ⟨other state ((origins.stages k stage is).login_started holds) out, unissued⟩
  · rw [sessions]
    exact origins.single
  · rw [sessions] at mem
    exact other _ (List.mem_map_of_mem (origins.sessions session mem).1.taken.started)
      (origins.gone session mem)

theorem Origins.forget (origins : Origins service s) (keeps : OidcLogin → Bool) :
    Origins service { s with logins := s.logins.filter keeps } := by
  have fewer (state : String) (mem : state ∈ (s.logins.filter keeps).map (·.state)) :
      state ∈ s.logins.map (·.state) := (List.filter_sublist.map _).subset mem
  refine ⟨fun login mem => origins.stored login (List.mem_filter.mp mem).1, origins.stages,
    origins.sessions, origins.alone, fun k stage state is holds => ?_, origins.single,
    fun session mem there => origins.gone session mem (fewer _ there)⟩
  obtain ⟨out, unissued⟩ := origins.out k stage state is holds
  exact ⟨fun mem => out (fewer state mem), unissued⟩

theorem Origins.callback (origins : Origins service s) (callback : Callback) :
    Origins service { s with callbacks := s.callbacks ++ [.arrived callback] } := by
  have cases_ (k : Nat) (stage : Stage) (is : (s.callbacks ++ [.arrived callback])[k]? = some stage) :
      stage = .arrived callback ∨ s.callbacks[k]? = some stage :=
    (Table.append_cases is).imp_left And.right
  refine ⟨origins.stored, fun k stage is => ?_, origins.sessions,
    fun k k' stage other state is is' holds holds' => ?_, fun k stage state is holds => ?_,
    origins.single, origins.gone⟩
  · rcases cases_ k stage is with rfl | was
    · trivial
    · exact origins.stages k stage was
  · rcases cases_ k stage is with rfl | was
    · cases holds
    · rcases cases_ k' other is' with rfl | was'
      · cases holds'
      · exact origins.alone k k' stage other state was was' holds holds'
  · rcases cases_ k stage is with rfl | was
    · cases holds
    · exact origins.out k stage state was holds

theorem Origins.act {a : Act} (origins : Origins service s) (step : State.Step service s a s') :
    Origins service s' := by
  unfold State.Step State.act at step
  cases a with
  | tick seconds =>
    cases step
    exact origins.same rfl rfl rfl rfl
  | login state nonce binding =>
    dsimp only at step
    split_ifs at step with drawn full
    · cases step
      exact origins.forget _
    · cases step
      exact @Origins.login _ _ origins ⟨state, nonce, service.sha256 binding, s.clock + service.ttl⟩ _ drawn
        (fun other mem => (List.mem_append.mp mem).symm.imp List.mem_singleton.mp fun there =>
          (List.mem_filter.mp there).1) rfl rfl rfl
  | callback callback =>
    cases step
    exact origins.callback callback
  | find i =>
    cases found : s.callbacks[i]? with
    | none => simp [found] at step
    | some stage =>
      cases stage with
      | arrived callback =>
        simp only [found] at step
        cases there : callback.state.bind fun state => s.logins.find? (·.state = state) with
        | none =>
          simp only [there, Option.some.injEq] at step
          subst step
          exact origins.step found rfl rfl rfl rfl trivial fun state holds => by cases holds
        | some login =>
          simp only [there, Option.some.injEq] at step
          subst step
          obtain ⟨state, asked, first⟩ := Option.bind_eq_some_iff.mp there
          have named : login.state = state := by simpa using List.find?_some first
          refine origins.step found rfl rfl rfl rfl ⟨origins.stored login (List.mem_of_find?_eq_some first), ?_⟩
            fun state holds => by cases holds
          rw [asked, named]
      | _ => simp [found] at step
  | consume i =>
    cases found : s.callbacks[i]? with
    | none => simp [found] at step
    | some stage =>
      cases stage with
      | found taken =>
        obtain ⟨began, asked⟩ := origins.stages i _ found
        simp only [found] at step
        split_ifs at step with bad unwilling
        · cases step
          exact origins.consume found rfl rfl rfl rfl trivial fun state holds => by cases holds
        · cases step
          exact origins.consume found rfl rfl rfl rfl trivial fun state holds => by cases holds
        · cases step
          simp only [not_or, not_not, Nat.not_le] at bad
          refine origins.consume found rfl rfl rfl rfl ⟨began, asked, bad.2.2, bad.2.1⟩
            fun state holds => ?_
          cases holds
          exact ⟨rfl, bad.1⟩
      | _ => simp [found] at step
  | exchange i answer =>
    cases found : s.callbacks[i]? with
    | none => simp [found] at step
    | some stage =>
      cases stage with
      | consumed taken =>
        have good : taken.Good service s.started := origins.stages i _ found
        cases answer with
        | none =>
          simp only [found, Option.some.injEq] at step
          subst step
          exact origins.step found rfl rfl rfl rfl trivial fun state holds => by cases holds
        | some tokens =>
          simp only [found, Option.some.injEq] at step
          subst step
          obtain ⟨kept, same⟩ := @verified_good _ _ s taken tokens good
          exact origins.step found rfl rfl rfl rfl kept fun state holds => congrArg some (same state holds)
      | _ => simp [found] at step
  | readDenied i =>
    cases found : s.callbacks[i]? with
    | none => simp [found] at step
    | some stage =>
      cases stage with
      | denying sub code =>
        simp only [found] at step
        cases there : user? s.users (subjectName sub) with
        | none =>
          simp only [there, Option.some.injEq] at step
          subst step
          exact origins.step found rfl rfl rfl rfl trivial fun state holds => by cases holds
        | some user =>
          simp only [there, Option.some.injEq] at step
          subst step
          exact origins.step found rfl rfl rfl rfl trivial fun state holds => by cases holds
      | _ => simp [found] at step
  | bump i =>
    cases found : s.callbacks[i]? with
    | none => simp [found] at step
    | some stage =>
      cases stage with
      | bumping sub seen code =>
        simp only [found] at step
        cases there : user? s.users (subjectName sub) with
        | none =>
          simp only [there, Option.some.injEq] at step
          subst step
          exact origins.step found rfl rfl rfl rfl trivial fun state holds => by cases holds
        | some user =>
          simp only [there, Option.some.injEq] at step
          subst step
          exact origins.step found rfl rfl rfl rfl trivial fun state holds => by cases holds
      | _ => simp [found] at step
  | provision i =>
    cases found : s.callbacks[i]? with
    | none => simp [found] at step
    | some stage =>
      cases stage with
      | provisioning verified again =>
        simp only [found, Option.some.injEq] at step
        subst step
        have good : verified.Good service s.started := origins.stages i _ found
        obtain ⟨kept, same⟩ := @provisioned_good _ _ s verified again good
        exact origins.step found rfl rfl rfl rfl kept fun state holds => congrArg some (same state holds)
      | _ => simp [found] at step
  | create i drawn =>
    cases found : s.callbacks[i]? with
    | none => simp [found] at step
    | some stage =>
      cases stage with
      | creating verified again =>
        have good : verified.Good service s.started := origins.stages i _ found
        simp only [found] at step
        cases there : user? s.users (subjectName verified.sub) with
        | none =>
          simp only [there, Option.some.injEq] at step
          subst step
          exact origins.step found rfl rfl rfl rfl ⟨good, rfl, rfl, rfl⟩ fun state holds => holds
        | some user =>
          simp only [there, Option.some.injEq] at step
          subst step
          cases again with
          | true => exact origins.step found rfl rfl rfl rfl trivial fun state holds => by cases holds
          | false => exact origins.step found rfl rfl rfl rfl good fun state holds => holds
      | _ => simp [found] at step
  | give i =>
    cases found : s.callbacks[i]? with
    | none => simp [found] at step
    | some stage =>
      cases stage with
      | giving verified user columns =>
        obtain ⟨good, named, _, _, kept, active, role⟩ := origins.stages i _ found
        simp only [found] at step
        split_ifs at step with nothing
        · cases step
          subst nothing
          exact origins.step found rfl rfl rfl rfl ⟨good, named, active, role⟩ fun state holds => holds
        · cases there : user? s.users user.username with
          | none =>
            simp only [there, Option.some.injEq] at step
            subst step
            exact origins.step found rfl rfl rfl rfl trivial fun state holds => by cases holds
          | some row =>
            simp only [there, Option.some.injEq] at step
            subst step
            have still : (columns.write user).active = true := by
              rw [Columns.write, kept]
              exact active
            exact origins.step found rfl rfl rfl rfl ⟨good, named, still, role⟩ fun state holds => holds
      | _ => simp [found] at step
  | issue i =>
    cases found : s.callbacks[i]? with
    | none => simp [found] at step
    | some stage =>
      cases stage with
      | issuing verified user =>
        simp only [found, Option.some.injEq] at step
        subst step
        exact origins.issue found rfl rfl rfl rfl
      | _ => simp [found] at step
  | addLocal username passwordHash role drawn =>
    dsimp only at step
    split_ifs at step
    cases step
    exact origins.same rfl rfl rfl rfl
  | patch username body =>
    dsimp only at step
    cases there : user? s.users username with
    | none => simp [there] at step
    | some user =>
      simp only [there] at step
      split_ifs at step
      cases made : body.changes user with
      | error refusal => simp [made] at step
      | ok columns =>
        simp only [made, Option.some.injEq] at step
        subst step
        exact origins.same rfl rfl rfl rfl
  | commitPatch i =>
    dsimp only at step
    cases found : s.patches[i]? with
    | none => simp [found] at step
    | some patch =>
      simp only [found] at step
      cases there : user? s.users patch.username with
      | none => simp [there] at step
      | some user =>
        simp only [there, Option.some.injEq] at step
        subst step
        exact origins.same rfl rfl rfl rfl
  | remove username =>
    cases step
    exact origins.same rfl rfl rfl rfl

end Origins

end Smo.GuiBff.Oidc
