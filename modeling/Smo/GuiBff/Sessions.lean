import Smo.GuiBff.Users

/-! The sessions of the console (`gui-bff/app/main.py`): the check of a request's token, and what
issues and ends sessions, from any number of instances at once. A read of a row, a commit and a
reading of the clock are steps of their own. -/
namespace Smo.GuiBff.Sessions

open Users (GuiUser Columns Write unusableHash user?)

structure Token where
  sub : String
  ver : Nat
  csrf : String
  jti : String
  exp : Nat
  deriving DecidableEq

/-- A request as `current_session` reads it; `unsafely` and `mfaOpen` say whether its method is one of
`UNSAFE_METHODS` and its path one of `MFA_OPEN_PATHS`. -/
structure Call where
  token : Token
  viaCookie : Bool
  unsafely : Bool
  mfaOpen : Bool
  sent : String
  deriving DecidableEq

structure User where
  username : String
  role : Role
  scope : Option String
  deriving DecidableEq

structure Session where
  user : User
  csrf : String
  viaCookie : Bool
  deriving DecidableEq

structure Config where
  adminMfaRequired : Bool
  sessionTtlSeconds : Nat

inductive Refusal
  | sessionRevoked
  | csrfTokenInvalid
  | mfaEnrolmentRequired
  | invalidCredentials
  | noSuchUser
  deriving DecidableEq

def Refusal.problem : Refusal → Nat × String
  | sessionRevoked => (401, "SESSION_REVOKED")
  | csrfTokenInvalid => (403, "CSRF_TOKEN_INVALID")
  | mfaEnrolmentRequired => (403, "MFA_ENROLMENT_REQUIRED")
  | invalidCredentials => (400, "INVALID_CREDENTIALS")
  | noSuchUser => (404, "NO_SUCH_USER")

inductive Job
  /-- The token is decoded. -/
  | decoded (call : Call)
  /-- The row of the token's user let it through. -/
  | seen (call : Call) (user : GuiUser)
  | accepted (call : Call) (session : Session)
  | refused (refusal : Refusal)
  /-- An `update_user` or a `delete_user`. -/
  | admin (stage : Users.Stage)
  /-- A change of the row that was read: a change of password, or `revoke_user_sessions`. -/
  | changing (user : GuiUser) (password : Option String)
  /-- A sign-in through the identity provider, with what it changes of the row it read. -/
  | provisioning (user : GuiUser) (columns : Columns)
  /-- A session is about to be issued for the row. -/
  | issuing (user : GuiUser)
  | leaving (token : Token)
  | forgetting (token : Token) (now : Nat)
  | done
  deriving Inhabited

/-- A row of `gui_revoked_session`. -/
structure RevokedSession where
  jti : String
  expiresAt : Nat
  deriving DecidableEq

/-- `issued` holds the session tokens that were signed; the service keeps no such list. -/
structure State where
  users : List GuiUser := []
  revoked : List RevokedSession := []
  issued : List Token := []
  jobs : List Job := []
  clock : Nat := 0

/-- The columns a change of password or `revoke_user_sessions` writes. -/
def bumped (user : GuiUser) (password : Option String) : Columns where
  tokenVersion := some (user.tokenVersion + 1)
  passwordHash := password

/-- `provision_oidc_user`: what is changed of a row that is there. -/
def provisioned (user : GuiUser) (role : Role) (scope : Option (Option String)) : Columns where
  role := if user.role = role then none else some role
  scope := scope.filter (· ≠ user.scope)

/-- `current_session`: what is asked of the row of the user. -/
def checkRow (users : List GuiUser) (call : Call) : Job :=
  match user? users call.token.sub with
  | none => .refused .sessionRevoked
  | some user =>
    if user.active ∧ user.tokenVersion = call.token.ver then .seen call user
    else .refused .sessionRevoked

/-- `current_session`: what is asked after the row, with whether the user has a one-time code. -/
def checkRest (cfg : Config) (revoked : List RevokedSession) (call : Call) (user : GuiUser)
    (enrolled : Bool) : Job :=
  if call.token.jti ≠ "" ∧ revoked.any (·.jti = call.token.jti) then .refused .sessionRevoked
  else if call.viaCookie ∧ call.unsafely ∧ (call.sent = "" ∨ call.sent ≠ call.token.csrf) then
    .refused .csrfTokenInvalid
  else if cfg.adminMfaRequired ∧ user.role = .admin ∧ user.passwordHash ≠ unusableHash ∧
      call.mfaOpen = false ∧ enrolled = false then .refused .mfaEnrolmentRequired
  else .accepted call ⟨⟨user.username, user.role, user.scope⟩, call.token.csrf, call.viaCookie⟩

/-- `Database.revoke_session`. -/
def revokeSession (revoked : List RevokedSession) (token : Token) (now : Nat) :
    List RevokedSession :=
  let kept := revoked.filter (now < ·.expiresAt)
  if kept.any (·.jti = token.jti) then kept else kept ++ [⟨token.jti, token.exp⟩]

/-- `signIn` stands for each way to a session that reads the row, `create` also for the first sign-in
through the identity provider, and `revoke` also for its callback that finds no role or no scope. -/
inductive Act
  | tick (now : Nat)
  | ask (call : Call)
  | check (i : Nat)
  | pass (i : Nat) (enrolled : Bool)
  | signIn (username : String)
  | provision (username : String) (role : Role) (scope : Option (Option String))
  | issue (i : Nat) (csrf jti : String)
  | password (username : String) (verified : Bool) (hash : String)
  | revoke (username : String)
  | admin (request : Users.Request)
  | read (i : Nat)
  | count (i : Nat)
  | commit (i : Nat)
  | create (user : GuiUser)
  | logout (token : Token)
  | leave (i : Nat)
  | forget (i : Nat)

/-- The change that a commit makes: of which user, what, and what the job does then. -/
def Job.write? : Job → Option (String × Write × Job)
  | .admin (.writing username write _) => some (username, write, .done)
  | .changing user none => some (user.username, .change (bumped user none), .done)
  | .changing user (some hash) =>
    -- `expire_on_commit=False`: the session is issued for the row as it was written
    some (user.username, .change (bumped user (some hash)),
      .issuing ((bumped user (some hash)).write user))
  | .provisioning user columns => some (user.username, .change columns, .issuing (columns.write user))
  | _ => none

def ends : Write → Bool
  | .delete => true
  | .change columns =>
    columns.active = some false || columns.passwordHash.isSome || columns.tokenVersion.isSome

def Job.call? : Job → Option Call
  | .decoded call | .seen call _ => some call
  | _ => none

namespace State

variable (cfg : Config) (s : State)

def at_ (i : Nat) (job : Job) : State := { s with jobs := s.jobs.set i job }

def begin_ (job : Job) : State := { s with jobs := s.jobs ++ [job] }

def act (a : Act) : Option State :=
  match a with
  | .tick now => if s.clock ≤ now then some { s with clock := now } else none
  | .ask call =>
    if call.token ∈ s.issued ∧ s.clock < call.token.exp then some (s.begin_ (.decoded call)) else none
  | .check i =>
    match s.jobs[i]? with
    | some (.decoded call) => some (s.at_ i (checkRow s.users call))
    | _ => none
  | .pass i enrolled =>
    match s.jobs[i]? with
    | some (.seen call user) => some (s.at_ i (checkRest cfg s.revoked call user enrolled))
    | _ => none
  | .signIn username =>
    match user? s.users username with
    | some user => if user.active then some (s.begin_ (.issuing user)) else none
    | none => none
  | .provision username role scope =>
    match user? s.users username with
    | some user =>
      if user.active then some (s.begin_ (.provisioning user (provisioned user role scope))) else none
    | none => none
  | .issue i csrf jti =>
    match s.jobs[i]? with
    | some (.issuing user) =>
      some { s.at_ i .done with
        issued := s.issued ++
          [⟨user.username, user.tokenVersion, csrf, jti, s.clock + cfg.sessionTtlSeconds⟩] }
    | _ => none
  | .password username verified hash =>
    match user? s.users username with
    | some user =>
      some (s.begin_ (if verified then .changing user (some hash) else .refused .invalidCredentials))
    | none => none
  | .revoke username =>
    match user? s.users username with
    | some user => some (s.begin_ (.changing user none))
    | none => some (s.begin_ (.refused .noSuchUser))
  | .admin request => some (s.begin_ (.admin (.asked request)))
  | .read i =>
    match s.jobs[i]? with
    | some (.admin (.asked request)) => some (s.at_ i (.admin (request.read s.users 0)))
    | _ => none
  | .count i =>
    match s.jobs[i]? with
    | some (.admin (.counting username next)) =>
      some (s.at_ i (.admin
        (if Users.activeAdmins s.users ≤ 1 then .answered (.refused .lastAdmin)
        else .go username 0 next)))
    | _ => none
  | .commit i =>
    match s.jobs[i]? >>= Job.write? with
    | some (username, write, next) =>
      match write.commit s.users username with
      | .error answer => some (s.at_ i (.admin (.answered answer)))
      | .ok users => some { s.at_ i next with users }
    | none => none
  | .create user =>
    if user? s.users user.username = none then some { s with users := s.users ++ [user] } else none
  | .logout token =>
    if token ∈ s.issued ∧ s.clock < token.exp then some (s.begin_ (.leaving token)) else none
  | .leave i =>
    match s.jobs[i]? with
    | some (.leaving token) =>
      -- without a `jti` nothing is ended
      some (s.at_ i (if token.jti = "" then .done else .forgetting token s.clock))
    | _ => none
  | .forget i =>
    match s.jobs[i]? with
    | some (.forgetting token now) =>
      some { s.at_ i .done with revoked := revokeSession s.revoked token now }
    | _ => none

def Step (s : State) (a : Act) (s' : State) : Prop := s.act cfg a = some s'

/-- No session token was issued to a user under a version that is written now, and a logout forgets no
session whose token may still be let in. -/
def fresh (a : Act) : Bool :=
  match a with
  | .commit i =>
    match s.jobs[i]? >>= Job.write? with
    | some (username, .change columns, _) =>
      s.issued.all fun token => token.sub ≠ username || columns.tokenVersion ≠ some token.ver
    | _ => true
  | .create user =>
    s.issued.all fun token => token.sub ≠ user.username || token.ver ≠ user.tokenVersion
  | .forget i =>
    match s.jobs[i]? with
    | some (.forgetting _ now) =>
      s.issued.all fun old =>
        s.revoked.all (fun row => row.jti ≠ old.jti || now < row.expiresAt) ||
          (old.exp ≤ now && s.jobs.all fun job => job.call?.all (·.token ≠ old))
    | _ => true
  | _ => true

def Ends (a : Act) (token : Token) : Prop :=
  token ∈ s.issued ∧
    match a with
    | .commit i => ∃ write next users, s.jobs[i]? >>= Job.write? = some (token.sub, write, next) ∧
        write.commit s.users token.sub = .ok users ∧ ends write = true
    | .forget i => ∃ now, s.jobs[i]? = some (.forgetting token now)
    | _ => False

end State

end Smo.GuiBff.Sessions
