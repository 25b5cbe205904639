import Smo.GuiBff.Users

/-! Sign-ins through the identity provider (`gui-bff/app/oidc.py` and `main.py`), from any number of
instances at once, with the admin's changes of the users beside them. -/
namespace Smo.GuiBff.Oidc

open Users (GuiUser Columns UpdateUserRequest SentScope unusableHash user?)

inductive Claim
  | null
  | text (value : String)
  | scalar
  | list (items : List Claim)
  | object (entries : List (String × Claim))

abbrev Claims := List (String × Claim)

structure OidcConfig where
  clientId : String
  groupsClaim : String
  groupRoles : List (String × Role)
  defaultRole : Option Role

section Token

def descend (node : Claim) : List String → Option Claim
  | [] => some node
  | part :: rest =>
    match node with
    | .object entries => (entries.lookup part).bind fun next => descend next rest
    | _ => none

def claimAt (claims : Claims) (path : String) : Option Claim :=
  match claims.lookup path with
  | some claim => some claim
  | none => descend (.object claims) ((Str.split '.' path.toList).map String.ofList)

def groupsFrom (claims : Claims) (path : String) : List String :=
  match claimAt claims path with
  | some (.text value) =>
    ((value.toList.splitOnP fun c => Str.isSpace c || c = ',').filter (· ≠ [])).map String.ofList
  | some (.list items) => items.filterMap fun
    | .text group => some group
    | _ => none
  | _ => []

def higher (best role : Role) : Role := if best.rank < role.rank then role else best

def roleFor (cfg : OidcConfig) (claims : Claims) : Option Role :=
  match (groupsFrom claims cfg.groupsClaim).filterMap fun group => cfg.groupRoles.lookup group with
  | first :: rest => some (rest.foldl higher first)
  | [] => cfg.defaultRole

def textOf (claims : Claims) (name : String) : Option String :=
  match claims.lookup name with
  | some (.text value) => some value
  | _ => none

def audience (claims : Claims) : List String :=
  match claims.lookup "aud" with
  | some (.text value) => [value]
  | some (.list items) => items.filterMap fun
    | .text value => some value
    | _ => none
  | _ => []

/-- `claims.get(name) is not None`. -/
def present (claims : Claims) (name : String) : Bool :=
  match claims.lookup name with
  | none | some .null => false
  | _ => true

def manyAudiences (claims : Claims) : Bool :=
  match claims.lookup "aud" with
  | some (.list items) => 1 < items.length
  | _ => false

/-- A token as the provider's key and PyJWT's checks leave it: its claims when it verified, and the
hash its algorithm makes of an access token. -/
structure Jwt where
  decode : String → Nat → Option Claims
  halfHash : String → String → String

def validateIdToken (cfg : OidcConfig) (jwt : Jwt) (token nonce : String) (access : Option String)
    (now : Nat) : Option (String × Claims) := do
  let claims ← jwt.decode token now
  let sub ← textOf claims "sub"
  if sub = "" ∨ 255 < sub.length then none
  else if (present claims "azp" ∨ manyAudiences claims) ∧ textOf claims "azp" ≠ some cfg.clientId then
    none
  else if textOf claims "nonce" ≠ some nonce then none
  else
    match access.filter (· ≠ "") with
    | some access =>
      if present claims "at_hash" ∧ textOf claims "at_hash" ≠ some (jwt.halfHash token access) then none
      else some (sub, claims)
    | none => some (sub, claims)

end Token

def subjectName (sub : String) : String := "oidc:" ++ sub

/-- `USERNAME_RE`. -/
def localName (name : String) : Bool :=
  match name.toList with
  | first :: rest =>
    first.isLower && (1 ≤ rest.length && rest.length ≤ 31) &&
      rest.all fun c => c.isLower || c.isDigit || c = '_' || c = '.' || c = '-'
  | [] => false

structure OidcLogin where
  state : String
  nonce : String
  bindingHash : String
  expiresAt : Nat
  deriving DecidableEq

structure Callback where
  state : Option String
  binding : String
  error : Bool
  code : Bool
  deriving DecidableEq

structure Tokens where
  idToken : String
  accessToken : Option String
  deriving DecidableEq

inductive Code
  | invalidState
  | idpError
  | exchangeFailed
  | tokenInvalid
  | noRole
  | invalidScope
  | accountDisabled
  deriving DecidableEq

/-- A sign-in that was taken out of the table: the login, when and by which callback. -/
structure Taken where
  login : OidcLogin
  callback : Callback
  now : Nat
  deriving DecidableEq

structure Verified where
  taken : Taken
  tokens : Tokens
  at_ : Nat
  sub : String
  claims : Claims
  role : Role
  scope : SentScope

/-- How far a callback is; `seen` is the version of the row a write was made from. -/
inductive Stage
  | arrived (callback : Callback)
  | found (taken : Taken)
  | consumed (taken : Taken)
  | denying (sub : String) (code : Code)
  | bumping (sub : String) (seen : Nat) (code : Code)
  | provisioning (verified : Verified) (again : Bool)
  | creating (verified : Verified) (again : Bool)
  | giving (verified : Verified) (user : GuiUser) (columns : Columns)
  | issuing (verified : Verified) (user : GuiUser)
  | signedIn
  | refused (code : Code)
  | failed

structure Session where
  username : String
  version : Nat
  verified : Verified

structure Patch where
  username : String
  seen : Nat
  columns : Columns

/-- `started` has every login that was ever stored and `closed` the versions that users left; the
service keeps neither. -/
structure State where
  clock : Nat := 0
  logins : List OidcLogin := []
  started : List OidcLogin := []
  users : List GuiUser := []
  callbacks : List Stage := []
  patches : List Patch := []
  sessions : List Session := []
  closed : List (String × Nat) := []

inductive Act
  | tick (seconds : Nat)
  | login (state nonce binding : String)
  | callback (callback : Callback)
  | find (i : Nat)
  | consume (i : Nat)
  | exchange (i : Nat) (answer : Option Tokens)
  | readDenied (i : Nat)
  | bump (i : Nat)
  | provision (i : Nat)
  | create (i drawn : Nat)
  | give (i : Nat)
  | issue (i : Nat)
  | addLocal (username passwordHash : String) (role : Role) (drawn : Nat)
  | patch (username : String) (body : UpdateUserRequest)
  | commitPatch (i : Nat)
  | remove (username : String)

def Act.of? : Act → Option Nat
  | .find i | .consume i | .exchange i _ | .readDenied i | .bump i | .provision i | .create i _
  | .give i | .issue i => some i
  | _ => none

/-- The service: its settings, PyJWT with the provider's keys, SHA-256 of a cookie and the scope the
claims of a token carry. -/
structure Service where
  cfg : OidcConfig
  jwt : Jwt
  sha256 : String → String
  scopeOf : Claims → SentScope
  maxPending : Nat := 5000
  ttl : Nat := 600

namespace State

variable (service : Service) (s : State)

def at_ (i : Nat) (stage : Stage) : State := { s with callbacks := s.callbacks.set i stage }

def writeUser (username : String) (columns : Columns) : State :=
  { s with
    users := Table.modify (·.username) s.users username columns.write
    closed := s.closed ++ (match user? s.users username, columns.tokenVersion with
      | some user, some _ => [(username, user.tokenVersion)]
      | _, _ => []) }

def verified (taken : Taken) (tokens : Tokens) : Stage :=
  match validateIdToken service.cfg service.jwt tokens.idToken taken.login.nonce tokens.accessToken
      s.clock with
  | none => .refused .tokenInvalid
  | some (sub, claims) =>
    match roleFor service.cfg claims with
    | none => .denying sub .noRole
    | some role =>
      match service.scopeOf claims with
      | .invalid => .denying sub .invalidScope
      | scope => .provisioning ⟨taken, tokens, s.clock, sub, claims, role, scope⟩ false

def provisioned (verified : Verified) (again : Bool) : Stage :=
  match user? s.users (subjectName verified.sub) with
  | none => .creating verified again
  | some user =>
    if user.active then
      .giving verified user {
        role := if user.role = verified.role then none else some verified.role
        scope :=
          match verified.scope with
          | .valid stored => if user.scope = stored then none else some stored
          | _ => none }
    else .refused .accountDisabled

def newUser (verified : Verified) (drawn : Nat) : GuiUser where
  username := subjectName verified.sub
  passwordHash := unusableHash
  role := verified.role
  tokenVersion := drawn
  scope :=
    match verified.scope with
    | .valid stored => stored
    | _ => none

def act (a : Act) : Option State :=
  match a with
  | .tick seconds => some { s with clock := s.clock + seconds }
  | .login state nonce binding =>
    if state ∈ s.started.map (·.state) then none
    else
      let waiting := s.logins.filter fun login => s.clock < login.expiresAt
      if service.maxPending ≤ waiting.length then some { s with logins := waiting }
      else
        let login : OidcLogin := ⟨state, nonce, service.sha256 binding, s.clock + service.ttl⟩
        some { s with logins := waiting ++ [login], started := s.started ++ [login] }
  | .callback callback => some { s with callbacks := s.callbacks ++ [.arrived callback] }
  | .find i =>
    match s.callbacks[i]? with
    | some (.arrived callback) =>
      match callback.state.bind fun state => s.logins.find? (·.state = state) with
      | none => some (s.at_ i (.refused .invalidState))
      | some login => some (s.at_ i (.found ⟨login, callback, s.clock⟩))
    | _ => none
  | .consume i =>
    match s.callbacks[i]? with
    | some (.found taken) =>
      let next : State := { s with logins := s.logins.filter (·.state ≠ taken.login.state) }
      if taken.login.state ∉ s.logins.map (·.state) ∨ taken.login.expiresAt ≤ taken.now ∨
          service.sha256 taken.callback.binding ≠ taken.login.bindingHash then
        some (next.at_ i (.refused .invalidState))
      else if taken.callback.error ∨ ¬taken.callback.code then
        some (next.at_ i (.refused .idpError))
      else some (next.at_ i (.consumed taken))
    | _ => none
  | .exchange i answer =>
    match s.callbacks[i]? with
    | some (.consumed taken) =>
      match answer with
      | none => some (s.at_ i (.refused .exchangeFailed))
      | some tokens => some (s.at_ i (s.verified service taken tokens))
    | _ => none
  | .readDenied i =>
    match s.callbacks[i]? with
    | some (.denying sub code) =>
      match user? s.users (subjectName sub) with
      | none => some (s.at_ i (.refused code))
      | some user => some (s.at_ i (.bumping sub user.tokenVersion code))
    | _ => none
  | .bump i =>
    match s.callbacks[i]? with
    | some (.bumping sub seen code) =>
      match user? s.users (subjectName sub) with
      | none => some (s.at_ i .failed)
      | some _ =>
        some ((s.writeUser (subjectName sub) { tokenVersion := some (seen + 1) }).at_ i (.refused code))
    | _ => none
  | .provision i =>
    match s.callbacks[i]? with
    | some (.provisioning verified again) => some (s.at_ i (s.provisioned verified again))
    | _ => none
  | .create i drawn =>
    match s.callbacks[i]? with
    | some (.creating verified again) =>
      match user? s.users (subjectName verified.sub) with
      | some _ => some (s.at_ i (if again then .failed else .provisioning verified true))
      | none =>
        some { s.at_ i (.issuing verified (newUser verified drawn)) with
          users := s.users ++ [newUser verified drawn] }
    | _ => none
  | .give i =>
    match s.callbacks[i]? with
    | some (.giving verified user columns) =>
      if columns = {} then some (s.at_ i (.issuing verified user))
      else
        match user? s.users user.username with
        | none => some (s.at_ i .failed)
        | some _ =>
          some ((s.writeUser user.username columns).at_ i (.issuing verified (columns.write user)))
    | _ => none
  | .issue i =>
    match s.callbacks[i]? with
    | some (.issuing verified user) =>
      some { s.at_ i .signedIn with
        sessions := s.sessions ++ [⟨user.username, user.tokenVersion, verified⟩] }
    | _ => none
  | .addLocal username passwordHash role drawn =>
    if localName username ∧ passwordHash ≠ unusableHash ∧ (user? s.users username).isNone then
      some { s with users := s.users ++ [⟨username, passwordHash, role, true, drawn, false, none⟩] }
    else none
  | .patch username body =>
    match user? s.users username with
    | none => none
    | some user =>
      if body.password.isSome ∧ user.passwordHash = unusableHash then none
      else
        match body.changes user with
        | .error _ => none
        | .ok columns =>
          some { s with patches := s.patches ++ [⟨username, user.tokenVersion, columns⟩] }
  | .commitPatch i =>
    match s.patches[i]? with
    | none => none
    | some patch =>
      match user? s.users patch.username with
      | none => none
      | some _ =>
        some { s.writeUser patch.username patch.columns with patches := s.patches.eraseIdx i }
  | .remove username =>
    some { s with
      users := s.users.filter (·.username ≠ username)
      closed := s.closed ++ ((user? s.users username).toList.map fun user =>
        (username, user.tokenVersion)) }

def Step (s : State) (a : Act) (s' : State) : Prop := s.act service a = some s'

/-- The row of a sign-in was removed, deactivated or given another role since it was read. -/
def stale (user : GuiUser) : Bool :=
  (user? s.users user.username).map (fun row => (row.active, row.role)) ≠ some (user.active, user.role)

/-- A session is issued from a row that has changed since it was read; the version of a user of the
provider is counted up from one that was left, or one is drawn that is not above those the user left. -/
def lapses : Act → Bool
  | .issue i =>
    match s.callbacks[i]? with
    | some (.issuing _ user) => s.stale user
    | _ => false
  | .bump i =>
    match s.callbacks[i]? with
    | some (.bumping sub seen _) =>
      !(user? s.users (subjectName sub)).any (·.tokenVersion = seen)
    | _ => false
  | .commitPatch i =>
    match s.patches[i]? with
    | some patch => patch.columns.tokenVersion.isSome && !localName patch.username &&
        !(user? s.users patch.username).any (·.tokenVersion = patch.seen)
    | none => false
  | .create i drawn =>
    match s.callbacks[i]? with
    | some (.creating verified _) =>
      s.closed.any fun left => left.1 = subjectName verified.sub && drawn ≤ left.2
    | _ => false
  | _ => false

end State

end Smo.GuiBff.Oidc
