import Smo.Lib.Runs
import Smo.Lib.Table
import Smo.GuiBff.Rbac

/-! The admin's changes and deletes of console users (`gui-bff/app/main.py`), from any number of
instances at once: each is a transaction that reads the user, counts the active admins where it must,
and commits what it wrote. -/
namespace Smo.GuiBff.Users

/-- `UNUSABLE_HASH`: an identity-provider user has no password. -/
def unusableHash : String := "!"

structure GuiUser where
  username : String
  passwordHash : String
  role : Role
  active : Bool := true
  tokenVersion : Nat := 0
  breakGlass : Bool := false
  scope : Option String := none
  deriving DecidableEq

def GuiUser.activeAdmin (user : GuiUser) : Bool := user.role = .admin && user.active

/-- A `scope` that was sent, as it would be stored. -/
inductive SentScope
  | absent
  | invalid
  | valid (stored : Option String)
  deriving DecidableEq

structure UpdateUserRequest where
  role : Option Role := none
  active : Option Bool := none
  password : Option String := none
  breakGlass : Option Bool := none
  scope : SentScope := .absent
  deriving DecidableEq

inductive Refusal
  | invalidScope
  | noSuchUser
  | oidcUser
  | lastAdmin
  | cannotDeleteSelf
  deriving DecidableEq

def Refusal.problem : Refusal → Nat × String
  | invalidScope => (422, "INVALID_SCOPE")
  | noSuchUser => (404, "NO_SUCH_USER")
  | oidcUser => (409, "OIDC_USER")
  | lastAdmin => (409, "LAST_ADMIN")
  | cannotDeleteSelf => (409, "CANNOT_DELETE_SELF")

inductive Answer
  | done
  | refused (refusal : Refusal)
  | failed
  deriving DecidableEq

structure Columns where
  role : Option Role := none
  active : Option Bool := none
  tokenVersion : Option Nat := none
  breakGlass : Option Bool := none
  scope : Option (Option String) := none
  passwordHash : Option String := none
  deriving DecidableEq

def Columns.write (columns : Columns) (user : GuiUser) : GuiUser where
  username := user.username
  passwordHash := columns.passwordHash.getD user.passwordHash
  role := columns.role.getD user.role
  active := columns.active.getD user.active
  tokenVersion := columns.tokenVersion.getD user.tokenVersion
  breakGlass := columns.breakGlass.getD user.breakGlass
  scope := columns.scope.getD user.scope

namespace UpdateUserRequest

variable (body : UpdateUserRequest) (user : GuiUser)

def demoting : Bool := body.role.any (· ≠ .admin) || body.active = some false

def changes : Except Refusal Columns :=
  let active := body.active.filter (· ≠ user.active)
  let breakGlass := body.breakGlass.filter (· ≠ user.breakGlass)
  let bumps := active.isSome.toNat + body.password.isSome.toNat
  if breakGlass = some true ∧ user.passwordHash = unusableHash then .error .oidcUser
  else .ok {
    role := body.role.filter (· ≠ user.role)
    active
    breakGlass
    scope :=
      match body.scope with
      | .valid stored => if stored = user.scope then none else some stored
      | _ => none
    passwordHash := body.password
    tokenVersion := if bumps = 0 then none else some (user.tokenVersion + bumps) }

end UpdateUserRequest

inductive Request
  | update (username : String) (body : UpdateUserRequest)
  | delete (caller username : String)
  deriving DecidableEq

inductive Write
  | change (columns : Columns)
  | delete
  deriving DecidableEq

/-- How far a request is: what it will do if enough admins are counted, or what it will write,
with how many admins had been taken away when it looked. -/
inductive Stage
  | asked (request : Request)
  | counting (username : String) (next : Except Refusal Write)
  | writing (username : String) (write : Write) (seen : Nat)
  | answered (answer : Answer)

/-- `taken` counts the commits that took an active admin away; the service keeps no such count. -/
structure State where
  users : List GuiUser
  requests : List Stage := []
  taken : Nat := 0

def activeAdmins (users : List GuiUser) : Nat := (users.filter (·.activeAdmin)).length

def user? (users : List GuiUser) (username : String) : Option GuiUser :=
  Table.get (·.username) users username

theorem removed_row (users : List GuiUser) (username name : String) :
    user? (users.filter (·.username ≠ username)) name =
      if name ≠ username then user? users name else none := by
  have key := @Table.get_filter_key _ _ _ (·.username) users name fun k => decide (k ≠ username)
  simpa [user?] using key

def Stage.go (username : String) (taken : Nat) : Except Refusal Write → Stage
  | .ok write => .writing username write taken
  | .error refusal => .answered (.refused refusal)

def Request.read (users : List GuiUser) (taken : Nat) : Request → Stage
  | .update username body =>
    if body.scope = .invalid then .answered (.refused .invalidScope)
    else
      match user? users username with
      | none => .answered (.refused .noSuchUser)
      | some user =>
        if body.password.isSome ∧ user.passwordHash = unusableHash then .answered (.refused .oidcUser)
        else
          let next := (body.changes user).map Write.change
          if user.role = .admin ∧ body.demoting then .counting username next
          else .go username taken next
  | .delete caller username =>
    if username = caller then .answered (.refused .cannotDeleteSelf)
    else
      match user? users username with
      | none => .answered .done
      | some user =>
        if user.activeAdmin then .counting username (.ok .delete)
        else .writing username .delete taken

def Write.commit (users : List GuiUser) (username : String) : Write → Except Answer (List GuiUser)
  | .delete => .ok (users.filter (·.username ≠ username))
  | .change columns =>
    if columns = {} then .ok users
    else if (user? users username).isSome then
      .ok (Table.modify (·.username) users username columns.write)
    else .error .failed

def isActiveAdmin (users : List GuiUser) (username : String) : Bool :=
  (user? users username).any (·.activeAdmin)

def takes (before after : List GuiUser) (username : String) : Bool :=
  isActiveAdmin before username && !isActiveAdmin after username

inductive Act
  | ask (request : Request)
  | read (i : Nat)
  | count (i : Nat)
  | commit (i : Nat)

def Act.of? : Act → Option Nat
  | ask _ => none
  | read i | count i | commit i => some i

namespace State

variable (s : State)

def at_ (i : Nat) (stage : Stage) : State := { s with requests := s.requests.set i stage }

def act (a : Act) : Option State :=
  match a with
  | .ask request => some { s with requests := s.requests ++ [.asked request] }
  | .read i =>
    match s.requests[i]? with
    | some (.asked request) => some (s.at_ i (request.read s.users s.taken))
    | _ => none
  | .count i =>
    match s.requests[i]? with
    | some (.counting username next) =>
      some (s.at_ i
        (if activeAdmins s.users ≤ 1 then .answered (.refused .lastAdmin)
        else .go username s.taken next))
    | _ => none
  | .commit i =>
    match s.requests[i]? with
    | some (.writing username write _) =>
      match write.commit s.users username with
      | .error answer => some (s.at_ i (.answered answer))
      | .ok users =>
        some { s.at_ i (.answered .done) with
          users, taken := s.taken + (takes s.users users username).toNat }
    | _ => none

def Step (s : State) (a : Act) (s' : State) : Prop := s.act a = some s'

/-- The commit takes an active admin away, and so did another one since the request looked. -/
def overtaken (a : Act) : Bool :=
  match a with
  | .commit i =>
    match s.requests[i]? with
    | some (.writing username write seen) =>
      match write.commit s.users username with
      | .ok users => takes s.users users username && seen ≠ s.taken
      | .error _ => false
    | _ => false
  | _ => false

end State

end Smo.GuiBff.Users
