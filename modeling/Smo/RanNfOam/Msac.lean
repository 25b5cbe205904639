import Smo.RanNfOam.Ldn
import Mathlib.Data.List.Dedup

/-! Management service access control (`app/msac.py`): the access path of a change
target and the evaluation of the access rules of a requester's roles. -/
namespace Smo.RanNfOam.Msac

open Ldn

inductive Operation where
  | create | read | update | delete | exec
  deriving DecidableEq, Repr

inductive RuleAction where
  | allow | deny
  deriving DecidableEq, Repr

structure MsacAccessRule where
  ruleId : Nat
  dataNodeSelector : Str
  operations : List Operation
  actions : RuleAction
  deriving DecidableEq, Repr

structure MsacRole where
  roleId : Nat
  roleName : String
  accessRulesList : List Nat
  deriving DecidableEq, Repr

structure MsacIdentity where
  identityName : String
  roleList : List Nat
  deriving DecidableEq, Repr

structure Db where
  identities : List MsacIdentity := []
  roles : List MsacRole := []
  accessRules : List MsacAccessRule := []
  deriving DecidableEq, Repr

/-- The RDNs the access path takes for the element: those of a DN, or the flat
reference as it stands under `ManagedElement`. -/
def elementRdns (managedElementRef : Str) : Except BadRdn (List Rdn) :=
  if '=' ∈ managedElementRef then parseLdn managedElementRef
  else .ok [⟨"ManagedElement".toList, managedElementRef⟩]

/-- The pieces the access path takes for the function; a flat id stands for itself. -/
def functionPieces (function : Str) : Except BadRdn (List Str) :=
  if function = [] then .ok []
  else if '=' ∈ function then return (← parseLdn function).map Rdn.render
  else .ok [function]

/-- The DN path of a change target, `/ManagedElement=ME-1/NRCellDU=101`. -/
def targetPath (managedElementRef : Str) (managedFunctionRef : Option Str) : Except BadRdn Str := do
  let rdns ← elementRdns managedElementRef
  let below ← functionPieces (managedFunctionRef.getD [])
  return '/' :: Str.join '/' (rdns.map Rdn.render ++ below)

def rulesOf (db : Db) (roles : List MsacRole) : List MsacAccessRule :=
  (roles.flatMap (·.accessRulesList)).dedup.filterMap fun ruleId =>
    db.accessRules.find? (·.ruleId = ruleId)

/-- Whether the requester is managed (an identity or a defined role was found), and
its roles. -/
def resolveRoles (db : Db) (requestedBy : String) (msacRole : Option String) :
    Bool × List MsacRole :=
  let identity := db.identities.find? (·.identityName = requestedBy)
  let listed := ((identity.map (·.roleList)).getD []).filterMap fun roleId =>
    db.roles.find? (·.roleId = roleId)
  let named := match msacRole with
    | none => none
    | some name => if name = "" then none else db.roles.find? (·.roleName = name)
  let roles := match named with
    | none => listed
    | some role => if role ∈ listed then listed else listed ++ [role]
  (identity.isSome || named.isSome, roles)

/-- Whether a selector, its trailing slashes dropped, matches the whole path; `*`
runs over any characters but a newline. -/
def selects (selector target : Str) : Bool :=
  let stripped := Str.rstrip '/' selector
  let pattern := if stripped = [] then "/*".toList else stripped
  Text.globMatch '*' (· != '\n') pattern target

/-- DENY beats ALLOW among the rules that list the operation and select the target;
no such rule means refused. -/
def authorize (db : Db) (roles : List MsacRole) (target : Str) (operation : Operation) : Bool :=
  let matched := (rulesOf db roles).filter fun rule =>
    rule.operations.contains operation && selects rule.dataNodeSelector target
  if matched.any (·.actions = .deny) then false else matched.any (·.actions = .allow)

def dnPath (rdns : List Rdn) : Str := '/' :: Str.join '/' (rdns.map Rdn.render)

theorem elementRdns_flat {me : Str} (flat : '=' ∉ me) :
    elementRdns me = .ok [⟨"ManagedElement".toList, me⟩] := by
  rw [elementRdns, if_neg flat]

theorem elementRdns_dn {me : Str} (dn : '=' ∈ me) : elementRdns me = parseLdn me := by
  rw [elementRdns, if_pos dn]

theorem targetPath_dn {me function : Str} {above below : List Rdn} (dn : '=' ∈ function)
    (helement : elementRdns me = .ok above) (hfunction : parseLdn function = .ok below) :
    targetPath me (some function) = .ok (dnPath (above ++ below)) := by
  have nonempty : function ≠ [] := by
    rintro rfl
    exact absurd dn List.not_mem_nil
  have pieces : functionPieces function = .ok (below.map Rdn.render) := by
    rw [functionPieces, if_neg nonempty, if_pos dn, hfunction]
    rfl
  rw [targetPath, helement, Option.getD_some, pieces]
  simp only [bind, Except.bind, pure, Except.pure, dnPath, List.map_append]

end Smo.RanNfOam.Msac
