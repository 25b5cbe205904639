import Smo.Shared.Invoker
import Smo.Lib.Table
import Smo.Lib.Runs

/-! The invokers that SME holds (`sme/app/main.py`): their registration, the scope claim they are
given and the edit of a claim. Whether a text is a PEM public key is a parameter. -/
namespace Smo.Sme

open Json (Text Value)
open Scope (Nesting)

abbrev Claim := List (Text × Value)

structure InvokerRegistration where
  apiInvokerId : Str
  publicKey : Str
  kind : Role
  authzScope : Option Claim
  lastTokenIssuedAt : Option Nat := none

structure InvokerRegistrationRequest where
  apiInvokerPublicKey : Str
  authzScope : Value := .null

/-- `SMO_ENROLLMENT_SECRET` and `SME_ALLOW_OPEN_ENROLLMENT`. -/
structure Enrollment where
  secret : Option Str
  allowOpen : Bool := false

def stored : Option Claim → Value
  | none => .null
  | some claim => .obj claim

def checkedScope (value : Value) : Except Problem (Option Claim) :=
  match Scope.fromClaim value with
  | .ok scope => .ok (Scope.toClaim scope)
  | .error detail => .error ⟨.authzScopeInvalid, detail⟩

/-- The kind of a new invoker, by the `X-SMO-Enrollment` header of its request. -/
def enrolled (enrollment : Enrollment) (presented : Option Str) : Except Problem Role :=
  match given enrollment.secret with
  | none =>
    if enrollment.allowOpen then .ok .internal
    else .error ⟨.enrollmentNotConfigured,
      "SME has no enrollment secret (SMO_ENROLLMENT_SECRET[_FILE]): it cannot tell an SMO module from an rApp"⟩
  | some expected =>
    match presented with
    | none => .ok .rapp
    | some secret =>
      if secret = expected then .ok .internal
      else .error ⟨.enrollmentRefused, "the enrollment secret presented is not the one SME holds"⟩

def begins : Str := "-----BEGIN".toList

/-- `_check_public_key`: a text that looks like a PEM key must be one. -/
def checkPublicKey (isPem : Str → Bool) (value : Str) : Except Problem Unit :=
  if begins.isPrefixOf (value.dropWhile Str.isSpace) && !isPem value then
    .error ⟨.securityContextInvalid, "apiInvokerPublicKey is not a valid PEM public key"⟩
  else .ok ()

def claimFor (caller : Option Scope) (claim : Option Claim) : Except Problem (Option Claim) :=
  match caller with
  | none => .ok claim
  | some scope =>
    if scope.regions = some [] ∨ scope.tenants = some [] then
      .error ⟨.scopeDenied, "the caller's scope claim permits nothing, so it has nothing to hand out"⟩
    else
      match claim with
      | none => .ok (Scope.toClaim (some scope))
      | some asked =>
        if (Scope.fromClaim (.obj asked)).toOption.any (Scope.covers (some scope)) then .ok claim
        else .error ⟨.scopeDenied, "the scope claim asked for is wider than the caller's own"⟩

abbrev Answered (α : Type) := List InvokerRegistration × Except Problem α

/-- `register_invoker`, with the id that it draws. -/
def registerInvoker (isPem : Str → Bool) (enrollment : Enrollment) (caller : Option Scope)
    (body : InvokerRegistrationRequest) (presented : Option Str) (drawn : Str)
    (rows : List InvokerRegistration) : Answered InvokerRegistration :=
  let checked : Except Problem (Option Claim × Role) := do
    checkPublicKey isPem body.apiInvokerPublicKey
    let asked ← checkedScope body.authzScope
    let claim ← claimFor caller asked
    let kind ← enrolled enrollment presented
    return (claim, kind)
  match checked with
  | .error problem => (rows, .error problem)
  | .ok (claim, kind) =>
    let invoker : InvokerRegistration :=
      { apiInvokerId := drawn, publicKey := body.apiInvokerPublicKey, kind, authzScope := claim }
    (rows ++ [invoker], .ok invoker)

/-- `set_invoker_authz_scope`. -/
def setInvokerAuthzScope (id : Str) (claim : Value) (rows : List InvokerRegistration) :
    Answered (Option Claim) :=
  match Table.get (·.apiInvokerId) rows id with
  | none => (rows, .error ⟨.invokerNotRegistered, s!"invoker {String.ofList id} not registered"⟩)
  | some _ =>
    match checkedScope claim with
    | .error problem => (rows, .error problem)
    | .ok checked =>
      (Table.modify (·.apiInvokerId) rows id fun invoker => { invoker with authzScope := checked },
        .ok checked)

def tokenIssued (id : Str) (now : Nat) (rows : List InvokerRegistration) :
    List InvokerRegistration :=
  Table.modify (·.apiInvokerId) rows id fun invoker => { invoker with lastTokenIssuedAt := some now }

end Smo.Sme
