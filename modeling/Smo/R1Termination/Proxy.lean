import Smo.R1Termination.Forwarding
import Smo.Shared.RolePolicy

/-! The gateway's proxy route (`r1-termination/app/main.py`): what it refuses, and the module and the
path that it forwards a request to. -/
namespace Smo.R1Termination

open RolePolicy (changes exempt internalOnly rappMayChange)
open Url (Method)

/-- `ROUTES`: the module prefixes that have a backend. -/
def routes : List String := [
    "sme", "dme", "dme-push", "dme-pull", "onboarding", "rapp-mgmt", "ran-nf-oam", "nfo", "focom",
    "aimgf", "mlmr", "mllf", "ran-analytics", "mdaf", "intent-service", "so-smos", "sa-smos"]

def pathProblem (rest : Str) : Bool :=
  let parts := Str.split '/' rest
  let parts := if parts.getLast? = some [] then parts.dropLast else parts
  rest.contains '\\' || rest.contains '\x00' ||
    parts.any fun part => part == [] || part == ['.'] || part == ['.', '.']

/-- `rest.removesuffix("/")` -/
def removeSlash (rest : Str) : Str := if rest.getLast? = some '/' then rest.dropLast else rest

inductive Mode
  | enforce
  | audit
  deriving DecidableEq

structure Finding where
  /-- What SME says of the token; none when it did not answer. -/
  introspection : Option (Option Caller)
  /-- The seconds to wait when the caller has used its budget. -/
  wait : Option Nat
  mode : Mode
  /-- The kill switch is enforced. -/
  enforced : Bool
  /-- Whether an rApp is stopped; none when the switch could not be read. -/
  isKilled : Str → Option Bool
  onBehalfOf : Option Str

inductive Answer
  | refused (status : Nat) (title : String)
  /-- To the rApp's operator API. -/
  | operatorApi (rest : Str)
  /-- To a backend: its prefix, and the path behind it. -/
  | forwarded (module rest : Str)
  deriving DecidableEq

def stoppable (finding : Finding) (caller : Caller) : Option Str :=
  match caller.role with
  | .rapp => given (some caller.invokerId)
  | .internal => given finding.onBehalfOf

def notPermitted (finding : Finding) (caller : Caller) (module : Str) (method : Method) (rest : Str) :
    Bool :=
  caller.role = .rapp && (internalOnly module method rest || !rappMayChange module method rest) &&
    finding.mode = .enforce

def killed (finding : Finding) (caller : Caller) (module : Str) (method : Method) (rest : Str) :
    Option Answer :=
  match stoppable finding caller with
  | none => none
  | some stopped =>
    if changes method && finding.enforced && !exempt module method rest then
      match finding.isKilled stopped with
      | none => some (.refused 503 "KILL_SWITCH_UNAVAILABLE")
      | some true => some (.refused 403 "RAPP_KILLED")
      | some false => none
    else none

/-- `_proxy` -/
def proxy (finding : Finding) (method : Method) (fullPath : Str) : Answer :=
  let (first, others) := Text.partition '/' fullPath
  let module := '/' :: first
  let dynamic := first == "rapps".toList
  if others = some "metrics".toList then .refused 404 "NO_ROUTE"
  else if !(routes.any fun known => known.toList == first) && !dynamic then .refused 404 "NO_ROUTE"
  else
    match finding.introspection with
    | none => .refused 503 "AUTH_SERVICE_UNAVAILABLE"
    | some none => .refused 401 "UNAUTHORIZED"
    | some (some caller) =>
      if finding.wait.isSome then .refused 429 "RATE_LIMITED"
      else if pathProblem (others.getD []) then .refused 400 "INVALID_PATH"
      else
        let rest := removeSlash (others.getD [])
        if notPermitted finding caller module method rest then .refused 403 "ROLE_NOT_PERMITTED"
        else
          match killed finding caller module method rest with
          | some answer => answer
          | none => if dynamic then .operatorApi rest else .forwarded module rest

structure Forwards (finding : Finding) (method : Method) (fullPath module rest : Str) : Prop where
  named : module = '/' :: (Text.partition '/' fullPath).1
  known : ∃ name ∈ routes, module = '/' :: name.toList
  path : rest = removeSlash ((Text.partition '/' fullPath).2.getD [])
  resolved : pathProblem ((Text.partition '/' fullPath).2.getD []) = false
  caller : ∃ caller, finding.introspection = some (some caller) ∧
    notPermitted finding caller module method rest = false

theorem forwards_of_proxy {finding : Finding} {method : Method} {fullPath module rest : Str}
    (forwarded : proxy finding method fullPath = .forwarded module rest) :
    Forwards finding method fullPath module rest := by
  unfold proxy at forwarded
  dsimp only at forwarded
  split at forwarded
  · cases forwarded
  split at forwarded
  · cases forwarded
  next known =>
  split at forwarded
  · cases forwarded
  · cases forwarded
  next caller is =>
  split at forwarded
  · cases forwarded
  split at forwarded
  · cases forwarded
  next resolved =>
  split at forwarded
  · cases forwarded
  next permitted =>
  split at forwarded
  · next answer stop =>
    subst forwarded
    unfold killed at stop
    split at stop
    · cases stop
    · split at stop
      · split at stop <;> cases stop
      · cases stop
  · split at forwarded
    · cases forwarded
    · next other =>
      cases forwarded
      refine ⟨rfl, ?_, rfl, by simpa using resolved, caller, is, by simpa using permitted⟩
      rw [Bool.not_eq_true] at other
      rw [other, Bool.not_false, Bool.and_true, Bool.not_eq_true, Bool.not_eq_false'] at known
      obtain ⟨name, mem, same⟩ := List.any_eq_true.mp known
      exact ⟨name, mem, by rw [beq_iff_eq.mp same]⟩

end Smo.R1Termination
