import Smo.RanNfOam.Southbound.NetconfClient

/-! An edit over RESTCONF (`app/restconf_client.py`): the method an operation is sent with,
and how an exchange becomes the result of the edit. -/
namespace Smo.RanNfOam.RestconfClient

open ConfigJobs

/-- A `RestconfResult` that is not applied. -/
structure Failure where
  reason : String
  errorTag : Option String
  deriving DecidableEq, Repr

def Failure.result (failure : Failure) : EditResult where
  applied := false
  reason := some failure.reason
  detail := none
  retryable := failure.reason = "RESTCONF_TIMEOUT" || failure.reason = "RESTCONF_UNREACHABLE"

inductive Method where
  | patch | put | post | delete
  deriving DecidableEq, Repr

def methodOf (operation : String) : Option Method :=
  if operation = "merge" then some .patch
  else if operation = "replace" then some .put
  else if operation = "create" then some .post
  else if operation = "delete" ∨ operation = "remove" then some .delete
  else none

/-- `_send`: the failure of an exchange, with the `error-tag` of its body. -/
def send {β : Type} (errorTag : β → Option String) : HttpAnswer β → Option Failure
  | .timedOut => some ⟨"RESTCONF_TIMEOUT", none⟩
  | .failed => some ⟨"RESTCONF_UNREACHABLE", none⟩
  | .response status body =>
    if status < 300 then none
    else if status = 408 ∨ status = 504 then some ⟨"RESTCONF_TIMEOUT", errorTag body⟩
    else if (errorTag body = none ∧ 500 ≤ status) ∨ status = 502 ∨ status = 503 then
      some ⟨"RESTCONF_UNREACHABLE", errorTag body⟩
    else some ⟨"RESTCONF_REQUEST_FAILED", errorTag body⟩

/-- `send_edit`, over something that exchanges a request for an answer. -/
def sendEdit {σ β : Type} (errorTag : β → Option String) (operation : String)
    (exchange : Method → σ → σ × HttpAnswer β) (s : σ) : σ × EditResult :=
  match methodOf operation with
  | none => (s, (Failure.mk "RESTCONF_REQUEST_FAILED" (some "invalid-value")).result)
  | some method =>
    let answered := exchange method s
    match send errorTag answered.2 with
    | none => (answered.1, { applied := true })
    | some failure =>
      if operation = "remove" ∧ failure.errorTag = some "data-missing" then
        (answered.1, { applied := true })
      else (answered.1, failure.result)

end Smo.RanNfOam.RestconfClient
