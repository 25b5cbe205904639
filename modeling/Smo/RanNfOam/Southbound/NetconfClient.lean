import Smo.Lib.Xml
import Smo.RanNfOam.ConfigJobs.Dispatch

/-! An edit over NETCONF in HTTP (`app/netconf_client.py`): how an exchange and the reply
become the result of the edit. -/
namespace Smo.RanNfOam

/-- How `httpx` ends an exchange: a `TimeoutException`, another `HTTPError`, or a response. -/
inductive HttpAnswer (β : Type) where
  | timedOut
  | failed
  | response (status : Nat) (body : β)
  deriving Repr

namespace NetconfClient

open ConfigJobs

/-- An `EditResult` that is not applied. -/
def rejected (reason : String) (detail : Option String) : EditResult where
  applied := false
  reason := some reason
  detail := detail
  retryable := reason = "NETCONF_TIMEOUT" || reason = "NETCONF_UNREACHABLE"

/-- `_post`: the body of a 2xx response, or the reason there is none. -/
def post {β : Type} : HttpAnswer β → Except String β
  | .timedOut => .error "NETCONF_TIMEOUT"
  | .failed => .error "NETCONF_UNREACHABLE"
  | .response status body =>
    if status = 408 ∨ status = 504 then .error "NETCONF_TIMEOUT"
    else if 500 ≤ status then .error "NETCONF_UNREACHABLE"
    else if 300 ≤ status then .error "NETCONF_RPC_FAILED"
    else .ok body

def rpcErrorTags : List (String × String) := [
  ("in-use", "the data is locked or in use"),
  ("invalid-value", "a value is not acceptable"),
  ("too-big", "the request or a response is too big"),
  ("missing-attribute", "an attribute is missing"),
  ("bad-attribute", "an attribute value is not correct"),
  ("unknown-attribute", "an attribute is unknown"),
  ("missing-element", "an element is missing"),
  ("bad-element", "an element value is not correct"),
  ("unknown-element", "an element is unknown"),
  ("unknown-namespace", "a namespace is unknown"),
  ("access-denied", "access denied"),
  ("lock-denied", "the lock is held by another session"),
  ("resource-denied", "the server is out of resources"),
  ("rollback-failed", "the rollback failed"),
  ("data-exists", "the data already exists"),
  ("data-missing", "the data does not exist"),
  ("operation-not-supported", "the operation is not supported"),
  ("operation-failed", "the operation failed"),
  ("malformed-message", "the message is malformed")]

/-- `fields.get(name)` of an `<rpc-error>`, empty where there is none; a field that comes
again replaces the earlier one. -/
def errorField (error : Xml) (name : String) : String :=
  let fields := error.iter.tail.map fun child =>
    (child.localName, String.ofList (Str.strip child.text.toList))
  (fields.reverse.lookup name).getD ""

/-- `rpc_error_detail`: one line describing the first `<rpc-error>` of a reply. -/
def rpcErrorDetail (root : Xml) : Option String :=
  (root.children.find? (·.localName = "rpc-error")).map fun error =>
    let tag := errorField error "error-tag"
    let meaning := match rpcErrorTags.lookup tag with
      | some meaning => s!" ({meaning})"
      | none => ""
    let path := errorField error "error-path"
    let place := if path = "" then errorField error "bad-element" else path
    let message := errorField error "error-message"
    let text := (if tag = "" then "rpc-error" else tag ++ meaning) ++
      (if place = "" then "" else s!" at {place}") ++
      (if message = "" then "" else s!": {message}")
    String.ofList (text.toList.take 300)

/-- Applied when the `<rpc-reply>` carries `<ok/>`; anything else is not retried. -/
def editOutcome : Option Xml → EditResult
  | none => rejected "NETCONF_RPC_FAILED" none
  | some root =>
    if root.children.any (·.localName = "ok") then { applied := true }
    else rejected "NETCONF_RPC_FAILED" (rpcErrorDetail root)

/-- `send_edit_config`, from the answer and the reader of replies. -/
def sendEditConfig {β : Type} (parseReply : β → Option Xml) (answer : HttpAnswer β) :
    EditResult :=
  match post answer with
  | .error reason => rejected reason none
  | .ok body => editOutcome (parseReply body)

end NetconfClient

end Smo.RanNfOam
