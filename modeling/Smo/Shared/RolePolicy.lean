import Smo.Lib.Pattern
import Smo.Shared.Url

/-! What an rApp may call through the gateway (`smo_shared/roles.py`), and what it may still change
when it has been stopped (`smo_shared/killswitch.py`). -/
namespace Smo.RolePolicy

open Pattern (of oneOf maybe)
open Url (Method)

/-- `[^/]+` -/
def segment : Pattern := .someExcept '/'

/-- A route that is refused: the module prefix at R1, the methods, and the path as the backend
serves it, without the prefix. -/
structure Refused where
  module : String
  methods : List Method
  path : List Pattern

/-- `INTERNAL_ONLY` -/
def internalOnlyTable : List Refused := [
    ⟨"/ran-nf-oam", [.put, .delete], ["/rapp-limits/", segment]⟩,
    ⟨"/ran-nf-oam", [.put, .delete], ["/kpi-definitions/", segment]⟩,
    ⟨"/ran-nf-oam", [.post], ["/config-history/purge"]⟩,
    ⟨"/ran-nf-oam", [.put, .delete], ["/rapp-kill/", segment]⟩,
    ⟨"/ran-nf-oam", [.get], ["/rapp-kill"]⟩,
    ⟨"/rapp-mgmt", [.put, .delete], ["/instances/", segment, "/kill"]⟩,
    ⟨"/rapp-mgmt", [.put, .delete, .get], ["/kill-all"]⟩,
    ⟨"/ran-nf-oam", [.post], ["/kpi-definitions/standard"]⟩,
    ⟨"/ran-nf-oam", [.post], ["/kpis/", segment, "/publish"]⟩,
    ⟨"/ran-nf-oam", [.get, .post, .delete], ["/safeguard-subscriptions", maybe (of ["/",
      segment])]⟩,
    ⟨"/ran-nf-oam", [.get], ["/safeguard-refusals"]⟩,
    ⟨"/ran-nf-oam", [.post], ["/safeguard-refusals/purge"]⟩,
    ⟨"/ran-nf-oam", [.put, .delete], ["/kpi-schedules/", segment]⟩,
    ⟨"/ran-nf-oam", [.put, .delete], ["/rapp-approval-policy/", segment]⟩,
    ⟨"/ran-nf-oam", [.post], ["/rapp-approvals/", oneOf [of [segment, "/", oneOf ["approve",
      "reject"]], "expire-due"]]⟩,
    ⟨"/ran-nf-oam", [.get], ["/rapp-approvals"]⟩,
    ⟨"/ran-nf-oam", [.get, .post, .delete], ["/approval-subscriptions", maybe (of ["/",
      segment])]⟩,
    ⟨"/ran-nf-oam", [.get, .post, .delete], ["/lifecycle-subscriptions", maybe (of ["/",
      segment])]⟩,
    ⟨"/ran-nf-oam", [.get], ["/decision-records", maybe "/export.csv"]⟩,
    ⟨"/sme", [.put], ["/invoker-registrations/", segment, "/authz-scope"]⟩,
    ⟨"/ran-nf-oam", [.put], ["/managed-entities/", segment, "/scope"]⟩]

structure Change where
  methods : List Method
  path : List Pattern

/-- `CHANGES` -/
def changes (method : Method) : Bool := method != .get

/-- `RAPP_MAY_CHANGE`: the changes an rApp may make in a module, every one where there is no list. -/
def rappMayChangeTable : List (String × Option (List Change)) := [
    ("/sme", some [
      ⟨[.post], ["/", oneOf ["provider-registrations", "invoker-registrations", of ["oauth2/",
        oneOf ["token", "introspect"]]]]⟩,
      ⟨[.delete], ["/provider-registrations/", segment]⟩,
      ⟨[.post], ["/published-apis/v1/", segment, "/service-apis"]⟩,
      ⟨[.delete], ["/published-apis/v1/", segment, "/service-apis/", segment]⟩,
      ⟨[.post], ["/capif-events/v1/", segment, "/subscriptions"]⟩,
      ⟨[.delete], ["/capif-events/v1/", segment, "/subscriptions/", segment]⟩]),
    ("/dme", some [
      ⟨[.post], ["/", oneOf ["actions", "production-capabilities", "data-jobs", "offers",
        "type-subscriptions"]]⟩,
      ⟨[.delete], ["/", oneOf ["production-capabilities", "data-jobs"]]⟩,
      ⟨[.put, .delete], ["/data-jobs/", segment]⟩,
      ⟨[.post], ["/data-jobs/", segment, "/records"]⟩,
      ⟨[.delete], ["/", oneOf ["dme-types", "offers", "type-subscriptions"], "/", segment]⟩,
      ⟨[.post], ["/offers/", segment, "/notify"]⟩]),
    ("/aimgf", some [
      ⟨[.post], ["/", oneOf ["training-jobs", "validation-jobs", "emulation-jobs",
        "feature-groups", "mlmf/subscriptions", of ["ml-", oneOf ["training", "testing",
        "update", "model-loading"], "-requests"], "aiml-inference-reports"]]⟩,
      ⟨[.delete], ["/", oneOf ["training-jobs", "feature-groups", "mlmf/subscriptions",
        "ml-training-requests"], "/", segment]⟩,
      ⟨[.patch], ["/ml-", oneOf ["training", "testing", "update", "model-loading"], "-requests/",
        segment]⟩,
      ⟨[.post], ["/training-jobs/", segment, "/", oneOf ["suspend", "resume", "progress",
        "model-metrics", "complete"]]⟩,
      ⟨[.post], ["/", oneOf ["validation", "emulation"], "-jobs/", segment, "/complete"]⟩,
      ⟨[.post], ["/mlmf/subscriptions/", segment, "/reports"]⟩,
      ⟨[.post], ["/models/", segment, "/", oneOf ["advance", "inference-jobs", "runtime/deploy",
        "runtime/activate"]]⟩,
      ⟨[.post], ["/inference-jobs/", segment, "/resolve"]⟩]),
    ("/mlmr", some [
      ⟨[.post], ["/", oneOf ["models", "coordination-groups"]]⟩,
      ⟨[.put, .delete], ["/models/", segment]⟩,
      ⟨[.post], ["/models/", segment, "/artifact"]⟩,
      ⟨[.patch], ["/models/", segment, "/phase-info"]⟩]),
    ("/mllf", some [
      ⟨[.post], ["/models/", segment, "/deploy"]⟩]),
    ("/rapp-mgmt", some [
      ⟨[.put, .delete], ["/instances/", segment, "/operator-api"]⟩,
      ⟨[.post], ["/instances/", segment, "/", oneOf ["bootstrap-complete", "performance"]]⟩]),
    ("/mdaf", some [
      ⟨[.post], ["/", oneOf ["subscriptions", "mda-requests", "mda-reports", "reports"]]⟩,
      ⟨[.delete], ["/", oneOf ["subscriptions", "mda-requests"], "/", segment]⟩]),
    ("/intent-service", some [
      ⟨[.post], ["/", oneOf ["intents", "intent-reports", "intent-handling-functions",
        "autonomy-dispatches"]]⟩,
      ⟨[.delete], ["/", oneOf ["intents", "intent-handling-functions"], "/", segment]⟩,
      ⟨[.patch], ["/intents/", segment, "/admin-state"]⟩,
      ⟨[.post], ["/intents/", segment, "/negotiation-feedback"]⟩,
      ⟨[.post], ["/autonomy-dispatches/", segment, "/", oneOf ["resolve", "reject"]]⟩]),
    ("/ran-nf-oam", some [
      ⟨[.post], ["/config-jobs"]⟩,
      ⟨[.post], ["/config-jobs/", segment, "/rollback"]⟩]),
    ("/ran-analytics", none),
    ("/dme-push", none),
    ("/dme-pull", none)]

/-- `_EXEMPT` of the kill switch. -/
def exemptTable : List (Method × String × List Pattern) := [
    (.post, "/sme", ["/oauth2/", oneOf ["token", "introspect"]]),
    (.post, "/ran-nf-oam", ["/config-jobs/", segment, "/rollback"]),
    (.post, "/ran-nf-oam", ["/config-jobs"])]

/-- `"/" + path.lstrip("/")` -/
def rooted (path : Str) : Str := '/' :: path.dropWhile (· == '/')

/-- Whether an rApp is refused this call: `match`, so that a line break behind the path is refused
with it. -/
def internalOnly (module : Str) (method : Method) (path : Str) : Bool :=
  internalOnlyTable.any fun route =>
    route.module.toList == module && route.methods.contains method &&
      (of route.path).matchesLine (rooted path)

def changesOf (module : Str) : Option (Option (List Change)) :=
  (rappMayChangeTable.find? (·.1.toList == module)).map Prod.snd

/-- Whether an rApp may make this change; `fullmatch`, so that exactly the listed path is accepted. -/
def rappMayChange (module : Str) (method : Method) (path : Str) : Bool :=
  !changes method ||
    match changesOf module with
    | none => false
    | some none => true
    | some (some rules) => rules.any fun rule =>
        rule.methods.contains method && (of rule.path).fullmatch (rooted path)

def exempt (module : Str) (method : Method) (path : Str) : Bool :=
  method == .delete || exemptTable.any fun (exempted, of_module, pattern) =>
    exempted == method && of_module.toList == module && (of pattern).fullmatch (rooted path)

/-- `INTERNAL_ONLY` lists the route of a module. -/
def ListsInternal (module : Str) (method : Method) (path : Str) : Prop :=
  ∃ route ∈ internalOnlyTable, route.module.toList = module ∧ method ∈ route.methods ∧
    (of route.path).Denotes path

/-- `RAPP_MAY_CHANGE` lists the change. -/
def ListsChange (module : Str) (method : Method) (path : Str) : Prop :=
  ∃ rules, changesOf module = some rules ∧ ∀ listed ∈ rules, ∃ rule ∈ listed,
    method ∈ rule.methods ∧ (of rule.path).Denotes path

section Lists

variable {module path : Str} {method : Method}

theorem internalOnly_of_lists (lists : ListsInternal module method (rooted path)) :
    internalOnly module method path = true := by
  obtain ⟨route, mem, is, has, denotes⟩ := lists
  refine List.any_eq_true.mpr ⟨route, mem, ?_⟩
  have matched := Pattern.matchesLine_iff.mpr (.inl denotes)
  simp [is, has, matched]

theorem rappMayChange_iff :
    rappMayChange module method path = true ↔
      (changes method = true → ListsChange module method (rooted path)) := by
  unfold rappMayChange ListsChange
  cases changes method with
  | false => simp
  | true =>
    rw [Bool.not_true, Bool.false_or]
    rcases changesOf module with _ | _ | rules
    · simp
    · simp
    · simp [Pattern.fullmatch_iff]

end Lists

end Smo.RolePolicy
