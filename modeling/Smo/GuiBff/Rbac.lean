import Smo.Lib.Json.Load
import Smo.Shared.RolePolicy

/-! The console's permission table (`gui-bff/app/rbac.py`): a method and a path, and the role that a
person needs to call it. -/
namespace Smo.GuiBff

open Pattern (of oneOf maybe)
open RolePolicy (segment)
open Url (Method)

inductive Role
  | viewer
  | operator
  | admin
  deriving DecidableEq

/-- `RANK` -/
def Role.rank : Role → Nat
  | viewer => 0
  | operator => 1
  | admin => 2

structure User where
  username : Str
  role : Role

/-- `MODULES`: the R1 prefixes that the console may reach. -/
def modules : List String := [
    "sme", "dme", "onboarding", "rapp-mgmt", "ran-nf-oam", "nfo", "focom", "aimgf", "mlmr", "mllf",
    "ran-analytics", "mdaf", "intent-service", "so-smos", "sa-smos"]

def guiName (user : User) : Str := "smo-gui:".toList ++ user.username

inductive QueryOverride
  | ackUserId
  | clearUserId
  | requesterIsAdmin
  deriving DecidableEq

def QueryOverride.forced (user : User) : QueryOverride → List (Str × Str)
  | ackUserId => [("ack_user_id".toList, user.username)]
  | clearUserId => [("clear_user_id".toList, user.username)]
  | requesterIsAdmin =>
    [("requester_is_admin".toList, (if user.role = .admin then "true" else "false").toList)]

inductive JsonOverride
  | requestedBy
  | requestedByWithTier
  | decidedBy
  | rejectedBy
  | pinnedBy
  | author
  | rmioId
  | requesterId
  deriving DecidableEq

def JsonOverride.forced (user : User) : JsonOverride → List (Str × Option Str)
  | requestedBy => [("requestedBy".toList, some (guiName user))]
  | requestedByWithTier =>
    [("requestedBy".toList, some (guiName user)),
      ("msacRole".toList, if user.role = .admin then some "admin".toList else none)]
  | decidedBy => [("decidedBy".toList, some (guiName user))]
  | rejectedBy => [("rejectedBy".toList, some (guiName user))]
  | pinnedBy => [("pinnedBy".toList, some (guiName user))]
  | author => [("author".toList, some user.username)]
  | rmioId => [("rmioId".toList, some "smo-gui".toList)]
  | requesterId => [("requesterId".toList, some "smo-gui".toList)]

structure Rule where
  method : Method
  path : List Pattern
  role : Role
  queryMatch : List (String × String) := []
  queryOverrides : Option QueryOverride := none
  jsonOverrides : Option JsonOverride := none
  deriving DecidableEq

def rule (method : Method) (path : List Pattern) (role : Role) : Rule := { method, path, role }

/-- `.*` -/
def line : Pattern := .many ['\n']

/-- `RULES`: the first rule that matches decides. -/
def rules : List Rule := [
    rule .get ["/aimgf/feature-groups"] .operator,
    rule .get ["/aimgf/feature-groups/", segment] .operator,
    rule .post ["/aimgf/feature-groups"] .operator,
    rule .delete ["/aimgf/feature-groups/", segment] .operator,
    rule .post ["/onboarding/packages"] .operator,
    rule .post ["/onboarding/packages/", segment, "/", oneOf ["prime", "deprime", "deprecate",
      "cancel-delete"]] .operator,
    rule .delete ["/onboarding/packages/", segment] .admin,
    rule .post ["/onboarding/packages/", segment, "/usage/start"] .admin,
    rule .post ["/onboarding/packages/", segment, "/usage/", segment, "/stop"] .admin,
    rule .post ["/rapp-mgmt/instances"] .operator,
    rule .put ["/rapp-mgmt/instances/", segment, "/config"] .operator,
    rule .post ["/rapp-mgmt/instances/", segment, "/", oneOf ["upgrade", "upgrade/resolve",
      "rollback", "recover", "bootstrap-complete"]] .operator,
    { rule .put ["/rapp-mgmt/instances/", segment, "/kill"] .operator with
      jsonOverrides := some .requestedBy },
    rule .delete ["/rapp-mgmt/instances/", segment, "/kill"] .admin,
    { rule .put ["/rapp-mgmt/kill-all"] .operator with jsonOverrides := some .requestedBy },
    rule .delete ["/rapp-mgmt/kill-all"] .admin,
    rule .post ["/rapp-mgmt/instances/", segment, "/terminate"] .admin,
    rule .delete ["/rapp-mgmt/instances/", segment] .admin,
    rule .post ["/rapp-mgmt/instances/", segment, "/", oneOf ["performance", "fault"]] .admin,
    rule .post ["/mlmr/models"] .operator,
    rule .put ["/mlmr/models/", segment] .operator,
    rule .delete ["/mlmr/models/", segment] .admin,
    rule .post ["/mlmr/models/", segment, "/artifact"] .operator,
    rule .post ["/mlmr/coordination-groups"] .operator,
    { rule .post ["/aimgf/models/", segment, "/advance"] .admin with queryMatch := [("event",
      "DEPRECATE")] },
    { rule .post ["/aimgf/models/", segment, "/advance"] .admin with queryMatch := [("event",
      "RETIRE")] },
    { rule .post ["/aimgf/models/", segment, "/advance"] .admin with queryMatch := [("event",
      "SUBMIT_FOR_APPROVAL")] },
    { rule .post ["/aimgf/models/", segment, "/advance"] .admin with queryMatch := [("event",
      "APPROVE")] },
    { rule .post ["/aimgf/models/", segment, "/advance"] .admin with queryMatch := [("event",
      "REJECT")] },
    { rule .post ["/aimgf/models/", segment, "/advance"] .admin with queryMatch := [("event",
      "CERTIFY")] },
    { rule .post ["/aimgf/models/", segment, "/advance"] .admin with queryMatch := [("event",
      "PROMOTE")] },
    { rule .post ["/aimgf/models/", segment, "/advance"] .admin with queryMatch := [("event",
      "ROLLBACK")] },
    rule .post ["/aimgf/models/", segment, "/", oneOf ["advance", "inference-jobs"]] .operator,
    rule .post ["/aimgf/models/", segment, "/runtime/terminate"] .admin,
    rule .post ["/aimgf/models/", segment, "/runtime/", oneOf ["deploy", "activate",
      "scale"]] .operator,
    rule .post ["/mllf/models/", segment, "/deploy"] .operator,
    rule .post ["/aimgf/inference-jobs/", segment, "/resolve"] .operator,
    rule .post ["/aimgf/training-jobs"] .operator,
    rule .delete ["/aimgf/training-jobs/", segment] .operator,
    rule .post ["/aimgf/training-jobs/", segment, "/model-metrics"] .operator,
    rule .post ["/aimgf/training-jobs/", segment, "/", oneOf ["suspend", "resume"]] .operator,
    rule .post ["/aimgf/training-jobs/", segment, "/complete"] .operator,
    rule .post ["/aimgf/training-jobs/", segment, "/progress"] .operator,
    rule .post ["/aimgf/validation-jobs"] .operator,
    rule .post ["/aimgf/validation-jobs/", segment, "/complete"] .operator,
    rule .post ["/aimgf/emulation-jobs"] .operator,
    rule .post ["/aimgf/emulation-jobs/", segment, "/complete"] .operator,
    rule .post ["/aimgf/mlmf/subscriptions"] .operator,
    rule .post ["/aimgf/mlmf/subscriptions/", segment, "/reports"] .admin,
    { rule .patch ["/ran-nf-oam/alarms/", segment, "/ack"] .operator with
      queryOverrides := some .ackUserId },
    { rule .patch ["/ran-nf-oam/alarms/", segment, "/clear"] .operator with
      queryOverrides := some .clearUserId },
    { rule .post ["/ran-nf-oam/alarms/", segment, "/comments"] .operator with
      jsonOverrides := some .author },
    rule .post ["/ran-nf-oam/alarms/ingest"] .admin,
    { rule .post ["/ran-nf-oam/config-jobs"] .operator with
      jsonOverrides := some .requestedByWithTier },
    { rule .post ["/ran-nf-oam/config-jobs/", segment, "/rollback"] .operator with
      jsonOverrides := some .requestedByWithTier },
    { rule .post ["/ran-nf-oam/config-jobs/", segment, "/", oneOf ["continue", "halt",
      "abort"]] .operator with jsonOverrides := some .requestedBy },
    { rule .post ["/ran-nf-oam/config-jobs/", segment, "/", oneOf ["approve",
      "reject"]] .operator with jsonOverrides := some .decidedBy },
    rule .post ["/ran-nf-oam/config-jobs/", segment, "/kpi-check"] .operator,
    rule .put ["/ran-nf-oam/kpi-definitions/", segment] .admin,
    rule .delete ["/ran-nf-oam/kpi-definitions/", segment] .admin,
    rule .post ["/ran-nf-oam/kpi-definitions/standard"] .admin,
    rule .put ["/ran-nf-oam/kpi-schedules/", segment] .admin,
    rule .delete ["/ran-nf-oam/kpi-schedules/", segment] .admin,
    rule .post ["/ran-nf-oam/", oneOf ["pm-subscriptions", "software-management-jobs",
      "o1-adaptor-endpoints", "o1-adaptor-endpoints/discover"]] .operator,
    rule .post ["/ran-nf-oam/fm-subscriptions"] .operator,
    rule .delete ["/ran-nf-oam/", oneOf ["fm-subscriptions", "pm-subscriptions"], "/",
      segment] .operator,
    rule .post ["/ran-nf-oam/software-management-jobs/", segment, "/advance"] .operator,
    rule .post ["/ran-nf-oam/o1-adaptor-endpoints/", segment, "/heartbeat"] .admin,
    { rule .put ["/ran-nf-oam/o1-adaptor-endpoints/", segment, "/host-keys"] .admin with
      jsonOverrides := some .pinnedBy },
    rule .delete ["/ran-nf-oam/o1-adaptor-endpoints/", segment, "/host-keys", maybe (of ["/",
      segment])] .admin,
    rule .post ["/ran-nf-oam/managed-entities/", segment, "/managed-objects/refresh"] .operator,
    rule .post ["/ran-nf-oam/msac/", oneOf ["roles", "identities", "access-rules"],
      maybe (of ["/", segment])] .admin,
    rule .put ["/ran-nf-oam/msac/", oneOf ["roles", "identities", "access-rules"],
      maybe (of ["/", segment])] .admin,
    rule .delete ["/ran-nf-oam/msac/", oneOf ["roles", "identities", "access-rules"],
      maybe (of ["/", segment])] .admin,
    rule .put ["/ran-nf-oam/onboarding-templates/", segment] .admin,
    rule .delete ["/ran-nf-oam/onboarding-templates/", segment] .admin,
    rule .post ["/ran-nf-oam/element-onboarding/", segment, "/select"] .operator,
    { rule .post ["/ran-nf-oam/element-onboarding/", segment, "/apply"] .operator with
      jsonOverrides := some .requestedBy },
    { rule .post ["/ran-nf-oam/software-campaigns"] .operator with
      jsonOverrides := some .requestedBy },
    { rule .post ["/ran-nf-oam/software-campaigns/", segment, "/", oneOf ["continue", "halt",
      "abort", "rollback"]] .operator with jsonOverrides := some .requestedBy },
    rule .post ["/ran-nf-oam/lifecycle-subscriptions"] .admin,
    rule .delete ["/ran-nf-oam/lifecycle-subscriptions/", segment] .admin,
    rule .post ["/ran-nf-oam/", oneOf ["cm-schemas", "vendor-onboarding"]] .admin,
    rule .put ["/ran-nf-oam/vendor-capabilities/", segment] .admin,
    rule .delete ["/ran-nf-oam/vendor-capabilities/", segment] .admin,
    rule .put ["/ran-nf-oam/managed-entities/", segment, "/cells/", segment, "/guards"] .admin,
    rule .delete ["/ran-nf-oam/managed-entities/", segment, "/cells/", segment, "/guards"] .admin,
    rule .put ["/ran-nf-oam/managed-entities/", segment, "/scope"] .admin,
    rule .put ["/ran-nf-oam/managed-entities/", segment, "/site-cluster"] .admin,
    rule .put ["/sme/invoker-registrations/", segment, "/authz-scope"] .admin,
    rule .put ["/ran-nf-oam/rapp-limits/", segment] .admin,
    rule .delete ["/ran-nf-oam/rapp-limits/", segment] .admin,
    rule .post ["/ran-nf-oam/safeguard-subscriptions"] .admin,
    rule .delete ["/ran-nf-oam/safeguard-subscriptions/", segment] .admin,
    rule .post ["/ran-nf-oam/safeguard-refusals/purge"] .admin,
    { rule .post ["/ran-nf-oam/rapp-approvals/", segment, "/", oneOf ["approve",
      "reject"]] .operator with jsonOverrides := some .decidedBy },
    { rule .put ["/ran-nf-oam/rapp-approval-policy/", segment] .admin with
      jsonOverrides := some .requestedBy },
    rule .delete ["/ran-nf-oam/rapp-approval-policy/", segment] .admin,
    rule .post ["/ran-nf-oam/approval-subscriptions"] .admin,
    rule .delete ["/ran-nf-oam/approval-subscriptions/", segment] .admin,
    rule .post ["/dme/data-jobs"] .operator,
    rule .put ["/dme/data-jobs/", segment] .operator,
    rule .delete ["/dme/data-jobs/", segment] .operator,
    rule .post ["/dme/type-subscriptions"] .operator,
    rule .delete ["/dme/type-subscriptions/", segment] .operator,
    rule .post ["/dme/production-capabilities"] .admin,
    rule .delete ["/dme/production-capabilities"] .admin,
    rule .post ["/dme/offers"] .admin,
    rule .post ["/dme/offers/", segment, "/notify"] .admin,
    rule .delete ["/dme/offers/", segment] .admin,
    rule .post ["/dme/data-jobs/", segment, "/records"] .admin,
    { rule .post ["/dme/actions"] .operator with jsonOverrides := some .requestedBy },
    rule .post ["/sme/provider-registrations"] .admin,
    rule .delete ["/sme/provider-registrations/", segment] .admin,
    rule .post ["/sme/published-apis/v1/", segment, "/service-apis"] .admin,
    rule .delete ["/sme/published-apis/v1/", segment, "/service-apis/", segment] .admin,
    rule .post ["/sme/invoker-registrations"] .admin,
    rule .put ["/sme/invoker-registrations/", segment] .admin,
    rule .delete ["/sme/invoker-registrations/", segment] .admin,
    rule .put ["/sme/trusted-invokers/", segment] .admin,
    rule .post ["/sme/trusted-invokers/", segment, "/", oneOf ["update", "delete"]] .admin,
    rule .delete ["/sme/trusted-invokers/", segment] .admin,
    rule .post ["/sme/capif-events/v1/", segment, "/subscriptions"] .operator,
    rule .delete ["/sme/capif-events/v1/", segment, "/subscriptions/", segment] .operator,
    rule .post ["/nfo/deployments/", segment, "/", oneOf ["heal", "scale"]] .operator,
    rule .delete ["/nfo/deployments/", segment] .admin,
    rule .post ["/nfo/deployments/", segment, "/dms-notifications"] .admin,
    rule .post ["/focom/resources/provision"] .admin,
    rule .delete ["/focom/resources/", segment] .admin,
    rule .post ["/focom/alarms/ingest"] .admin,
    rule .post ["/focom/inventory/subscriptions"] .operator,
    rule .delete ["/focom/inventory/subscriptions/", segment] .operator,
    { rule .post ["/intent-service/intents"] .operator with jsonOverrides := some .rmioId },
    { rule .patch ["/intent-service/intents/", segment, "/admin-state"] .operator with
      jsonOverrides := some .requesterId },
    rule .delete ["/intent-service/intents/", segment] .admin,
    rule .post ["/intent-service/intents/", segment, "/negotiation-feedback"] .operator,
    rule .post ["/intent-service/intent-handling-functions"] .admin,
    rule .delete ["/intent-service/intent-handling-functions/", segment] .admin,
    rule .post ["/intent-service/intent-reports"] .admin,
    rule .post ["/intent-service/autonomy-dispatches"] .operator,
    rule .post ["/intent-service/autonomy-dispatches/", segment, "/resolve"] .operator,
    { rule .post ["/intent-service/autonomy-dispatches/", segment, "/reject"] .operator with
      jsonOverrides := some .rejectedBy },
    rule .post ["/mdaf/subscriptions"] .operator,
    rule .delete ["/mdaf/subscriptions/", segment] .operator,
    rule .post ["/mdaf/mda-requests"] .operator,
    rule .delete ["/mdaf/mda-requests/", segment] .operator,
    rule .post ["/ran-analytics/producers"] .admin,
    rule .post ["/mdaf/reports"] .admin,
    rule .post ["/so-smos/orders"] .operator,
    rule .post ["/so-smos/orders/", segment, "/cancel"] .operator,
    rule .post ["/sa-smos/monitors"] .operator,
    rule .post ["/sa-smos/monitors/", segment, "/", oneOf ["evaluate", "escalate"]] .operator,
    { rule .post ["/sa-smos/monitors/", segment, "/remedial-actions"] .operator with
      queryOverrides := some .requesterIsAdmin },
    rule .get ["/", oneOf (modules.map fun name => (name : Pattern)), maybe (of ["/",
      line])] .viewer]

structure Decision where
  allowed : Bool
  requiredRole : Option Role
  rule : Option Rule := none

def Rule.hits (rule : Rule) (method : Method) (path : Str) (query : Str → List Str) : Bool :=
  rule.method == method && (of rule.path).matchesLine path &&
    rule.queryMatch.all fun param => (query param.1.toList).contains param.2.toList

/-- `query` gives all the values of a parameter. -/
protected def decide (method : Method) (path : Str) (query : Str → List Str) (role : Role) :
    Decision :=
  match rules.find? fun rule => rule.hits method path query with
  | some rule => ⟨decide (rule.role.rank ≤ role.rank), some rule.role, some rule⟩
  | none => ⟨false, none, none⟩

def Granted (role : Role) (method : Method) (path : Str) (query : Str → List Str) : Prop :=
  (GuiBff.decide method path query role).allowed = true

section Fewer

variable {role : Role} {method : Method} {path : Str} {query less : Str → List Str}

theorem granted_iff : Granted role method path query ↔
    ∃ rule, rules.find? (fun rule => rule.hits method path query) = some rule ∧
      rule.role.rank ≤ role.rank := by
  rw [Granted, GuiBff.decide]
  cases rules.find? fun rule => rule.hits method path query with
  | none => simp
  | some rule => simp

def advancePath : List Pattern := ["/aimgf/models/", segment, "/advance"]

def advance : Rule := rule .post ["/aimgf/models/", segment, "/", oneOf ["advance",
  "inference-jobs"]] .operator

theorem queryMatch_rules : ∀ rule ∈ rules, rule.queryMatch = [] ∨
    rule.method = .post ∧ rule.path = advancePath ∧
      rule.role = .admin ∧ ∀ condition ∈ rule.queryMatch, condition.1 = "event" := by
  decide +kernel

theorem advance_mem : advance ∈ rules := by decide +kernel

theorem advance_hits {rule : Rule} (path_is : rule.path = advancePath)
    (method_is : rule.method = .post) (hits : rule.hits method path query = true) :
    advance.hits method path less = true := by
  rw [Rule.hits, Bool.and_eq_true, Bool.and_eq_true, method_is, path_is, beq_iff_eq] at hits
  obtain ⟨⟨rfl, matched⟩, -⟩ := hits
  have denotes : ∀ {text : Str}, (of advancePath).Denotes text →
      (of advance.path).Denotes text := by
    rintro _ ⟨front, _, rfl, is, id, _, rfl, named, rfl⟩
    exact ⟨front, _, rfl, is, id, _, rfl, named, "/".toList, "advance".toList, rfl, rfl, .inl rfl⟩
  have same : (of advance.path).matchesLine path = true := by
    rcases Pattern.matchesLine_iff.mp matched with whole | ⟨text, is, whole⟩
    · exact Pattern.matchesLine_iff.mpr (.inl (denotes whole))
    · exact Pattern.matchesLine_iff.mpr (.inr ⟨text, is, denotes whole⟩)
  rw [Rule.hits, same]
  rfl

theorem Granted.fewer (granted : Granted role method path query)
    (values : ∀ value ∈ less "event".toList, value ∈ query "event".toList) :
    Granted role method path less := by
  obtain ⟨found, first, rank⟩ := granted_iff.mp granted
  obtain ⟨hits, front, back, whole, before⟩ := List.find?_eq_some_iff_append.mp first
  have back_hits : ∀ rule ∈ rules, rule.hits method path less = true →
      rule.hits method path query = true := by
    intro rule mem hit
    rw [Rule.hits, Bool.and_eq_true] at hit ⊢
    refine ⟨hit.1, List.all_eq_true.mpr fun condition is => ?_⟩
    have key : condition.1 = "event" := by
      rcases queryMatch_rules rule mem with none | ⟨-, -, -, keys⟩
      · rw [none] at is
        cases is
      · exact keys condition is
    have has := List.all_eq_true.mp hit.2 condition is
    rw [key, List.contains_iff_mem] at has ⊢
    exact values _ has
  have mem : found ∈ rules := whole ▸ List.mem_append_right front List.mem_cons_self
  cases hit : found.hits method path less with
  | true =>
    refine granted_iff.mpr ⟨found, List.find?_eq_some_iff_append.mpr ⟨hit, front, back, whole, ?_⟩,
      rank⟩
    intro rule earlier
    have other := before rule earlier
    cases again : rule.hits method path less with
    | false => rfl
    | true =>
      rw [back_hits rule (whole ▸ List.mem_append_left _ earlier) again] at other
      cases other
  | false =>
    rcases queryMatch_rules found mem with none | ⟨method_is, path_is, admin, -⟩
    · rw [Rule.hits, none, List.all_nil] at hits hit
      rw [hits] at hit
      cases hit
    · have some := @advance_hits method path query less found path_is method_is hits
      cases other : rules.find? fun rule => rule.hits method path less with
      | none => exact absurd some (List.find?_eq_none.mp other advance advance_mem)
      | some rule =>
        refine granted_iff.mpr ⟨rule, other, ?_⟩
        rw [admin] at rank
        cases rule.role <;> simp only [Role.rank] at rank ⊢ <;> omega

end Fewer

end Smo.GuiBff
