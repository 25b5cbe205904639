import Smo.GuiBff.Rbac
import Smo.R1Termination.Routing

/-! The console's road to the SMO (`gui-bff/app/main.py`, `proxy`): the permission table decides about
the path that the BFF has decoded, and the gateway and the module read the forwarded URL again. The
table speaks of the request that is read exactly when that path is plain. -/
namespace Smo.GuiBff

open Percent (unquote)
open Url (HttpClient Method Plain isDots lastOnes queryParams valuesOf)

inductive Payload
  | object (fields : List (Str × Json.Value))
  | other (bytes : Str)

def forcedField : Str × Option Str → Str × Json.Value
  | (name, value) => (name, (value.map fun text => Json.Value.str (text.map Char.toNat)).getD .null)

inductive Outcome
  | refused (status : Nat) (title : String)
  | forwarded (path : Str) (params : List (Str × Str)) (body : Payload)

def Outcome.sent : Outcome → Option (Str × List (Str × Str))
  | refused _ _ => none
  | forwarded path params _ => some (path, params)

/-- `{**fields, **forced}` -/
def overrideFields (forced fields : List (Str × Json.Value)) : List (Str × Json.Value) :=
  fields.map (fun field => (field.1, (forced.lookup field.1).getD field.2)) ++
    forced.filter fun field => !(fields.map Prod.fst).contains field.1

def forcedParams (user : User) (rule : Rule) (params : List (Str × Str)) : List (Str × Str) :=
  match rule.queryOverrides with
  | none => params
  | some override =>
    params.filter (fun param => !((override.forced user).map Prod.fst).contains param.1) ++
      override.forced user

/-- `proxy` -/
def proxy (user : User) (method : Method) (fullPath query : Str) (body : Payload) : Outcome :=
  let path := '/' :: fullPath
  let sent := queryParams query
  let decision := GuiBff.decide method path (valuesOf sent) user.role
  match decision.allowed, decision.rule with
  | true, some rule =>
    let params := forcedParams user rule sent
    match rule.jsonOverrides, body with
    | none, body => .forwarded path params body
    | some override, .object fields =>
      .forwarded path params (.object (overrideFields ((override.forced user).map forcedField) fields))
    | some _, .other _ => .refused 400 "INVALID_BODY"
  | _, _ => .refused 403 "FORBIDDEN"

/-- A call from the browser, and what carries it: the clients of the BFF and of the gateway, and what
the gateway finds. -/
structure Call where
  user : User
  method : Method
  rawPath : Str
  rawQuery : Str
  body : Payload
  client : HttpClient
  gateway : HttpClient
  finding : R1Termination.Finding

structure Call.Forwarded (call : Call) (full : Str) (params : List (Str × Str)) (taken : Str) :
    Prop where
  arrived : Url.fullPath "/api/smo/".toList (unquote call.rawPath) = some full
  proxied : (proxy call.user call.method full call.rawQuery call.body).sent =
    some ('/' :: full, params)
  taken : ∃ wire, call.client.path ('/' :: full) = some wire ∧
    Url.fullPath ['/'] (unquote wire) = some taken

structure Call.Passed (call : Call) (taken : Str) (module path : Str) : Prop where
  forwarded : ∃ rest wire, R1Termination.proxy call.finding call.method taken =
      .forwarded module rest ∧ call.gateway.path ('/' :: rest) = some wire ∧
    path = module ++ Str.rstrip '/' (unquote wire)

def Call.gatewayQuery (call : Call) (params : List (Str × Str)) : List (Str × Str) :=
  queryParams (call.client.query params)

/-- The query as the module reads it: the gateway hands on the last value of each parameter. -/
def Call.moduleQuery (call : Call) (params : List (Str × Str)) : List (Str × Str) :=
  queryParams (call.gateway.query (lastOnes (call.gatewayQuery params)))

/-- A path that is the same at every hop: plain, without dot segments and without a slash at its
end. -/
structure Settled (path : Str) : Prop where
  plain : Plain path
  segments : (Str.split '/' path).any isDots = false
  ends : path.getLast? ≠ some '/'

section Reading

variable {call : Call} {full taken module path : Str} {params : List (Str × Str)}

theorem valuesOf_forced (user : User) (rule : Rule) (params : List (Str × Str)) :
    valuesOf (forcedParams user rule params) "event".toList = valuesOf params "event".toList := by
  unfold forcedParams
  split
  · rfl
  · next override _ =>
    have none : valuesOf (override.forced user) "event".toList = [] := by cases override <;> rfl
    have other : ∀ name, name = "event".toList →
        ((override.forced user).map Prod.fst).contains name = false := by
      rintro _ rfl
      cases override <;> rfl
    rw [valuesOf, List.filter_append, List.map_append]
    rw [valuesOf] at none
    rw [none, List.append_nil, List.filter_filter, valuesOf]
    congr 1
    refine List.filter_congr fun param _ => ?_
    cases is : param.1 == "event".toList with
    | false => rfl
    | true => rw [other _ (beq_iff_eq.mp is)]; rfl

theorem proxy_forwarded {user : User} {method : Method} {query : Str} {body : Payload}
    (forwarded : (proxy user method full query body).sent = some (path, params)) :
    Granted user.role method ('/' :: full) (valuesOf (queryParams query)) ∧
      ∃ rule, params = forcedParams user rule (queryParams query) := by
  unfold proxy at forwarded
  dsimp only at forwarded
  split at forwarded
  · next rule allowed _ =>
    refine ⟨allowed, rule, ?_⟩
    split at forwarded
    · cases forwarded
      rfl
    · cases forwarded
      rfl
    · cases forwarded
  · cases forwarded

theorem mem_lastOnes {param : Str × Str} (mem : param ∈ lastOnes params) :
    param.2 ∈ valuesOf params param.1 := by
  induction params with
  | nil => cases mem
  | cons first rest ih =>
    obtain ⟨name, value⟩ := first
    rw [lastOnes, List.mem_cons] at mem
    rw [valuesOf, List.filter_cons]
    rcases mem with rfl | later
    · rw [beq_self_eq_true, if_pos rfl, List.map_cons]
      cases last : (valuesOf rest name).getLast? with
      | none => exact List.mem_cons_self
      | some found => exact List.mem_cons_of_mem _ (List.mem_of_getLast? last)
    · have here := ih (List.mem_of_mem_filter later)
      split
      · exact List.mem_cons_of_mem _ here
      · exact here

theorem valuesOf_lastOnes {name value : Str} (mem : value ∈ valuesOf (lastOnes params) name) :
    value ∈ valuesOf params name := by
  obtain ⟨param, has, rfl⟩ := List.mem_map.mp mem
  obtain ⟨has, is⟩ := List.mem_filter.mp has
  rw [← beq_iff_eq.mp is]
  exact mem_lastOnes has

theorem routes_end : ∀ name ∈ R1Termination.routes, ('/' :: name.toList).getLast? ≠ some '/' := by
  decide +kernel

theorem taken_eq_iff (keeps : call.client.Keeps) (forwarded : call.Forwarded full params taken) :
    taken = full ↔ Plain ('/' :: full) ∧ (Str.split '/' ('/' :: full)).any isDots = false := by
  obtain ⟨wire, sent, took⟩ := forwarded.taken
  have same := Url.read_eq_iff keeps sent rfl
  have shorter := Url.read_length_le keeps sent rfl
  constructor
  · rintro rfl
    rcases (Url.fullPath_some took).2 with whole | whole
    · exact same.mp whole
    · rw [whole] at shorter
      simp only [List.length_append, List.length_cons, List.length_nil] at shorter
      omega
  · intro plain
    have line := (Url.fullPath_some forwarded.arrived).1
    rw [same.mpr plain] at took
    exact Option.some.inj (took.symm.trans (Url.fullPath_append line))

theorem path_of_plain (keeps : call.gateway.Keeps) (settled : Settled ('/' :: full))
    (passed : call.Passed full module path) : path = '/' :: full := by
  obtain ⟨rest, wire, forwarded, sent, rfl⟩ := passed.forwarded
  obtain ⟨named, -, taken, resolved, -⟩ := R1Termination.forwards_of_proxy forwarded
  have segments := R1Termination.segments_of_resolved resolved
  have same := Url.read_eq_iff keeps sent rfl
  rcases parts : Text.partition '/' full with ⟨first, _ | behind⟩
  · have absent := Text.partition_none parts
    rw [Text.partition_of_not_mem absent] at parts named
    rw [Text.partition_of_not_mem absent] at taken
    subst named taken
    rw [same.mpr ⟨R1Termination.plain_cons.mpr R1Termination.plain_nil, rfl⟩]
    exact List.append_nil _
  · obtain ⟨whole, -⟩ := Text.partition_some parts
    rw [parts] at named taken segments
    have last : ('/' :: behind).getLast? ≠ some '/' := by
      intro slash
      refine settled.ends ?_
      rw [whole, ← List.cons_append, List.getLast?_append, slash]
      rfl
    have unslashed : R1Termination.removeSlash behind = behind := by
      refine if_neg fun slash => last ?_
      cases behind with
      | nil => cases slash
      | cons c behind => rw [List.getLast?_cons_cons, slash]
    have plain : Plain ('/' :: behind) := by
      have all := settled.plain.tail
      rw [whole] at all
      exact all.suffix
    simp only [Option.getD_some, unslashed] at taken segments
    subst named taken
    rw [same.mpr ⟨plain, segments⟩, R1Termination.rstrip_of_last last, whole, List.cons_append]

theorem reads_iff_settled (keeps : call.client.Keeps) (keeps' : call.gateway.Keeps)
    (forwarded : call.Forwarded full params taken) (passed : call.Passed taken module path) :
    taken = full ∧ path = '/' :: full ↔ Settled ('/' :: full) := by
  have same := taken_eq_iff keeps forwarded
  constructor
  · rintro ⟨took, read⟩
    obtain ⟨plain, segments⟩ := same.mp took
    refine ⟨plain, segments, ?_⟩
    obtain ⟨rest, wire, proxied, -, is⟩ := passed.forwarded
    obtain ⟨-, ⟨name, known, rfl⟩, -⟩ := R1Termination.forwards_of_proxy proxied
    rw [← read, is, List.getLast?_append]
    cases last : (Str.rstrip '/' (unquote wire)).getLast? with
    | none => exact routes_end name known
    | some c =>
      rintro ⟨⟩
      have stripped := List.rdropWhile_last_not (· == '/') (unquote wire)
        (List.ne_nil_of_mem (List.mem_of_getLast? last))
      rw [List.getLast?_eq_some_getLast (List.ne_nil_of_mem (List.mem_of_getLast? last))] at last
      exact stripped (beq_iff_eq.mpr (Option.some.inj last))
  · intro settled
    have took := same.mpr ⟨settled.plain, settled.segments⟩
    subst took
    exact ⟨rfl, path_of_plain keeps' settled passed⟩

/-- For a forwarded call the gateway reads what the table decided about exactly when the path is
plain and has no dot segment, and the module behind it exactly when the path is settled; then the
table grants these readings to the person. -/
theorem decides_about_the_request (keeps : call.client.Keeps) (keeps' : call.gateway.Keeps)
    (forwarded : call.Forwarded full params taken) :
    (taken = full ↔ Plain ('/' :: full) ∧ (Str.split '/' ('/' :: full)).any isDots = false) ∧
      (Settled ('/' :: full) →
        Granted call.user.role call.method ('/' :: taken) (valuesOf (call.gatewayQuery params))) ∧
      ∀ module path, call.Passed taken module path →
        (taken = full ∧ path = '/' :: full ↔ Settled ('/' :: full)) ∧
          (Settled ('/' :: full) →
            Granted call.user.role call.method path (valuesOf (call.moduleQuery params))) := by
  have took := taken_eq_iff keeps forwarded
  obtain ⟨granted, rule, is⟩ := proxy_forwarded forwarded.proxied
  have atGateway : ∀ value ∈ valuesOf (call.gatewayQuery params) "event".toList,
      value ∈ valuesOf (queryParams call.rawQuery) "event".toList := by
    intro value mem
    rwa [Call.gatewayQuery, keeps.query, is, valuesOf_forced] at mem
  refine ⟨took, fun settled => ?_, fun module path passed => ?_⟩
  · rw [took.mpr ⟨settled.plain, settled.segments⟩]
    exact granted.fewer atGateway
  · have reads := reads_iff_settled keeps keeps' forwarded passed
    refine ⟨reads, fun settled => ?_⟩
    rw [(reads.mpr settled).2]
    refine granted.fewer fun value mem => ?_
    rw [Call.moduleQuery, keeps'.query] at mem
    exact atGateway value (valuesOf_lastOnes mem)

end Reading

section Example

def viewerCall (rawPath : String) : Call where
  user := ⟨"ann".toList, .viewer⟩
  method := .get
  rawPath := rawPath.toList
  rawQuery := []
  body := .other []
  client := Url.plainClient
  gateway := Url.plainClient
  finding :=
    { introspection := some (some ⟨"gui-bff".toList, .internal, none⟩)
      wait := none
      mode := .enforce
      enforced := true
      isKilled := fun _ => some false
      onBehalfOf := none }

theorem viewer_forwarded :
    (viewerCall "/api/smo/mlmr/models").Forwarded "mlmr/models".toList [] "mlmr/models".toList :=
  ⟨by decide +kernel, by decide +kernel, "/mlmr/models".toList, by decide +kernel,
    by decide +kernel⟩

/-- A viewer's read of the models is granted as the gateway reads it. -/
theorem models_granted :
    Granted .viewer .get "/mlmr/models".toList
      (valuesOf ((viewerCall "/api/smo/mlmr/models").gatewayQuery [])) :=
  (decides_about_the_request Url.plainClient_keeps Url.plainClient_keeps viewer_forwarded).2.1
    ⟨by decide +kernel, by decide +kernel, by decide⟩

/-- A viewer asks for `/aimgf/feature-groups/`, which the last rule grants; the module is asked for
`/feature-groups`, an operator's read. -/
theorem viewer_reads_feature_groups :
    (viewerCall "/api/smo/aimgf/feature-groups/").Forwarded "aimgf/feature-groups/".toList []
        "aimgf/feature-groups/".toList ∧
      (viewerCall "/api/smo/aimgf/feature-groups/").Passed "aimgf/feature-groups/".toList
        "/aimgf".toList "/aimgf/feature-groups".toList ∧
      ¬ Granted .viewer .get "/aimgf/feature-groups".toList
        (valuesOf ((viewerCall "/api/smo/aimgf/feature-groups/").moduleQuery [])) := by
  refine ⟨⟨by decide +kernel, by decide +kernel, "/aimgf/feature-groups/".toList,
    by decide +kernel, by decide +kernel⟩, ⟨"feature-groups".toList, "/feature-groups".toList,
    by decide +kernel, by decide +kernel, by decide +kernel⟩, ?_⟩
  rw [Granted]
  decide +kernel

end Example

end Smo.GuiBff
