import Smo.Lib.Json.Python
import Smo.Shared.Str

/-! Which services an invoker sees (`sme/app/main.py`): discovery, the scope of a token and the events
of service changes. -/
namespace Smo.Sme.Discovery

open Json (Value)

abbrev Object := List (Json.Text × Value)

structure ServiceAuthzPolicy where
  allowedConsumers : Option (List Str) := none
  gatesDiscoveryVisibility : Bool := true

structure ServiceProfile where
  serviceId : Nat
  serviceName : Str
  producerId : Str
  endpoint : Str
  version : Str
  fullApiVersions : Option (List Str) := none
  serviceCapabilities : Object := []
  aefProfiles : List Object := []
  apiSuppFeats : Option Str := none
  shareableInfo : Option Object := none
  authzPolicy : Option ServiceAuthzPolicy := none

structure ServiceEventSubscription where
  subscriptionId : Nat
  subscriberId : Str
  eventTypes : List Str
  callbackUri : Str
  apiIds : List Str := []
  apiInvokerIds : List Str := []
  aefIds : List Str := []

inductive Role
  | internal
  | rapp
  deriving DecidableEq

structure InvokerRegistration where
  apiInvokerId : Str
  onboardingSecretHash : Str
  kind : Role

structure Registry where
  services : List ServiceProfile := []
  subscriptions : List ServiceEventSubscription := []
  invokers : List InvokerRegistration := []
  providers : List Str := []

inductive Raised
  | raised

section Texts

def textOf (text : Str) : Json.Text := text.map Char.toNat

/-- `value == text`. -/
def isText (text : Str) : Value → Bool
  | .str value => value = textOf text
  | _ => false

/-- `bool(text)` of a query parameter that may be missing. -/
def given (text : Option Str) : Option Str := text.filter (· ≠ [])

/-- `value.get(name, absent)`; only an object has it. -/
def get (name : String) (absent : Value) : Value → Except Raised Value
  | .obj entries => .ok ((entries.lookup (textOf name.toList)).getD absent)
  | _ => .error .raised

def items : Value → Except Raised (List Value)
  | .arr values => .ok values
  | .obj entries => .ok (entries.map fun entry => .str entry.1)
  | .str text => .ok (text.map fun point => .str [point])
  | _ => .error .raised

/-- `any(check(item) for item in found)`. -/
def anyOf {α : Type} (check : α → Except Raised Bool) : List α → Except Raised Bool
  | [] => .ok false
  | item :: rest => do if ← check item then return true else anyOf check rest

end Texts

section Gate

/-- `_visible_to`. -/
def visibleTo (service : ServiceProfile) (apiInvokerId : Str) : Bool :=
  match service.authzPolicy with
  | none => true
  | some policy =>
    !policy.gatesDiscoveryVisibility || policy.allowedConsumers.all (· = []) ||
      policy.allowedConsumers.any (apiInvokerId ∈ ·)

structure Query where
  apiName : Option Str := none
  apiVersion : Option Str := none
  aefId : Option Str := none
  protocol : Option Str := none
  dataFormat : Option Str := none
  commType : Option Str := none

def fieldMatches (profile : Object) (name : String) (wanted : Option Str) : Bool :=
  (given wanted).all fun text => ((profile.lookup (textOf name.toList)).any (isText text))

def hasCommType (commType : Str) (resource : Value) : Except Raised Bool := do
  return isText commType (← get "commType" .null resource)

def versionHas (commType : Str) (version : Value) : Except Raised Bool := do
  anyOf (hasCommType commType) (← items (← get "resources" (.arr []) version))

def profileMatches (query : Query) (profile : Object) : Except Raised Bool :=
  if fieldMatches profile "aefId" query.aefId && fieldMatches profile "protocol" query.protocol &&
      fieldMatches profile "dataFormat" query.dataFormat then
    match given query.commType with
    | none => .ok true
    | some commType => do
      anyOf (versionHas commType) (← items (← get "versions" (.arr []) (.obj profile)))
  else .ok false

/-- `_matches_aef_filters`. -/
def matchesAefFilters (query : Query) (service : ServiceProfile) : Except Raised Bool :=
  if (given query.aefId).isNone && (given query.protocol).isNone && (given query.dataFormat).isNone &&
      (given query.commType).isNone then .ok true
  else anyOf (profileMatches query) service.aefProfiles

/-- `_service_view`. -/
structure View where
  serviceId : Nat
  serviceName : Str
  producerId : Str
  endpoint : Str
  version : Str
  fullApiVersions : List Str
  serviceCapabilities : Object
  aefProfiles : List Object
  apiSuppFeats : Option Str
  shareableInfo : Option Object

def serviceView (service : ServiceProfile) : View where
  serviceId := service.serviceId
  serviceName := service.serviceName
  producerId := service.producerId
  endpoint := service.endpoint
  version := service.version
  fullApiVersions := service.fullApiVersions.getD []
  serviceCapabilities := service.serviceCapabilities
  aefProfiles := service.aefProfiles
  apiSuppFeats := service.apiSuppFeats
  shareableInfo := service.shareableInfo

def selected (query : Query) (service : ServiceProfile) : Bool :=
  (given query.apiName).all (service.serviceName = ·) && (given query.apiVersion).all (service.version = ·)

def passing (apiInvokerId : Str) (query : Query) :
    List ServiceProfile → Except Raised (List ServiceProfile)
  | [] => .ok []
  | service :: rest => do
    let matching ← matchesAefFilters query service
    let later ← passing apiInvokerId query rest
    return if matching && visibleTo service apiInvokerId then service :: later else later

/-- `discover_services`. -/
def discoverServices (registry : Registry) (apiInvokerId : Str) (query : Query) :
    Except Raised (List View) := do
  return (← passing apiInvokerId query (registry.services.filter (selected query))).map serviceView

end Gate

section Scopes

/-- What the service is given: `repr` of a text, the order of `sorted`, which raises on values that do
not compare, whether the role enforcement is `enforce`, and how a client proves who it is. -/
structure Site where
  repr : Str → Str
  sorted : List Value → Except Raised (List Value)
  enforce : Bool
  verifySecret : Str → Str → Bool
  assertionProblem : InvokerRegistration → Str → Option Str

/-- `bool(value)` and a place in a set, which lists and objects do not have. -/
def hashed (value : Value) : Except Raised (Option Value) :=
  if value.truthy then
    match value with
    | .arr _ | .obj _ => .error .raised
    | value => .ok (some value)
  else .ok none

/-- `_aef_ids`. -/
def aefIdsFrom : List Object → Except Raised (List Value)
  | [] => .ok []
  | profile :: rest => do
    let first ← hashed ((profile.lookup (textOf "aefId".toList)).getD .null)
    return first.toList ++ (← aefIdsFrom rest)

def aefIds (service : ServiceProfile) : Except Raised (List Value) := aefIdsFrom service.aefProfiles

def internalOnly : List Str := ["smo-internal".toList, "smo-gui".toList]

def internalScopes : List Str := internalOnly ++ ["smo-rapp".toList]

def capifScopePrefix : Str := "3gpp#".toList

def notPublished (site : Site) (name : Str) : Str :=
  "API ".toList ++ site.repr name ++ " is not published".toList

def named (registry : Registry) (name : Str) : Option ServiceProfile :=
  registry.services.find? (·.serviceName = name)

def checkName (site : Site) (registry : Registry) (apiInvokerId aefId name : Str) :
    Except Raised (Option Str) :=
  match (named registry name).filter (visibleTo · apiInvokerId) with
  | none => .ok (some (notPublished site name))
  | some service => do
    return if (← aefIds service).any (isText aefId) then none
    else some ("API ".toList ++ site.repr name ++ " is not exposed by AEF ".toList ++ site.repr aefId)

def firstProblem (check : Str → Except Raised (Option Str)) : List Str → Except Raised (Option Str)
  | [] => .ok none
  | text :: rest => do
    match ← check text with
    | some problem => return some problem
    | none => firstProblem check rest

def checkPart (site : Site) (registry : Registry) (apiInvokerId part : Str) :
    Except Raised (Option Str) :=
  let (aefId, listed) := Text.partition ':' part
  let names := (Str.split ',' (listed.getD [])).filter (· ≠ [])
  if listed.isNone || aefId = [] || names = [] then
    .ok (some ("malformed scope entry ".toList ++ site.repr part ++
      ", expected aefId:apiName[,apiName]".toList))
  else firstProblem (checkName site registry apiInvokerId aefId) names

/-- `_check_scope`. -/
def checkScope (site : Site) (registry : Registry) (scope : Option Str) (apiInvokerId : Str)
    (kind : Role) : Except Raised (Option Str) :=
  if scope.any (· ∈ internalOnly) && kind ≠ .internal then
    .ok (if site.enforce then
      some ("scope ".toList ++ site.repr (scope.getD []) ++
        " is for SMO modules: this invoker did not enroll".toList)
    else none)
  else
    match given scope with
    | none => .ok none
    | some scope =>
      if scope ∈ internalScopes then .ok none
      else if !capifScopePrefix.isPrefixOf scope then
        .ok (some ("scope must be ['smo-gui', 'smo-internal', 'smo-rapp'] or 3gpp#aefId:apiName[,apiName][;aefId:apiName]".toList))
      else firstProblem (checkPart site registry apiInvokerId)
        (Str.split ';' (scope.drop capifScopePrefix.length))

structure TokenRequest where
  grantType : Str
  clientId : Str
  clientSecret : Option Str := none
  clientAssertion : Option Str := none
  scope : Option Str := none

inductive TokenAnswer
  | refused (error : String) (description : Option Str)
  | granted (scope : Option Str)

def credentialProblem (site : Site) (invoker : InvokerRegistration) (body : TokenRequest) :
    Option TokenAnswer :=
  match body.clientAssertion with
  | some assertion =>
    (site.assertionProblem invoker assertion).map fun problem => .refused "invalid_client" (some problem)
  | none =>
    if site.verifySecret (body.clientSecret.getD []) invoker.onboardingSecretHash then none
    else some (.refused "unauthorized_client" (some "onboarding secret not valid".toList))

/-- `issue_access_token`. -/
def issueAccessToken (site : Site) (registry : Registry) (body : TokenRequest) :
    Except Raised TokenAnswer :=
  if body.grantType ≠ "client_credentials".toList then .ok (.refused "unsupported_grant_type" none)
  else if body.clientSecret.isSome && body.clientAssertion.isSome then
    .ok (.refused "invalid_request" (some "use client_secret or client_assertion, not both".toList))
  else
    match registry.invokers.find? (·.apiInvokerId = body.clientId) with
    | none => .ok (.refused "invalid_client" (some "invoker not registered".toList))
    | some invoker =>
      match credentialProblem site invoker body with
      | some refusal => .ok refusal
      | none => do
        match ← checkScope site registry body.scope invoker.apiInvokerId invoker.kind with
        | some problem => return .refused "invalid_scope" (some problem)
        | none => return .granted body.scope

end Scopes

section Events

structure Event where
  subscriberId : Str
  subscriptionId : Nat
  callbackUri : Str
  eventType : Str
  serviceId : Nat
  aefIds : List Value

/-- `_filters_match`, for an event of a service whose id has this text. -/
def filtersMatch (subscription : ServiceEventSubscription) (apiId : Str) (carried : List Value) : Bool :=
  (subscription.apiIds = [] || apiId ∈ subscription.apiIds) && subscription.apiInvokerIds = [] &&
    (subscription.aefIds = [] || subscription.aefIds.any fun wanted => carried.any (isText wanted))

/-- `notify_service_change`: the rows queued, for a service of this id text. -/
def notifyServiceChange (site : Site) (idText : Nat → Str) (registry : Registry)
    (service : ServiceProfile) (eventType : Str) : Except Raised (List Event) := do
  let carried ← site.sorted (← aefIds service)
  return (registry.subscriptions.filter fun subscription =>
      eventType ∈ subscription.eventTypes &&
        filtersMatch subscription (idText service.serviceId) carried &&
        visibleTo service subscription.subscriberId).map fun subscription => {
    subscriberId := subscription.subscriberId, subscriptionId := subscription.subscriptionId
    callbackUri := subscription.callbackUri, eventType, serviceId := service.serviceId
    aefIds := carried }

structure ServiceRegistration where
  serviceName : Str
  endpoint : Str
  version : Str
  fullApiVersions : List Str := []
  serviceCapabilities : Object := []
  allowedConsumers : List Str := []
  aefProfiles : List Object := []
  apiSuppFeats : Option Str := none
  shareableInfo : Option Object := none

inductive Refusal
  | apfNotRegistered
  | serviceNameConflict
  | raised

/-- The row of a registration, over the row that has its name or with an id drawn for it. -/
def written (apfId : Str) (body : ServiceRegistration) (drawn : Nat) (existing : Option ServiceProfile) :
    ServiceProfile where
  serviceId := (existing.map (·.serviceId)).getD drawn
  serviceName := body.serviceName
  producerId := apfId
  endpoint := body.endpoint
  version := body.version
  fullApiVersions := some body.fullApiVersions
  serviceCapabilities := body.serviceCapabilities
  aefProfiles := body.aefProfiles
  apiSuppFeats := body.apiSuppFeats
  shareableInfo := body.shareableInfo
  authzPolicy := some {
    allowedConsumers := some body.allowedConsumers
    gatesDiscoveryVisibility :=
      ((existing.bind (·.authzPolicy)).map (·.gatesDiscoveryVisibility)).getD true }

/-- The events `register_service` queues. -/
def registerService (site : Site) (idText : Nat → Str) (registry : Registry) (apfId : Str)
    (body : ServiceRegistration) (drawn : Nat) : Except Refusal (List Event) :=
  if apfId ∉ registry.providers then .error .apfNotRegistered
  else
    let existing := named registry body.serviceName
    if existing.any (·.producerId ≠ apfId) then .error .serviceNameConflict
    else
      let event := if existing.isSome then "SERVICE_API_UPDATE" else "SERVICE_API_AVAILABLE"
      match notifyServiceChange site idText registry (written apfId body drawn existing) event.toList with
      | .ok events => .ok events
      | .error _ => .error .raised

/-- The events `deregister_service` queues. -/
def deregisterService (site : Site) (idText : Nat → Str) (registry : Registry) (apfId : Str)
    (serviceId : Nat) : Except Raised (List Event) :=
  match (registry.services.find? (·.serviceId = serviceId)).filter (·.producerId = apfId) with
  | none => .ok []
  | some service => notifyServiceChange site idText registry service "SERVICE_API_UNAVAILABLE".toList

end Events

end Smo.Sme.Discovery
