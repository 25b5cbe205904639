import Mathlib.Data.List.Nodup
import Smo.Sme.Discovery

/-! What an invoker learns of services hidden from it: scopes and events tell nothing, and discovery
tells of one whose profiles make the filters raise, since they are asked before the gate. -/
namespace Smo.Sme.Discovery

section Agreement

/-- Two registries with the same services as far as one invoker sees them, and the same clients; ids
and names are keys. -/
structure SameButHidden (apiInvokerId : Str) (s s' : Registry) : Prop where
  services : s.services.filter (visibleTo · apiInvokerId) =
    s'.services.filter (visibleTo · apiInvokerId)
  subscriptions : s.subscriptions = s'.subscriptions
  invokers : s.invokers = s'.invokers
  providers : s.providers = s'.providers
  ids : (s.services.map (·.serviceId)).Nodup ∧ (s'.services.map (·.serviceId)).Nodup
  names : (s.services.map (·.serviceName)).Nodup ∧ (s'.services.map (·.serviceName)).Nodup

def NoneHidden (apiInvokerId : Str) (s : Registry) (which : ServiceProfile → Prop) : Prop :=
  ∀ service ∈ s.services, which service → visibleTo service apiInvokerId = true

structure SeesSame (site : Site) (idText : Nat → Str) (apiInvokerId : Str) (s s' : Registry) :
    Prop where
  discovery : ∀ query, discoverServices s apiInvokerId query = discoverServices s' apiInvokerId query
  tokens : ∀ body : TokenRequest, body.clientId = apiInvokerId →
    issueAccessToken site s body = issueAccessToken site s' body
  registered : ∀ apfId body drawn, NoneHidden apiInvokerId s (·.serviceName = body.serviceName) →
    NoneHidden apiInvokerId s' (·.serviceName = body.serviceName) →
    registerService site idText s apfId body drawn = registerService site idText s' apfId body drawn
  deregistered : ∀ apfId serviceId, NoneHidden apiInvokerId s (·.serviceId = serviceId) →
    NoneHidden apiInvokerId s' (·.serviceId = serviceId) →
    deregisterService site idText s apfId serviceId = deregisterService site idText s' apfId serviceId

def Raises (query : Query) (service : ServiceProfile) : Prop :=
  selected query service = true ∧ matchesAefFilters query service = .error .raised

def SeenRaises (apiInvokerId : Str) (query : Query) (s : Registry) : Prop :=
  ∃ service ∈ s.services, visibleTo service apiInvokerId = true ∧ Raises query service

def HiddenRaises (apiInvokerId : Str) (query : Query) (s : Registry) : Prop :=
  ∃ service ∈ s.services, visibleTo service apiInvokerId = false ∧ Raises query service

end Agreement

section Lists

variable {α : Type} {p q : α → Bool} {rows rows' : List α}

theorem find?_kept (same : ∀ row ∈ rows, ∀ other ∈ rows, p row = true → p other = true →
    q row = q other) : (rows.find? p).filter q = (rows.filter q).find? p := by
  induction rows with
  | nil => rfl
  | cons row rest ih =>
    have later := ih fun a inA b inB =>
      same a (List.mem_cons_of_mem _ inA) b (List.mem_cons_of_mem _ inB)
    cases matching : p row with
    | false =>
      rw [List.find?_cons_of_neg (by simp [matching]), later]
      cases kept : q row with
      | false => rw [List.filter_cons_of_neg (by simp [kept])]
      | true =>
        rw [List.filter_cons_of_pos kept, List.find?_cons_of_neg (by simp [matching])]
    | true =>
      rw [List.find?_cons_of_pos matching]
      cases kept : q row with
      | true => rw [List.filter_cons_of_pos kept, List.find?_cons_of_pos matching,
          Option.filter_some, if_pos kept]
      | false =>
        rw [List.filter_cons_of_neg (by simp [kept]), Option.filter_some, if_neg (by simp [kept])]
        symm
        rw [List.find?_eq_none]
        intro other mem found
        obtain ⟨inRest, keptOther⟩ := List.mem_filter.mp mem
        have equal := same row List.mem_cons_self other (List.mem_cons_of_mem _ inRest) matching found
        rw [kept, keptOther] at equal
        cases equal

theorem kept_of_key {κ : Type} [DecidableEq κ] {key : α → κ} (distinct : (rows.map key).Nodup)
    (k : κ) : ∀ row ∈ rows, ∀ other ∈ rows, decide (key row = k) = true →
      decide (key other = k) = true → q row = q other := by
  intro row mem other mem' is is'
  have equal := List.inj_on_of_nodup_map distinct mem mem'
    ((of_decide_eq_true is).trans (of_decide_eq_true is').symm)
  rw [equal]

theorem found_same {κ : Type} [DecidableEq κ] {key : α → κ} (distinct : (rows.map key).Nodup)
    (distinct' : (rows'.map key).Nodup) (same : rows.filter q = rows'.filter q) (k : κ) :
    (rows.find? (key · = k)).filter q = (rows'.find? (key · = k)).filter q := by
  rw [find?_kept (kept_of_key distinct k), find?_kept (kept_of_key distinct' k), same]

theorem filter_found (kept : ∀ row ∈ rows, p row = true → q row = true) :
    (rows.find? p).filter q = rows.find? p := by
  cases found : rows.find? p with
  | none => rfl
  | some row =>
    rw [Option.filter_some, if_pos (kept row (List.mem_of_find?_eq_some found)
      (List.find?_some found))]

end Lists

section Tokens

variable {site : Site} {idText : Nat → Str} {apiInvokerId : Str} {s s' : Registry}

theorem checkScope_same (same : SameButHidden apiInvokerId s s') (scope : Option Str) (kind : Role) :
    checkScope site s scope apiInvokerId kind = checkScope site s' scope apiInvokerId kind := by
  have names : checkName site s apiInvokerId = checkName site s' apiInvokerId := by
    funext aefId name
    rw [checkName, checkName, named, named, found_same same.names.1 same.names.2 same.services]
  have parts : checkPart site s apiInvokerId = checkPart site s' apiInvokerId := by
    funext part
    simp only [checkPart, names]
  simp only [checkScope, parts]

theorem token_same (same : SameButHidden apiInvokerId s s') (body : TokenRequest)
    (by_ : body.clientId = apiInvokerId) :
    issueAccessToken site s body = issueAccessToken site s' body := by
  unfold issueAccessToken
  rw [same.invokers]
  split
  · rfl
  split
  · rfl
  split
  · rfl
  next invoker found =>
    have is : invoker.apiInvokerId = apiInvokerId := by
      simpa [by_] using List.find?_some found
    rw [is, checkScope_same same]

theorem notify_same (same : SameButHidden apiInvokerId s s') (service : ServiceProfile)
    (eventType : Str) : notifyServiceChange site idText s service eventType =
      notifyServiceChange site idText s' service eventType := by
  rw [notifyServiceChange, notifyServiceChange, same.subscriptions]

theorem register_same (same : SameButHidden apiInvokerId s s') (apfId : Str)
    (body : ServiceRegistration) (drawn : Nat)
    (seen : NoneHidden apiInvokerId s (·.serviceName = body.serviceName))
    (seen' : NoneHidden apiInvokerId s' (·.serviceName = body.serviceName)) :
    registerService site idText s apfId body drawn =
      registerService site idText s' apfId body drawn := by
  have existing : named s body.serviceName = named s' body.serviceName := by
    have found := found_same same.names.1 same.names.2 same.services body.serviceName
    rwa [filter_found fun row mem is => seen row mem (of_decide_eq_true is),
      filter_found fun row mem is => seen' row mem (of_decide_eq_true is)] at found
  unfold registerService
  rw [same.providers, existing]
  simp only [notify_same same]

theorem deregister_same (same : SameButHidden apiInvokerId s s') (apfId : Str) (serviceId : Nat)
    (seen : NoneHidden apiInvokerId s (·.serviceId = serviceId))
    (seen' : NoneHidden apiInvokerId s' (·.serviceId = serviceId)) :
    deregisterService site idText s apfId serviceId =
      deregisterService site idText s' apfId serviceId := by
  have found := found_same same.ids.1 same.ids.2 same.services serviceId
  rw [filter_found fun row mem is => seen row mem (of_decide_eq_true is),
    filter_found fun row mem is => seen' row mem (of_decide_eq_true is)] at found
  unfold deregisterService
  rw [found]
  simp only [notify_same same]

end Tokens

section Queries

variable {apiInvokerId : Str} {s s' : Registry} {query : Query} {rows : List ServiceProfile}

def found (query : Query) (service : ServiceProfile) : Bool :=
  match matchesAefFilters query service with
  | .ok matching => matching
  | .error _ => false

theorem passing_raises (raises : ∃ service ∈ rows, matchesAefFilters query service = .error .raised) :
    passing apiInvokerId query rows = .error .raised := by
  induction rows with
  | nil =>
    obtain ⟨_, mem, -⟩ := raises
    cases mem
  | cons service rest ih =>
    unfold passing
    cases first : matchesAefFilters query service with
    | error exc => rfl
    | ok matching =>
      obtain ⟨other, mem, raised⟩ := raises
      rcases List.mem_cons.mp mem with rfl | later
      · rw [first] at raised
        cases raised
      · rw [ih ⟨other, later, raised⟩]
        rfl

theorem passing_found (calm : ∀ service ∈ rows, matchesAefFilters query service ≠ .error .raised) :
    passing apiInvokerId query rows =
      .ok (rows.filter fun service => found query service && visibleTo service apiInvokerId) := by
  induction rows with
  | nil => rfl
  | cons service rest ih =>
    unfold passing
    rw [ih fun other mem => calm other (List.mem_cons_of_mem _ mem), List.filter_cons]
    cases first : matchesAefFilters query service with
    | error exc => exact absurd first (calm service List.mem_cons_self)
    | ok matching => simp [found, first, bind, Except.bind, pure, Except.pure, apply_ite]

def answer (apiInvokerId : Str) (query : Query) (s : Registry) : List View :=
  ((s.services.filter (visibleTo · apiInvokerId)).filter fun service =>
    selected query service && found query service).map serviceView

theorem discover_raises (raises : SeenRaises apiInvokerId query s ∨ HiddenRaises apiInvokerId query s) :
    discoverServices s apiInvokerId query = .error .raised := by
  obtain ⟨service, mem, selects, raised⟩ : ∃ service ∈ s.services, Raises query service := by
    rcases raises with ⟨service, mem, -, raised⟩ | ⟨service, mem, -, raised⟩
    · exact ⟨service, mem, raised⟩
    · exact ⟨service, mem, raised⟩
  rw [discoverServices, passing_raises ⟨service, List.mem_filter.mpr ⟨mem, selects⟩, raised⟩]
  rfl

theorem discover_answers (seen : ¬SeenRaises apiInvokerId query s)
    (hidden : ¬HiddenRaises apiInvokerId query s) :
    discoverServices s apiInvokerId query = .ok (answer apiInvokerId query s) := by
  have calm : ∀ service ∈ s.services.filter (selected query),
      matchesAefFilters query service ≠ .error .raised := by
    intro service mem raised
    obtain ⟨inside, selects⟩ := List.mem_filter.mp mem
    cases visible : visibleTo service apiInvokerId with
    | true => exact seen ⟨service, inside, visible, selects, raised⟩
    | false => exact hidden ⟨service, inside, visible, selects, raised⟩
  rw [discoverServices, passing_found calm, answer, List.filter_filter, List.filter_filter]
  refine congrArg (fun rows => Except.ok (rows.map serviceView)) (List.filter_congr fun service _ => ?_)
  cases selected query service <;> cases found query service <;>
    cases visibleTo service apiInvokerId <;> rfl

theorem seenRaises_same (same : SameButHidden apiInvokerId s s') :
    SeenRaises apiInvokerId query s ↔ SeenRaises apiInvokerId query s' := by
  have members (service : ServiceProfile) :
      service ∈ s.services ∧ visibleTo service apiInvokerId = true ↔
        service ∈ s'.services ∧ visibleTo service apiInvokerId = true := by
    have kept := congrArg (service ∈ ·) same.services
    simpa only [List.mem_filter, eq_iff_iff] using kept
  constructor
  · rintro ⟨service, mem, visible, raised⟩
    obtain ⟨mem', -⟩ := (members service).mp ⟨mem, visible⟩
    exact ⟨service, mem', visible, raised⟩
  · rintro ⟨service, mem, visible, raised⟩
    obtain ⟨mem', -⟩ := (members service).mpr ⟨mem, visible⟩
    exact ⟨service, mem', visible, raised⟩

theorem discover_same_iff (same : SameButHidden apiInvokerId s s') :
    discoverServices s apiInvokerId query = discoverServices s' apiInvokerId query ↔
      SeenRaises apiInvokerId query s ∨
        (HiddenRaises apiInvokerId query s ↔ HiddenRaises apiInvokerId query s') := by
  by_cases seen : SeenRaises apiInvokerId query s
  · have seen' := (seenRaises_same same).mp seen
    rw [discover_raises (.inl seen), discover_raises (.inl seen')]
    exact iff_of_true rfl (.inl seen)
  have seen' : ¬SeenRaises apiInvokerId query s' := fun raised =>
    seen ((seenRaises_same same).mpr raised)
  have answers : answer apiInvokerId query s = answer apiInvokerId query s' := by
    rw [answer, answer, same.services]
  by_cases hidden : HiddenRaises apiInvokerId query s
  · by_cases hidden' : HiddenRaises apiInvokerId query s'
    · rw [discover_raises (.inr hidden), discover_raises (.inr hidden')]
      exact iff_of_true rfl (.inr (iff_of_true hidden hidden'))
    · rw [discover_raises (.inr hidden), discover_answers seen' hidden']
      simp [seen, hidden, hidden']
  · by_cases hidden' : HiddenRaises apiInvokerId query s'
    · rw [discover_answers seen hidden, discover_raises (.inr hidden')]
      simp [seen, hidden, hidden']
    · rw [discover_answers seen hidden, discover_answers seen' hidden', answers]
      exact iff_of_true rfl (.inr (iff_of_false hidden hidden'))

section WellFormed

/-- A list of objects, or nothing, under a name of an object; and something for each of them. -/
def ListOfObjects (name : String) (each : Object → Prop) (entries : Object) : Prop :=
  ∃ values, (entries.lookup (textOf name.toList)).getD (.arr []) = .arr values ∧
    ∀ value ∈ values, ∃ inner, value = .obj inner ∧ each inner

def WellFormed (profile : Object) : Prop :=
  ListOfObjects "versions" (ListOfObjects "resources" fun _ => True) profile

theorem anyOf_answers {α : Type} {check : α → Except Raised Bool} {values : List α}
    (answers : ∀ value ∈ values, ∃ holds, check value = .ok holds) :
    ∃ holds, anyOf check values = .ok holds := by
  induction values with
  | nil => exact ⟨false, rfl⟩
  | cons value rest ih =>
    obtain ⟨first, is⟩ := answers value List.mem_cons_self
    obtain ⟨later, isLater⟩ := ih fun other mem => answers other (List.mem_cons_of_mem _ mem)
    cases first with
    | true => exact ⟨true, by simp [anyOf, is, bind, Except.bind, pure, Except.pure]⟩
    | false => exact ⟨later, by simp [anyOf, is, isLater, bind, Except.bind]⟩

theorem versionHas_answers {commType : Str} {version : Object}
    (formed : ListOfObjects "resources" (fun _ => True) version) :
    ∃ holds, versionHas commType (.obj version) = .ok holds := by
  obtain ⟨resources, listed, objects⟩ := formed
  have each : ∀ resource ∈ resources, ∃ holds, hasCommType commType resource = .ok holds := by
    intro resource mem
    obtain ⟨inner, rfl, -⟩ := objects resource mem
    exact ⟨_, rfl⟩
  obtain ⟨holds, is⟩ := anyOf_answers each
  refine ⟨holds, ?_⟩
  simp only [versionHas, get, listed, items, bind, Except.bind]
  exact is

theorem not_raises {service : ServiceProfile} (formed : ∀ profile ∈ service.aefProfiles, WellFormed profile) :
    ¬Raises query service := by
  have each : ∀ profile ∈ service.aefProfiles, ∃ holds, profileMatches query profile = .ok holds := by
    intro profile mem
    obtain ⟨versions, listed, objects⟩ := formed profile mem
    unfold profileMatches
    split
    · cases given query.commType with
      | none => exact ⟨true, rfl⟩
      | some commType =>
        have inner : ∀ version ∈ versions, ∃ holds, versionHas commType version = .ok holds := by
          intro version mem
          obtain ⟨entries, rfl, formed⟩ := objects version mem
          exact versionHas_answers formed
        obtain ⟨holds, is⟩ := anyOf_answers inner
        refine ⟨holds, ?_⟩
        simp only [get, listed, items, bind, Except.bind]
        exact is
    · exact ⟨false, rfl⟩
  rintro ⟨-, raised⟩
  obtain ⟨holds, is⟩ := anyOf_answers each
  unfold matchesAefFilters at raised
  split at raised
  · cases raised
  · rw [is] at raised
    cases raised

end WellFormed

/-- An invoker is told the same by two registries that differ in what is hidden from it exactly when
no query raises on what is hidden in one of them only. -/
theorem hidden_unseen_iff (site : Site) (idText : Nat → Str)
    (same : SameButHidden apiInvokerId s s') :
    SeesSame site idText apiInvokerId s s' ↔ ∀ query, SeenRaises apiInvokerId query s ∨
      (HiddenRaises apiInvokerId query s ↔ HiddenRaises apiInvokerId query s') := by
  constructor
  · exact fun sees query => (discover_same_iff same).mp (sees.discovery query)
  · intro alike
    exact ⟨fun query => (discover_same_iff same).mpr (alike query), token_same same,
      register_same same, deregister_same same⟩

/-- A service for `rapp-2` alone. -/
def secret (profiles : List Object) : ServiceProfile where
  serviceId := 1
  serviceName := "secret".toList
  producerId := "producer".toList
  endpoint := "http://producer".toList
  version := "1".toList
  aefProfiles := profiles
  authzPolicy := some { allowedConsumers := some ["rapp-2".toList] }

theorem secret_hidden (profiles : List Object) :
    SameButHidden "rapp-1".toList { services := [secret profiles] } {} := by
  refine ⟨?_, rfl, rfl, rfl, ⟨by simp, by simp⟩, ⟨by simp, by simp⟩⟩
  have hidden : visibleTo (secret profiles) "rapp-1".toList = false := by
    change (!true || false || decide ("rapp-1".toList ∈ ["rapp-2".toList])) = false
    decide
  rw [List.filter_cons_of_neg (by rw [hidden]; decide)]

def plainSite : Site where
  repr := id
  sorted := .ok
  enforce := true
  verifySecret := fun secret hash => secret = hash
  assertionProblem := fun _ _ => none

/-- A hidden service whose profile names no versions is not noticed. -/
theorem plain_unseen : SeesSame plainSite (fun id => Nat.toDigits 10 id) "rapp-1".toList
    { services := [secret [[]]] } {} := by
  refine (hidden_unseen_iff plainSite _ (secret_hidden _)).mpr fun query => .inr (iff_of_false ?_ ?_)
  · rintro ⟨service, mem, -, raises⟩
    obtain rfl := List.mem_singleton.mp mem
    refine not_raises (fun profile mem => ?_) raises
    obtain rfl := List.mem_singleton.mp mem
    exact ⟨[], rfl, nofun⟩
  · rintro ⟨service, mem, -⟩
    cases mem

/-- One whose profile has `versions: null` makes the discovery of anyone fail. -/
theorem hidden_noticed : ∃ apiInvokerId s s', SameButHidden apiInvokerId s s' ∧
    ∃ query, discoverServices s apiInvokerId query ≠ discoverServices s' apiInvokerId query := by
  refine ⟨_, _, _, secret_hidden [[(textOf "versions".toList, .null)]],
    { commType := some "REQUEST_RESPONSE".toList }, ?_⟩
  intro equal
  cases equal

end Queries

end Smo.Sme.Discovery
