import Smo.Shared.Str

/-! Model discovery and artifact download of the model registry (`mlmr/app/mlr.py`,
`mlmr/app/main.py`): who may use a model and until when, which records a criteria object matches, and
what the two routes answer. -/
namespace Smo.Mlmr

inductive Record
  | scalar (value : Str)
  | list (items : List Record)
  | dict (entries : List (Str × Record))

def Record.get (entries : List (Str × Record)) (key : Str) : Option Record := entries.lookup key

mutual

/-- `subset_match` -/
def subsetMatch : Record → Record → Bool
  | .dict criteria, .dict record => allEntries criteria record
  | .dict _, _ => false
  | .list criteria, .list record => allItems criteria record
  | .list _, _ => false
  | .scalar wanted, .scalar value => wanted == value
  | .scalar _, _ => false

def allEntries : List (Str × Record) → List (Str × Record) → Bool
  | [], _ => true
  | (key, wanted) :: rest, record =>
    ((Record.get record key).any fun value => subsetMatch wanted value) && allEntries rest record

def allItems : List Record → List Record → Bool
  | [], _ => true
  | wanted :: rest, record =>
    (record.any fun value => subsetMatch wanted value) && allItems rest record

end

inductive AccessReq
  | publiclyAvailable
  | restricted
  | privateUseOnly
  deriving DecidableEq

/-- `MLModelAccessReqs`, without the location, which is stored and not evaluated. -/
structure AccessReqs where
  accessReq : AccessReq
  valServerIds : List Str := []
  valClientIds : List Str := []
  timePeriod : Option Nat := none

/-- `MLModelStoreDiscReqs`: at least one of the two is given. -/
structure StoreDiscReqs where
  duration : Option Nat
  accessReqs : Option AccessReqs
  given : duration ≠ none ∨ accessReqs ≠ none

structure Artifact where
  version : Nat
  filename : Str
  content : Str
  deriving DecidableEq

structure Profile where
  profileId : Str
  aimleServId : Option Str := none
  aimleRepId : Option Str := none
  uri : Option Str := none

/-- A registered model with its artifacts and profiles; `attributes` are the further attributes of
its record, those that are set. Times are in microseconds. -/
structure Model where
  modelId : Nat
  registeredAt : Nat
  owner : Option Str := none
  storeDiscReqs : Option StoreDiscReqs := none
  attributes : List (Str × Record) := []
  artifacts : List Artifact := []
  profiles : List Profile := []

/-- The order of `registered_at, model_id`. -/
def Model.before (m m' : Model) : Prop :=
  m.registeredAt < m'.registeredAt ∨ m.registeredAt = m'.registeredAt ∧ m.modelId < m'.modelId

structure Registry where
  models : List Model
  ordered : models.Pairwise Model.before
  distinct : (models.map Model.modelId).Nodup

def second : Nat := 1000000

/-- `timedelta` raises `OverflowError` from so many seconds on. -/
def maxSeconds : Nat := 86400 * 1000000000

/-- The last instant of the year 9999, in microseconds from the first of the year 1. -/
def maxInstant : Nat := 315537897599999999

inductive Problem
  | modelExpired
  | modelAccessDenied (reason : String)
  | modelNotFound
  | artifactVersionNotFound
  | overflowError
  deriving DecidableEq

/-- `registered_at + timedelta(seconds=seconds)` -/
def deadline (m : Model) (seconds : Nat) : Except Problem Nat :=
  if maxSeconds ≤ seconds then .error .overflowError
  else if maxInstant < m.registeredAt + seconds * second then .error .overflowError
  else .ok (m.registeredAt + seconds * second)

/-- Whether a period from registration has passed; one that is not given never does. -/
def passed (now : Nat) (m : Model) : Option Nat → Except Problem Bool
  | none => .ok false
  | some seconds => do
    let last ← deadline m seconds
    return decide (last < now)

/-- `is_expired` -/
def isExpired (now : Nat) (m : Model) : Except Problem Bool :=
  passed now m (m.storeDiscReqs.bind (·.duration))

/-- `access_denied` -/
def accessDenied (now : Nat) (m : Model) (caller : Option Str) : Except Problem (Option String) :=
  match m.storeDiscReqs.bind (·.accessReqs) with
  | none => .ok none
  | some access => do
    if ← passed now m access.timePeriod then return some "the access period has ended"
    else
      let owner := caller.isSome && caller == m.owner
      match access.accessReq with
      | .publiclyAvailable => return none
      | .privateUseOnly => return if owner then none else some "the model is for private use only"
      | .restricted =>
        let listed := caller.any fun id => access.valServerIds.contains id || access.valClientIds.contains id
        return if owner || listed then none else some "the model is restricted"

/-- `require_usable` -/
def requireUsable (now : Nat) (m : Model) (caller : Option Str) : Except Problem Unit := do
  if ← isExpired now m then throw .modelExpired
  match ← accessDenied now m caller with
  | some reason => throw (.modelAccessDenied reason)
  | none => return ()

def Model.latest (m : Model) : Option Artifact :=
  m.artifacts.maxOn? Artifact.version

/-- `model_info_view` -/
def modelInfoView (size : Artifact → Str) (m : Model) : List (Str × Record) :=
  ("mlModelId".toList, .scalar (Nat.toDigits 10 m.modelId)) ::
    (m.latest.map fun artifact => ("mlModelSize".toList, Record.scalar (size artifact))).toList ++
      m.attributes

inductive Entry
  | file (modelId : Nat) (content : Option Str)
  | profile (profile : Option Profile) (record : List (Str × Record))

def entryOf (size : Artifact → Str) (includeModels : Bool) (m : Model) : Entry :=
  if includeModels then .file m.modelId (m.latest.map Artifact.content)
  else .profile m.profiles.head? (modelInfoView size m)

structure Query where
  criteria : List (Str × Record)
  caller : Option Str
  includeModels : Bool := false
  limit : Nat
  offset : Nat

/-- The loop of `discover` over the stored models. -/
def matching (size : Artifact → Str) (now : Nat) (query : Query) : List Model → Except Problem (List Model)
  | [] => .ok []
  | m :: rest => do
    if ← isExpired now m then matching size now query rest
    else if (← accessDenied now m query.caller).isSome then matching size now query rest
    else
      let others ← matching size now query rest
      return if subsetMatch (.dict query.criteria) (.dict (modelInfoView size m)) then m :: others
        else others

/-- `discover` -/
def discover (size : Artifact → Str) (now : Nat) (registry : Registry) (query : Query) :
    Except Problem (List Entry) := do
  let found ← matching size now query registry.models
  let page := (found.drop query.offset).take query.limit
  if page.isEmpty then throw .modelNotFound
  return page.map (entryOf size query.includeModels)

/-- `download_model_artifact` -/
def downloadModelArtifact (now : Nat) (registry : Registry) (caller : Option Str) (modelId version : Nat) :
    Except Problem Artifact := do
  let model := registry.models.find? fun m => m.modelId = modelId
  model.forM fun m => requireUsable now m caller
  match model.bind fun m => m.artifacts.find? fun artifact => artifact.version = version with
  | some artifact => return artifact
  | none => throw .artifactVersionNotFound

end Smo.Mlmr
