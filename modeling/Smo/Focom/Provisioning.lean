import Smo.Lib.Runs
import Smo.Shared.Str

/-! The O2-IMS objects of FOCOM (`focom/app/provisioning.py`) and the inventory resources that they
name (`focom/app/main.py`). Every request reads row by row and writes in one commit; between its
reads and its commit other requests commit theirs. -/
namespace Smo.Focom

inductive Kind
  | artifactResourceType
  | artifactResource
  | nodeClusterType
  | nodeCluster
  | clusterResourceType
  | clusterResource
  | clusterResourceGroup
  | infrastructureResourceType
  | infrastructureResource
  | provisioningRequest
  deriving DecidableEq, Repr

inductive Attr
  | nodeClusterTypeId
  | artifactResourceId
  | clusterResourceIds
  | clusterResourceGroups
  | clusterResourceTypeId
  | resourceId
  | memberOf
  | artifactResourceIds
  | clusterResources
  | infrastructureResourceTypeId
  | linkedInfrastructureResourceIds
  | inventoryResourceIds
  deriving DecidableEq, Repr

inductive Target
  | object (kind : Kind)
  | inventory
  deriving DecidableEq, Repr

/-- `_check_node_cluster` -/
def checkNodeCluster : List (Attr × Target) := [
  (.nodeClusterTypeId, .object .nodeClusterType), (.artifactResourceId, .object .artifactResource),
  (.clusterResourceIds, .object .clusterResource),
  (.clusterResourceGroups, .object .clusterResourceGroup)]

/-- `_check_cluster_resource` -/
def checkClusterResource : List (Attr × Target) := [
  (.clusterResourceTypeId, .object .clusterResourceType),
  (.memberOf, .object .clusterResourceGroup), (.artifactResourceIds, .object .artifactResource),
  (.resourceId, .inventory)]

/-- `_check_group` -/
def checkGroup : List (Attr × Target) := [(.clusterResources, .object .clusterResource)]

/-- `_check_infra` -/
def checkInfra : List (Attr × Target) := [
  (.infrastructureResourceTypeId, .object .infrastructureResourceType),
  (.artifactResourceId, .object .artifactResource),
  (.linkedInfrastructureResourceIds, .object .infrastructureResource),
  (.inventoryResourceIds, .inventory)]

/-- The referential check of `KINDS`. -/
def check : Kind → List (Attr × Target)
  | .nodeCluster => checkNodeCluster
  | .clusterResource => checkClusterResource
  | .clusterResourceGroup => checkGroup
  | .infrastructureResource => checkInfra
  | _ => []

/-- `REFERRERS` -/
def referrers : Kind → List (Kind × Attr)
  | .artifactResource => [(.nodeCluster, .artifactResourceId),
      (.clusterResource, .artifactResourceIds), (.infrastructureResource, .artifactResourceId)]
  | .nodeClusterType => [(.nodeCluster, .nodeClusterTypeId)]
  | .clusterResourceType => [(.clusterResource, .clusterResourceTypeId)]
  | .clusterResource => [(.nodeCluster, .clusterResourceIds), (.clusterResourceGroup, .clusterResources)]
  | .clusterResourceGroup => [(.nodeCluster, .clusterResourceGroups), (.clusterResource, .memberOf)]
  | .infrastructureResourceType => [(.infrastructureResource, .infrastructureResourceTypeId)]
  | .infrastructureResource =>
    [(.infrastructureResource, .linkedInfrastructureResourceIds)]
  | _ => []

structure Body where
  name : Str
  version : Str := []
  refs : List (Attr × Str) := []
  deriving DecidableEq, Repr

/-- A row of `o2ims_object`; `nodeClusterId` is the one in `provisionedResourceSet`. -/
structure Object extends Body where
  kind : Kind
  id : Str
  nodeClusterId : Option Str := none
  deriving DecidableEq, Repr

/-- The body of a provisioning request, with the two template parameters that are read. -/
structure Template where
  name : Str
  templateName : Str
  templateVersion : Str
  nodeClusterTypeId : Str := []
  deriving DecidableEq, Repr

inductive Request
  | create (kind : Kind) (body : Body)
  | delete (kind : Kind) (id : Str)
  | createProvisioningRequest (body : Template)
  | deleteProvisioningRequest (id : Str)
  | provisionResource
  | deprovisionResource (id : Str)
  deriving DecidableEq

inductive Change
  | store (kind : Kind) (body : Body)
  | drop (kind : Kind) (id : Str)
  | fulfil (body : Template) (typeId template : Str)
  | withdraw (request : Str) (cluster : Option Str)
  | provision
  | deprovision (resource : Option Str)
  deriving DecidableEq

inductive Stage
  /-- Creating; the references that are still to be looked up. -/
  | checking (kind : Kind) (body : Body) (todo : List (Target × Str))
  /-- Deleting: the row is still to be found. -/
  | finding (kind : Kind) (id : Str)
  /-- Deleting; the referrers that are still to be scanned. -/
  | scanning (kind : Kind) (id : Str) (todo : List (Kind × Attr))
  /-- The template is still to be resolved, then the type of the cluster, then that type's row. -/
  | resolving (body : Template)
  | typing (body : Template) (template : Str)
  | requiring (body : Template) (template typeId : Str)
  | withdrawing (id : Str)
  | deprovisioning (id : Str)
  | ready (change : Change)
  deriving DecidableEq

/-- `resources` are the inventory resources by their UUIDs. Deprovisioned resources, clusters that
were deleted by `DELETE /node-clusters/{id}` and drawn ids are history. -/
structure State where
  objects : List Object := []
  resources : List Str := []
  requests : List (Option Stage) := []
  deprovisioned : List Str := []
  dropped : List Str := []
  drawn : List Str := []

def stored (s : State) (kind : Kind) (id : Str) : Bool :=
  s.objects.any fun o => o.kind = kind ∧ o.id = id

/-- `uuid.UUID(text)`, none where it raises `ValueError`. -/
abbrev ReadUuid := Str → Option Str

/-- `_require` and `_require_inventory`, of one id. -/
def found (uuid : ReadUuid) (s : State) : Target → Str → Bool
  | .object kind, id => stored s kind id
  | .inventory, id => (uuid id).any s.resources.contains

def named (s : State) (id : Str) (referrer : Kind × Attr) : Bool :=
  s.objects.any fun o => o.kind = referrer.1 ∧ (referrer.2, id) ∈ o.refs

def lookups (kind : Kind) (body : Body) : List (Target × Str) :=
  (check kind).flatMap fun (attr, target) =>
    (body.refs.filter (·.1 = attr)).map fun ref => (target, ref.2)

def begun : Request → Stage
  | .create kind body => .checking kind body (lookups kind body)
  | .delete kind id => .finding kind id
  | .createProvisioningRequest body => .resolving body
  | .deleteProvisioningRequest id => .withdrawing id
  | .provisionResource => .ready .provision
  | .deprovisionResource id => .deprovisioning id

/-- The next read of a request; none where it answers instead, with an error or with nothing to
do. -/
def look (uuid : ReadUuid) (s : State) : Stage → Option Stage
  | .checking kind body [] => some (.ready (.store kind body))
  | .checking kind body ((target, id) :: todo) =>
    if found uuid s target id then some (.checking kind body todo) else none
  | .finding kind id => if stored s kind id then some (.scanning kind id (referrers kind)) else none
  | .scanning kind id [] => some (.ready (.drop kind id))
  | .scanning kind id (referrer :: todo) =>
    if named s id referrer then none else some (.scanning kind id todo)
  | .resolving body =>
    (s.objects.find? fun o => o.kind = .artifactResource ∧ o.name = body.templateName ∧
      o.version = body.templateVersion).map fun o => .typing body o.id
  | .typing body template =>
    if body.nodeClusterTypeId ≠ [] then some (.requiring body template body.nodeClusterTypeId)
    else (s.objects.find? fun o => o.kind = .nodeClusterType).map fun o => .requiring body template o.id
  | .requiring body template typeId =>
    if stored s .nodeClusterType typeId then some (.ready (.fulfil body typeId template)) else none
  | .withdrawing id =>
    (s.objects.find? fun o => o.kind = .provisioningRequest ∧ o.id = id).map fun o =>
      .ready (.withdraw id o.nodeClusterId)
  | .deprovisioning id => some (.ready (.deprovision (uuid id)))
  | .ready change => some (.ready change)

def clusterOf (body : Template) (typeId template id : Str) : Object where
  kind := .nodeCluster
  id := id
  name := body.name
  refs := [(.nodeClusterTypeId, typeId), (.artifactResourceId, template)]

def requestOf (body : Template) (id cluster : Str) : Object where
  kind := .provisioningRequest
  id := id
  name := body.name
  nodeClusterId := some cluster

def without (s : State) (kind : Kind) (id : Str) : List Object :=
  s.objects.filter fun o => !(o.kind = kind ∧ o.id = id)

def write (s : State) (id id' : Str) : Change → State
  | .store kind body => { s with objects := s.objects ++ [{ body with kind, id }] }
  | .drop kind old =>
    { s with
      objects := without s kind old
      dropped := if kind = .nodeCluster then old :: s.dropped else s.dropped }
  | .fulfil body typeId template =>
    { s with objects := s.objects ++ [clusterOf body typeId template id', requestOf body id id'] }
  | .withdraw request cluster =>
    { s with objects := s.objects.filter fun o =>
        !(o.kind = .provisioningRequest ∧ o.id = request) &&
          !(o.kind = .nodeCluster ∧ some o.id = cluster) }
  | .provision => { s with resources := s.resources ++ [id] }
  | .deprovision none => s
  | .deprovision (some old) =>
    { s with
      resources := s.resources.filter (· != old)
      deprovisioned := old :: s.deprovisioned }

inductive Act
  | arrive (request : Request)
  | look (request : Nat)
  | commit (request : Nat) (id id' : Str)
  deriving DecidableEq

def State.act (uuid : ReadUuid) (s : State) : Act → Option State
  | .arrive request => some { s with requests := s.requests ++ [some (begun request)] }
  | .look i =>
    match s.requests[i]?.join with
    | some stage => some { s with requests := s.requests.set i (look uuid s stage) }
    | none => none
  | .commit i id id' =>
    match s.requests[i]?.join with
    | some (.ready change) =>
      if id ∉ s.drawn ∧ id' ∉ s.drawn ∧ id ≠ id' then
        some { write s id id' change with
          requests := s.requests.set i none
          drawn := id :: id' :: s.drawn }
      else none
    | _ => none

def Step (uuid : ReadUuid) (s : State) (act : Act) (s' : State) : Prop := s.act uuid act = some s'

/-- Every reference of an object that its create route looks up in `o2ims_object` names a row. -/
def referred (s : State) (kind : Kind) (refs : List (Attr × Str)) : Bool :=
  (check kind).all fun (attr, target) => refs.all fun ref =>
    ref.1 != attr ||
      match target with
      | .object named => stored s named ref.2
      | .inventory => true

/-- What a request has looked up no longer holds when it commits: something that its object names
has gone, or something names the object that it deletes. -/
def overtaken (s : State) : Change → Bool
  | .store kind body => !referred s kind body.refs
  | .drop kind id => (referrers kind).any (named s id)
  | .fulfil body typeId template =>
    !referred s .nodeCluster (clusterOf body typeId template []).refs
  | _ => false

def State.lapses (s : State) : Act → Bool
  | .commit i _ _ =>
    match s.requests[i]?.join with
    | some (.ready change) => overtaken s change
    | _ => false
  | _ => false

end Smo.Focom
