import Smo.Shared.Invoker
import Smo.Lib.Table

/-! The tables of DME (`dme/app/models.py`) and the requests that write types, producers, jobs and
offers (`dme/app/main.py`). `J` stands for JSON documents, which Python compares by value. Notices,
the records of a job and its delivery health are left out. -/
namespace Smo.Dme

open Table (get modify)

structure Identity where
  namespace_ : Str
  name : Str
  version : Str
  deriving DecidableEq

/-- The definition of a type: what a later registration may not change for others. -/
structure Definition (J : Type) where
  typeName : Str
  dataProductionSchema : J
  collectionSpec : Option J := none
  sourceDomain : Option Str := none
  sourceContext : Option J := none
  deriving DecidableEq

structure DmeType (J : Type) where
  dmeTypeId : Nat
  identity : Identity
  definition : Definition J
  registeredBy : Option Str

structure DmeProducer where
  producerId : Str
  healthCallbackUrl : Str
  jobCallbackUrl : Str

structure DmeProducerType where
  producerId : Str
  dmeTypeId : Nat
  deriving DecidableEq

structure DataJob (J : Type) where
  dataJobId : Nat
  dataDeliveryMode : Str
  dmeTypeId : Nat
  productionJobDefinition : J
  dataDeliveryMethod : Str
  deliveryDetails : J
  consumerId : Str
  status : Str
  lifecycleStage : Option Str
  expectedIntervalSeconds : Option Nat

structure DataOffer where
  offerId : Nat
  dmeTypeId : Nat
  methodsOffered : List Str
  methodCommitted : Str
  availabilityUri : Option Str
  terminationUri : Str

structure Database (J : Type) where
  types : List (DmeType J) := []
  producers : List DmeProducer := []
  links : List DmeProducerType := []
  jobs : List (DataJob J) := []
  offers : List DataOffer := []

structure DmeTypeRegistration (J : Type) where
  identity : Identity
  definition : Definition J
  producerId : Str
  healthCallbackUrl : Str
  jobCallbackUrl : Str

structure DataJobRequest (J : Type) where
  dataDeliveryMode : Str
  dmeTypeId : Nat
  productionJobDefinition : J
  dataDeliveryMethod : Str
  deliveryDetails : J
  consumerId : Str
  lifecycleStage : Option Str := none
  expectedIntervalSeconds : Option Nat := none

structure DataOfferRequest where
  dmeTypeId : Nat
  methods : List Str
  availabilityUri : Option Str := none
  terminationUri : Str

def liveRan : Str := "LIVE_RAN".toList

def digitalTwin : Str := "DIGITAL_TWIN".toList

def inference : Str := "INFERENCE".toList

def sourceDomains : List Str := [liveRan, digitalTwin]

def deliveryMethods : List Str :=
  ["PULL_HTTP".toList, "PUSH_HTTP".toList, "STREAMING_KAFKA".toList]

def deliveryModes : List Str := ["ONE_TIME".toList, "CONTINUOUS".toList]

def lifecycleStages : List Str :=
  ["TRAINING".toList, "TESTING".toList, "EMULATION".toList, inference,
   "CLOSED_LOOP_FEEDBACK".toList]

section Routes

variable {J : Type}

def Database.typeOf (db : Database J) (identity : Identity) : Option (DmeType J) :=
  get DmeType.identity db.types identity

/-- `db.get(DMEType, id)`. -/
def Database.typeById (db : Database J) (id : Nat) : Option (DmeType J) :=
  get DmeType.dmeTypeId db.types id

def Database.linked (db : Database J) (producerId : Str) (id : Nat) : Bool :=
  db.links.contains ⟨producerId, id⟩

def Database.supported (db : Database J) (id : Nat) : Bool := db.links.any (·.dmeTypeId = id)

def mayRedefineType (headers : Headers) (db : Database J) (type : DmeType J) : Bool :=
  match headers.role with
  | none | some .internal => true
  | some .rapp =>
    match invokerId headers with
    | none => false
    | some caller =>
      match type.registeredBy with
      | some owner => owner = caller
      | none => db.linked caller type.dmeTypeId

def upsertProducer (producer : DmeProducer) (producers : List DmeProducer) : List DmeProducer :=
  if (get DmeProducer.producerId producers producer.producerId).isSome then
    modify DmeProducer.producerId producers producer.producerId fun _ => producer
  else producers ++ [producer]

def addLink (link : DmeProducerType) (links : List DmeProducerType) : List DmeProducerType :=
  if links.contains link then links else links ++ [link]

/-- `register_dme_type`; `drawn` is the id that a new row gets. -/
def registerDmeType [DecidableEq J] (headers : Headers) (body : DmeTypeRegistration J)
    (drawn : Nat) (db : Database J) : Except Problem (Database J) :=
  if body.definition.sourceDomain.any (· ∉ sourceDomains) then
    .error ⟨.schemaValidationFailed, "unknown sourceDomain"⟩
  else
    let producers :=
      upsertProducer ⟨body.producerId, body.healthCallbackUrl, body.jobCallbackUrl⟩ db.producers
    match db.typeOf body.identity with
    | some type =>
      if type.definition ≠ body.definition ∧ mayRedefineType headers db type = false then
        .error ⟨.dmeTypeNotOwner, "the type was registered by another producer: only that producer, an SMO module or the operator may change its definition"⟩
      else .ok {
        db with
        producers
        types := modify DmeType.identity db.types body.identity fun type =>
          { type with definition := body.definition }
        links := addLink ⟨body.producerId, type.dmeTypeId⟩ db.links }
    | none =>
      if ':' ∈ body.identity.name then
        .error ⟨.constraintViolated, "a value in the request is not one the service accepts"⟩
      else if (db.typeById drawn).isSome then
        .error ⟨.resourceAlreadyExists, "the request repeats something that already exists"⟩
      else .ok {
        db with
        producers
        types := db.types ++ [{
          dmeTypeId := drawn
          identity := body.identity
          definition := body.definition
          registeredBy := (invokerId headers).or (some body.producerId) }]
        links := addLink ⟨body.producerId, drawn⟩ db.links }

/-- `deregister_producer`; the links of the producer go with it. -/
def deregisterProducer (producerId : Str) (db : Database J) : Database J :=
  match get DmeProducer.producerId db.producers producerId with
  | none => db
  | some _ => {
    db with
    producers := db.producers.filter (·.producerId ≠ producerId)
    links := db.links.filter (·.producerId ≠ producerId) }

def deleteDmeType (id : Nat) (db : Database J) : Except Problem (Database J) :=
  match db.typeById id with
  | none => .error ⟨.dmeTypeNotFound, "no such DME type"⟩
  | some _ =>
    if db.supported id then
      .error ⟨.dmeTypeHasActiveProducers, "type has one or several active producers"⟩
    else .ok {
      db with
      types := db.types.filter (·.dmeTypeId ≠ id)
      jobs := db.jobs.filter (·.dmeTypeId ≠ id)
      offers := db.offers.filter (·.dmeTypeId ≠ id) }

def validateDeliveryMethod (db : Database J) (id : Nat) (method : Str) : Except Problem Unit :=
  if method ∉ deliveryMethods then .error ⟨.deliveryMethodNotOffered, "unknown method"⟩
  else
    let offers := db.offers.filter (·.dmeTypeId = id)
    if offers ≠ [] ∧ offers.all (·.methodCommitted ≠ method) then
      .error ⟨.deliveryMethodNotOffered, "not committed by any DataOffer for this dmeTypeId"⟩
    else .ok ()

/-- `_validate_job_definition_schema`; `validate schema instance` is the message of a failure of
the JSON schema library. -/
def validateJobDefinitionSchema (validate : J → J → Option String) (db : Database J) (id : Nat)
    (definition : J) : Except Problem Unit :=
  match db.typeById id with
  | none => .ok ()
  | some type =>
    match validate type.definition.dataProductionSchema definition with
    | none => .ok ()
    | some message => .error ⟨.schemaValidationFailed, message⟩

def validateLifecycleEligibility (db : Database J) (id : Nat) (stage : Option Str) :
    Except Problem Unit :=
  if stage.any (· ∉ lifecycleStages) then
    .error ⟨.schemaValidationFailed, "unknown lifecycleStage"⟩
  else
    match db.typeById id with
    | none => .ok ()
    | some type =>
      if type.definition.sourceDomain ≠ some digitalTwin ∨ stage ≠ some inference then .ok ()
      else .error ⟨.digitalTwinInferenceNotEligible,
        "a Digital Twin source may feed Training/Emulation, never Inference"⟩

def validateJob (validate : J → J → Option String) (db : Database J) (body : DataJobRequest J) :
    Except Problem Unit := do
  validateDeliveryMethod db body.dmeTypeId body.dataDeliveryMethod
  validateJobDefinitionSchema validate db body.dmeTypeId body.productionJobDefinition
  validateLifecycleEligibility db body.dmeTypeId body.lifecycleStage

/-- `create_data_job`; the database refuses an unknown mode and a type that is not there. -/
def createDataJob (validate : J → J → Option String) (body : DataJobRequest J) (drawn : Nat)
    (db : Database J) : Except Problem (Database J) :=
  match validateJob validate db body with
  | .error problem => .error problem
  | .ok () =>
    if body.dataDeliveryMode ∉ deliveryModes then
      .error ⟨.constraintViolated, "a value in the request is not one the service accepts"⟩
    else if (get DataJob.dataJobId db.jobs drawn).isSome then
      .error ⟨.resourceAlreadyExists, "the request repeats something that already exists"⟩
    else if (db.typeById body.dmeTypeId).isNone then
      .error ⟨.referencedResourceNotFound, "the request refers to something that does not exist"⟩
    else .ok { db with jobs := db.jobs ++ [{
      dataJobId := drawn
      dataDeliveryMode := body.dataDeliveryMode
      dmeTypeId := body.dmeTypeId
      productionJobDefinition := body.productionJobDefinition
      dataDeliveryMethod := body.dataDeliveryMethod
      deliveryDetails := body.deliveryDetails
      consumerId := body.consumerId
      status := "ACTIVE".toList
      lifecycleStage := body.lifecycleStage
      expectedIntervalSeconds := body.expectedIntervalSeconds }] }

def updateDataJob (validate : J → J → Option String) (id : Nat) (body : DataJobRequest J)
    (db : Database J) : Except Problem (Database J) :=
  match get DataJob.dataJobId db.jobs id with
  | none => .error ⟨.dataJobNotFound, "no such data job"⟩
  | some job =>
    if job.dmeTypeId ≠ body.dmeTypeId ∨ job.consumerId ≠ body.consumerId ∨
        job.dataDeliveryMode ≠ body.dataDeliveryMode then
      .error ⟨.dataJobTargetImmutable,
        "dmeTypeId/consumerId/dataDeliveryMode cannot change on update"⟩
    else
      match validateJob validate db body with
      | .error problem => .error problem
      | .ok () => .ok { db with jobs := modify DataJob.dataJobId db.jobs id fun job => {
        job with
        productionJobDefinition := body.productionJobDefinition
        dataDeliveryMethod := body.dataDeliveryMethod
        deliveryDetails := body.deliveryDetails
        lifecycleStage := body.lifecycleStage
        expectedIntervalSeconds := body.expectedIntervalSeconds } }

def terminateDataJob (id : Nat) (db : Database J) : Database J :=
  { db with jobs := db.jobs.filter (·.dataJobId ≠ id) }

def terminateDataJobsForConsumer (consumerId : Str) (db : Database J) : Database J :=
  { db with jobs := db.jobs.filter (·.consumerId ≠ consumerId) }

/-- `create_data_offer`, which commits to the first of the methods. -/
def createDataOffer (body : DataOfferRequest) (drawn : Nat) (db : Database J) :
    Except Problem (Database J) :=
  match body.methods with
  | [] => .error ⟨.deliveryMethodNotOffered, ""⟩
  | first :: _ =>
    if body.methods.any (· ∉ deliveryMethods) then .error ⟨.deliveryMethodNotOffered, ""⟩
    else if (get DataOffer.offerId db.offers drawn).isSome then
      .error ⟨.resourceAlreadyExists, "the request repeats something that already exists"⟩
    else if (db.typeById body.dmeTypeId).isNone then
      .error ⟨.referencedResourceNotFound, "the request refers to something that does not exist"⟩
    else .ok { db with offers := db.offers ++ [{
      offerId := drawn
      dmeTypeId := body.dmeTypeId
      methodsOffered := body.methods
      methodCommitted := first
      availabilityUri := body.availabilityUri
      terminationUri := body.terminationUri }] }

def terminateDataOffer (id : Nat) (db : Database J) : Database J :=
  { db with offers := db.offers.filter (·.offerId ≠ id) }

end Routes

/-- The writing requests on types, jobs and offers, with the ids that new rows get. The gateway lets
an rApp make all of them (`RAPP_MAY_CHANGE`). -/
inductive Request (J : Type) where
  | registerType (body : DmeTypeRegistration J) (drawn : Nat)
  | deregisterProducer (producerId : Str)
  | deleteType (id : Nat)
  | createJob (body : DataJobRequest J) (drawn : Nat)
  | updateJob (id : Nat) (body : DataJobRequest J)
  | terminateJob (id : Nat)
  | terminateJobs (consumerId : Str)
  | createOffer (body : DataOfferRequest) (drawn : Nat)
  | terminateOffer (id : Nat)

section Serve

variable {J : Type} [DecidableEq J] (validate : J → J → Option String)

def answer (headers : Headers) (db : Database J) : Request J → Except Problem (Database J)
  | .registerType body drawn => registerDmeType headers body drawn db
  | .deregisterProducer producerId => .ok (deregisterProducer producerId db)
  | .deleteType id => deleteDmeType id db
  | .createJob body drawn => createDataJob validate body drawn db
  | .updateJob id body => updateDataJob validate id body db
  | .terminateJob id => .ok (terminateDataJob id db)
  | .terminateJobs consumerId => .ok (terminateDataJobsForConsumer consumerId db)
  | .createOffer body drawn => createDataOffer body drawn db
  | .terminateOffer id => .ok (terminateDataOffer id db)

structure Call (J : Type) where
  headers : Headers
  request : Request J

def serve (db : Database J) (call : Call J) : Database J :=
  (answer validate call.headers db call.request).toOption.getD db

end Serve

end Smo.Dme
