import Smo.Dme.Models
import Smo.Lib.Runs

/-! What sequences of requests do to the types of DME: who may change a definition, and whether a
digital twin comes to feed inference. -/
namespace Smo.Dme

open Table (get modify)
open Runs (Run)

variable {J : Type} [DecidableEq J] {validate : J → J → Option String}

/-- What a request can do to the types and the jobs: nothing, restate or redefine a type, add one,
delete one that no producer supports with its jobs, remove jobs, add a checked job, or rewrite one
to what was checked. -/
inductive Effect (validate : J → J → Option String) (headers : Headers) (db : Database J) :
    Request J → List (DmeType J) → List (DataJob J) → Prop
  | nothing (request : Request J) : Effect validate headers db request db.types db.jobs
  | defined (body : DmeTypeRegistration J) (drawn : Nat) (type : DmeType J)
      (found : db.typeOf body.identity = some type)
      (may : type.definition = body.definition ∨ mayRedefineType headers db type = true) :
      Effect validate headers db (.registerType body drawn)
        (modify DmeType.identity db.types body.identity fun type =>
          { type with definition := body.definition }) db.jobs
  | added (body : DmeTypeRegistration J) (drawn : Nat) (registeredBy : Option Str)
      (absent : db.typeOf body.identity = none) (fresh : db.typeById drawn = none) :
      Effect validate headers db (.registerType body drawn)
        (db.types ++ [⟨drawn, body.identity, body.definition, registeredBy⟩]) db.jobs
  | deleted (id : Nat) (unsupported : db.supported id = false) :
      Effect validate headers db (.deleteType id) (db.types.filter (·.dmeTypeId ≠ id))
        (db.jobs.filter (·.dmeTypeId ≠ id))
  | dropped (request : Request J) (kept : DataJob J → Bool) :
      Effect validate headers db request db.types (db.jobs.filter kept)
  | created (body : DataJobRequest J) (drawn : Nat) (job : DataJob J)
      (of : job.dmeTypeId = body.dmeTypeId) (stage : job.lifecycleStage = body.lifecycleStage)
      (fresh : get DataJob.dataJobId db.jobs job.dataJobId = none)
      (there : (db.typeById body.dmeTypeId).isSome)
      (valid : validateJob validate db body = .ok ()) :
      Effect validate headers db (.createJob body drawn) db.types (db.jobs ++ [job])
  | updated (id : Nat) (body : DataJobRequest J) (job : DataJob J)
      (found : get DataJob.dataJobId db.jobs id = some job)
      (of : job.dmeTypeId = body.dmeTypeId)
      (change : DataJob J → DataJob J) (key : ∀ job, (change job).dataJobId = job.dataJobId)
      (keeps : ∀ job, (change job).dmeTypeId = job.dmeTypeId)
      (stage : ∀ job, (change job).lifecycleStage = body.lifecycleStage)
      (valid : validateJob validate db body = .ok ()) :
      Effect validate headers db (.updateJob id body) db.types
        (modify DataJob.dataJobId db.jobs id change)

theorem registerDmeType_effect {headers : Headers} {body : DmeTypeRegistration J} {drawn : Nat}
    {db db' : Database J} (answered : registerDmeType headers body drawn db = .ok db') :
    Effect validate headers db (.registerType body drawn) db'.types db'.jobs := by
  unfold registerDmeType at answered
  split at answered
  · cases answered
  · split at answered
    · next type found =>
      split at answered
      · cases answered
      · next allowed =>
        cases answered
        refine .defined body drawn type found ?_
        rcases Decidable.em (type.definition = body.definition) with same | differs
        · exact .inl same
        · exact .inr (by simpa [differs] using allowed)
    · next absent =>
      split at answered
      · cases answered
      · split at answered
        · cases answered
        · next fresh =>
          cases answered
          exact .added body drawn _ absent (by simpa using fresh)

omit [DecidableEq J] in
theorem createDataJob_effect {headers : Headers} {body : DataJobRequest J} {drawn : Nat}
    {db db' : Database J} (answered : createDataJob validate body drawn db = .ok db') :
    Effect validate headers db (.createJob body drawn) db'.types db'.jobs := by
  unfold createDataJob at answered
  split at answered
  · cases answered
  · next valid =>
    split_ifs at answered with mode taken there
    cases answered
    exact .created body drawn _ rfl rfl (by simpa using taken)
      (by simpa [Option.isSome_iff_ne_none] using there) valid

omit [DecidableEq J] in
theorem updateDataJob_effect {headers : Headers} {id : Nat} {body : DataJobRequest J}
    {db db' : Database J} (answered : updateDataJob validate id body db = .ok db') :
    Effect validate headers db (.updateJob id body) db'.types db'.jobs := by
  unfold updateDataJob at answered
  split at answered
  · cases answered
  · next job found =>
    split at answered
    · cases answered
    · next target =>
      split at answered
      · cases answered
      · next valid =>
        cases answered
        have of : job.dmeTypeId = body.dmeTypeId := by
          by_contra differs
          exact target (.inl differs)
        exact .updated id body job found of _ (fun _ => rfl) (fun _ => rfl) (fun _ => rfl) valid

theorem serve_effect (db : Database J) (call : Call J) :
    Effect validate call.headers db call.request (serve validate db call).types
      (serve validate db call).jobs := by
  obtain ⟨headers, request⟩ := call
  unfold serve
  cases answered : answer validate headers db request with
  | error problem => exact .nothing _
  | ok db' =>
    simp only [Except.toOption, Option.getD_some]
    cases request with
    | registerType body drawn => exact registerDmeType_effect answered
    | deregisterProducer producerId =>
      cases answered
      unfold deregisterProducer
      split <;> exact .nothing _
    | deleteType id =>
      simp only [answer, deleteDmeType] at answered
      split at answered
      · cases answered
      · split_ifs at answered with supported
        cases answered
        exact .deleted id (by simpa using supported)
    | createJob body drawn => exact createDataJob_effect answered
    | updateJob id body => exact updateDataJob_effect answered
    | terminateJob id =>
      cases answered
      exact .dropped _ _
    | terminateJobs consumerId =>
      cases answered
      exact .dropped _ _
    | createOffer body drawn =>
      simp only [answer, createDataOffer] at answered
      split at answered
      · cases answered
      · split_ifs at answered
        cases answered
        exact .nothing _
    | terminateOffer id =>
      cases answered
      exact .nothing _

structure Keyed (types : List (DmeType J)) : Prop where
  ids : (types.map DmeType.dmeTypeId).Nodup
  identities : (types.map DmeType.identity).Nodup

section Keys

omit [DecidableEq J]

variable {headers : Headers} {db : Database J} {request : Request J} {types : List (DmeType J)}
  {jobs : List (DataJob J)}

theorem Keyed.effect (keyed : Keyed db.types) (effect : Effect validate headers db request types jobs) :
    Keyed types := by
  cases effect with
  | nothing | dropped | created | updated => exact keyed
  | defined body drawn type found may =>
    refine ⟨?_, ?_⟩
    · have ids : (modify DmeType.identity db.types body.identity fun type =>
          { type with definition := body.definition }).map DmeType.dmeTypeId =
          db.types.map DmeType.dmeTypeId := by
        rw [Table.modify, List.map_map]
        refine List.map_congr_left fun row _ => ?_
        simp only [Function.comp]
        split <;> rfl
      rw [ids]
      exact keyed.ids
    · rw [Table.keys_modify (fun type : DmeType J => { type with definition := body.definition })
        fun _ => rfl]
      exact keyed.identities
  | added body drawn registeredBy absent fresh =>
    exact ⟨@Table.nodup_snoc _ _ _ DmeType.dmeTypeId _
        ⟨drawn, body.identity, body.definition, registeredBy⟩ keyed.ids fresh,
      @Table.nodup_snoc _ _ _ DmeType.identity _
        ⟨drawn, body.identity, body.definition, registeredBy⟩ keyed.identities absent⟩
  | deleted id unsupported =>
    exact ⟨keyed.ids.sublist (List.filter_sublist.map _),
      keyed.identities.sublist (List.filter_sublist.map _)⟩

end Keys

section Ownership

variable (validate)

def Step (db : Database J) (call : Call J) (db' : Database J) : Prop := db' = serve validate db call

/-- A call of an rApp that is not the one that registered the type; if that is not known, not of
one of the type's producers. -/
def Foreign (start : Database J) (type : DmeType J) (call : Call J) : Prop :=
  call.headers.role = some .rapp ∧
    match type.registeredBy with
    | some owner => invokerId call.headers ≠ some owner
    | none => ∀ caller, invokerId call.headers = some caller →
        start.linked caller type.dmeTypeId = false

/-- Whatever foreign calls are made, the definition stored under the type's identity stays. -/
def Owned (type : DmeType J) (db : Database J) : Prop :=
  (db.typeOf type.identity).map DmeType.definition = some type.definition

/-- The request does not delete the type while no producer supports it, and where nobody is known to
have registered the type first, it is not a redefinition by one of its producers. -/
def Respects (type : DmeType J) (db : Database J) (call : Call J) : Prop :=
  match call.request with
  | .deleteType id => id = type.dmeTypeId → db.supported id = true
  | .registerType body _ =>
    type.registeredBy = none → body.identity = type.identity → body.definition ≠ type.definition →
      ∀ caller, invokerId call.headers = some caller → db.linked caller type.dmeTypeId = false
  | _ => True

end Ownership

section Proof

variable {start db : Database J} {type : DmeType J} {call : Call J}

omit [DecidableEq J] in
theorem Foreign.not_owner (foreign : Foreign start type call)
    {body : DmeTypeRegistration J} {drawn : Nat} (is : call.request = .registerType body drawn)
    (same : body.identity = type.identity) (differs : body.definition ≠ type.definition)
    (respects : Respects type db call) : mayRedefineType call.headers db type = false := by
  obtain ⟨rapp, foreign⟩ := foreign
  unfold mayRedefineType
  rw [rapp]
  rcases Option.eq_none_or_eq_some (invokerId call.headers) with nobody | ⟨caller, somebody⟩
  · rw [nobody]
  · rw [somebody]
    rcases Option.eq_none_or_eq_some type.registeredBy with unknown | ⟨owner, known⟩
    · simp only [Respects, is] at respects
      simp only [unknown]
      exact respects unknown same differs caller somebody
    · rw [known] at foreign
      simp only [known, decide_eq_false_iff_not]
      rintro rfl
      exact foreign somebody

theorem serve_keeps (keyed : Keyed db.types) (mem : type ∈ db.types)
    (foreign : Foreign start type call) (respects : Respects type db call) :
    type ∈ (serve validate db call).types := by
  have effect := @serve_effect J _ validate db call
  generalize is : call.request = request at effect
  generalize (serve validate db call).types = types at effect
  generalize (serve validate db call).jobs = jobs at effect
  cases effect with
  | nothing | dropped | created | updated => exact mem
  | added => exact List.mem_append_left _ mem
  | deleted id unsupported =>
    refine List.mem_filter.mpr ⟨mem, decide_eq_true fun same => ?_⟩
    simp only [Respects, is] at respects
    have supported := respects same.symm
    rw [unsupported] at supported
    cases supported
  | defined body drawn found at_ may =>
    refine List.mem_map.mpr ⟨type, mem, ?_⟩
    split
    · next same =>
      have found' := Table.get_of_mem keyed.identities mem
      rw [same] at found'
      cases at_.symm.trans found'
      rcases Decidable.em (type.definition = body.definition) with restated | differs
      · rw [← restated]
      · have refused := foreign.not_owner is same.symm (fun same => differs same.symm) respects
        rcases may with restated | allowed
        · exact absurd restated differs
        · rw [refused] at allowed
          cases allowed
    · rfl

end Proof

/-- While foreign calls respect the type, its definition stays. -/
theorem definition_kept {start db : Database J} {type : DmeType J}
    {trace : List (Runs.Step (Database J) (Call J))} (keyed : Keyed start.types)
    (registered : type ∈ start.types) (run : Run (Step validate) start trace db)
    (foreign : ∀ t ∈ trace, Foreign start type t.label)
    (respects : ∀ t ∈ trace, Respects type t.before t.label) : Owned type db := by
  have kept := run.invariant_of_guarded (fun db => Keyed db.types ∧ type ∈ db.types)
    (fun db call => Foreign start type call ∧ Respects type db call) ⟨keyed, registered⟩
    (fun db call db' held guard taken => by
      subst taken
      exact ⟨held.1.effect (serve_effect db call), serve_keeps held.1 held.2 guard.1 guard.2⟩)
    (fun t mem => ⟨foreign t mem, respects t mem⟩)
  rw [Owned, Database.typeOf, Table.get_of_mem kept.1.identities kept.2]
  rfl

def rapp (id : String) : Headers := { role := some .rapp, invokerId := some id.toList }

def loadType : DmeType Str where
  dmeTypeId := 1
  identity := ⟨"RAN".toList, "Load".toList, "1".toList⟩
  definition := { typeName := "RAN.Load".toList, dataProductionSchema := "object".toList }
  registeredBy := some "rapp-a".toList

def oneType : Database Str where
  types := [loadType]
  producers := [⟨"rapp-a".toList, [], []⟩]
  links := [⟨"rapp-a".toList, 1⟩]

def redefinition (producer : String) : DmeTypeRegistration Str where
  identity := loadType.identity
  definition := { loadType.definition with dataProductionSchema := "array".toList }
  producerId := producer.toList
  healthCallbackUrl := []
  jobCallbackUrl := []

def accepting : Str → Str → Option String := fun _ _ => none

def attempts : List (Call Str) :=
  [⟨rapp "rapp-b", .registerType (redefinition "rapp-b") 2⟩, ⟨rapp "rapp-b", .deleteType 1⟩,
   ⟨rapp "rapp-b", .registerType (redefinition "rapp-a") 3⟩]

theorem stranger : invokerId (rapp "rapp-b") ≠ some "rapp-a".toList := by decide

theorem attempts_refused :
    Owned loadType (attempts.foldl (serve accepting) oneType) := by
  refine @definition_kept _ _ accepting oneType _ loadType _ ⟨by decide, by decide⟩
    List.mem_cons_self (Runs.run_follow fun _ _ _ => rfl) ?_ ?_
  · intro t mem
    simp only [attempts, Runs.stepsOf, List.mem_cons, List.not_mem_nil, or_false] at mem
    rcases mem with rfl | rfl | rfl <;> exact ⟨rfl, stranger⟩
  · intro t mem
    simp only [attempts, Runs.stepsOf, List.mem_cons, List.not_mem_nil, or_false] at mem
    rcases mem with rfl | rfl | rfl
    · intro other
      cases other
    · exact fun _ => by decide
    · intro other
      cases other

/-- Another rApp deregisters the producer, deletes the type and registers it anew. -/
def takeover : List (Call Str) :=
  [⟨rapp "rapp-b", .deregisterProducer "rapp-a".toList⟩, ⟨rapp "rapp-b", .deleteType 1⟩,
   ⟨rapp "rapp-b", .registerType (redefinition "rapp-b") 2⟩]

theorem type_taken_over : ¬ ∀ (start db : Database Str) (type : DmeType Str)
    (trace : List (Runs.Step (Database Str) (Call Str))), Keyed start.types → type ∈ start.types →
    Run (Step accepting) start trace db → (∀ t ∈ trace, Foreign start type t.label) →
    Owned type db := by
  intro owned
  have run := @Runs.run_follow _ _ (Step accepting) (serve accepting) oneType takeover
    fun _ _ _ => rfl
  have kept := owned _ _ loadType _ ⟨by decide, by decide⟩ List.mem_cons_self run fun t mem => by
    simp only [takeover, Runs.stepsOf, List.mem_cons, List.not_mem_nil, or_false] at mem
    rcases mem with rfl | rfl | rfl <;> exact ⟨rfl, stranger⟩
  revert kept
  unfold Owned
  decide

def NoTwinInference (types : List (DmeType J)) (jobs : List (DataJob J)) : Prop :=
  ∀ job ∈ jobs, job.lifecycleStage = some inference → ∀ type ∈ types,
    type.dmeTypeId = job.dmeTypeId → type.definition.sourceDomain ≠ some digitalTwin

/-- A registration that makes an existing type's source a digital twin, and is not refused, finds
no job for inference of the type. -/
def Eligible (db : Database J) (call : Call J) : Prop :=
  match call.request with
  | .registerType body _ => ∀ type ∈ db.typeOf body.identity,
      body.definition.sourceDomain = some digitalTwin →
      (type.definition = body.definition ∨ mayRedefineType call.headers db type = true) →
      ∀ job ∈ db.jobs, job.dmeTypeId = type.dmeTypeId → job.lifecycleStage ≠ some inference
  | _ => True

/-- The keys of the tables hold, every job's type is there, and no twin feeds inference. -/
structure Fed (types : List (DmeType J)) (jobs : List (DataJob J)) : Prop where
  keyed : Keyed types
  distinct : (jobs.map DataJob.dataJobId).Nodup
  referenced : ∀ job ∈ jobs, ∃ type ∈ types, type.dmeTypeId = job.dmeTypeId
  safe : NoTwinInference types jobs

section Twins

omit [DecidableEq J]

variable {db : Database J} {call : Call J} {request : Request J} {types : List (DmeType J)}
  {jobs : List (DataJob J)} {body : DataJobRequest J}

theorem validateJob_eligible (keyed : Keyed db.types) (valid : validateJob validate db body = .ok ())
    (stage : body.lifecycleStage = some inference) {type : DmeType J} (mem : type ∈ db.types)
    (of : type.dmeTypeId = body.dmeTypeId) :
    type.definition.sourceDomain ≠ some digitalTwin := by
  obtain ⟨⟨⟩, -, valid⟩ := bind_ok valid
  obtain ⟨⟨⟩, -, valid⟩ := bind_ok valid
  have found : db.typeById body.dmeTypeId = some type := of ▸ Table.get_of_mem keyed.ids mem
  intro twin
  simp only [validateLifecycleEligibility, found, stage, twin] at valid
  split_ifs at valid with bad eligible
  simp at eligible

theorem Fed.effect (fed : Fed db.types db.jobs)
    (effect : Effect validate call.headers db call.request types jobs) (eligible : Eligible db call) :
    Fed types jobs := by
  refine ⟨fed.keyed.effect effect, ?_, ?_, ?_⟩
  · generalize call.request = request at effect
    cases effect with
    | nothing | defined | added => exact fed.distinct
    | deleted | dropped => exact fed.distinct.sublist (List.filter_sublist.map _)
    | created body drawn job of stage fresh => exact Table.nodup_snoc fed.distinct fresh
    | updated id body job found of change key =>
      rw [Table.keys_modify change key]
      exact fed.distinct
  · generalize call.request = request at effect
    cases effect with
    | nothing => exact fed.referenced
    | defined body drawn found at_ may =>
      intro job mem
      obtain ⟨type, there, of⟩ := fed.referenced job mem
      refine ⟨_, List.mem_map_of_mem there, ?_⟩
      split <;> exact of
    | added =>
      intro job mem
      obtain ⟨type, there, of⟩ := fed.referenced job mem
      exact ⟨type, List.mem_append_left _ there, of⟩
    | deleted id =>
      intro job mem
      obtain ⟨mem, other⟩ := List.mem_filter.mp mem
      obtain ⟨type, there, of⟩ := fed.referenced job mem
      exact ⟨type, List.mem_filter.mpr ⟨there, of ▸ other⟩, of⟩
    | dropped => exact fun job mem => fed.referenced job (List.mem_filter.mp mem).1
    | created body drawn job of stage fresh there valid =>
      intro other mem
      rcases List.mem_append.mp mem with old | new
      · exact fed.referenced other old
      · obtain rfl := List.mem_singleton.mp new
        obtain ⟨type, found⟩ := Option.isSome_iff_exists.mp there
        exact ⟨type, Table.mem_of_get found, (Table.key_of_get found).trans of.symm⟩
    | updated id body job found of change key keeps stage valid =>
      intro other mem
      obtain ⟨old, there, rfl⟩ := List.mem_map.mp mem
      obtain ⟨type, known, of⟩ := fed.referenced old there
      refine ⟨type, known, ?_⟩
      split
      · rw [keeps, of]
      · exact of
  · unfold Eligible at eligible
    generalize call.request = request at effect eligible
    cases effect with
    | nothing => exact fed.safe
    | defined body drawn type at_ may =>
      intro job mem stage row there of
      obtain ⟨old, known, rfl⟩ := List.mem_map.mp there
      split at of
      · next mine =>
        rw [if_pos mine]
        intro twin
        have found := Table.get_of_mem fed.keyed.identities known
        rw [mine] at found
        exact eligible old found twin (by cases at_.symm.trans found; exact may) job mem of.symm stage
      · next other =>
        rw [if_neg other]
        exact fed.safe job mem stage old known of
    | added body drawn registeredBy absent fresh =>
      intro job mem stage row there of
      rcases List.mem_append.mp there with old | new
      · exact fed.safe job mem stage row old of
      · obtain rfl := List.mem_singleton.mp new
        obtain ⟨type, known, same⟩ := fed.referenced job mem
        have found := Table.get_of_mem fed.keyed.ids known
        rw [same, ← of] at found
        cases fresh.symm.trans found
    | deleted id =>
      exact fun job mem stage row there of => fed.safe job (List.mem_filter.mp mem).1 stage row
        (List.mem_filter.mp there).1 of
    | dropped => exact fun job mem => fed.safe job (List.mem_filter.mp mem).1
    | created body drawn job same stage fresh there valid =>
      intro other mem stage' row known of
      rcases List.mem_append.mp mem with old | new
      · exact fed.safe other old stage' row known of
      · obtain rfl := List.mem_singleton.mp new
        exact validateJob_eligible fed.keyed valid (stage ▸ stage') known (of.trans same)
    | updated id body job found same change key keeps stage valid =>
      intro other mem stage' row known of
      obtain ⟨old, there, rfl⟩ := List.mem_map.mp mem
      split at of
      · next mine =>
        rw [if_pos mine, stage] at stage'
        have found' := Table.get_of_mem fed.distinct there
        rw [mine] at found'
        cases found.symm.trans found'
        exact validateJob_eligible fed.keyed valid stage' known
          (of.trans ((keeps _).trans same))
      · next differs =>
        rw [if_neg differs] at stage'
        exact fed.safe old there stage' row known of

end Twins

/-- From an empty database, a digital twin never comes to feed inference while no registration makes
a type that inference uses a digital twin. -/
theorem no_twin_inference {db : Database J} {trace : List (Runs.Step (Database J) (Call J))}
    (run : Run (Step validate) {} trace db) (eligible : ∀ t ∈ trace, Eligible t.before t.label) :
    NoTwinInference db.types db.jobs := by
  have fed := run.invariant_of_guarded (fun db => Fed db.types db.jobs) Eligible
    ⟨⟨List.nodup_nil, List.nodup_nil⟩, List.nodup_nil, nofun, nofun⟩
    (fun db call db' fed eligible taken => by
      subst taken
      exact fed.effect (serve_effect db call) eligible)
    eligible
  exact fed.safe

def inferenceJob : DataJobRequest Str where
  dataDeliveryMode := "CONTINUOUS".toList
  dmeTypeId := 1
  productionJobDefinition := []
  dataDeliveryMethod := "PUSH_HTTP".toList
  deliveryDetails := []
  consumerId := "rapp-c".toList
  lifecycleStage := some inference

def sourced (domain : Option Str) : DmeTypeRegistration Str where
  identity := loadType.identity
  definition := { loadType.definition with sourceDomain := domain }
  producerId := "rapp-a".toList
  healthCallbackUrl := []
  jobCallbackUrl := []

/-- A job for inference of a type whose owner turns its source into a digital twin, before the job
is created or after it. -/
def twinFirst (twin : Bool) : List (Call Str) :=
  let register (domain : Option Str) : Call Str := ⟨rapp "rapp-a", .registerType (sourced domain) 1⟩
  let job : Call Str := ⟨rapp "rapp-c", .createJob inferenceJob 7⟩
  if twin then [register none, register (some digitalTwin), job]
  else [register none, job, register (some digitalTwin)]

theorem twin_refused :
    NoTwinInference ((twinFirst true).foldl (serve accepting) {}).types
      ((twinFirst true).foldl (serve accepting) {}).jobs := by
  refine @no_twin_inference _ _ accepting _ _ (Runs.run_follow fun _ _ _ => rfl) ?_
  intro t mem
  simp only [twinFirst, if_true, Runs.stepsOf, List.mem_cons, List.not_mem_nil, or_false] at mem
  rcases mem with rfl | rfl | rfl
  · intro type found
    cases found
  · intro type found domain may job there
    cases there
  · trivial

theorem twin_feeds_inference : ¬ ∀ (trace : List (Runs.Step (Database Str) (Call Str)))
    (db : Database Str), Run (Step accepting) {} trace db → NoTwinInference db.types db.jobs := by
  intro never
  have run := @Runs.run_follow _ _ (Step accepting) (serve accepting) {} (twinFirst false)
    fun _ _ _ => rfl
  have safe := never _ _ run
  exact safe _ List.mem_cons_self rfl _ List.mem_cons_self rfl rfl

end Smo.Dme
