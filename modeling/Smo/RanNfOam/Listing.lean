import Smo.RanNfOam.ConfigJobs.Routes
import Smo.RanNfOam.Lifecycle.Operations
import Smo.RanNfOam.Scoping

/-! What a caller sees of the config jobs and of the software campaigns: the lists without
a filter, over all their pages, and the items by their ids. -/
namespace Smo.RanNfOam.Listing

open Sql ConfigJobs Lifecycle Ldn

structure Tables where
  store : Store := {}
  software : CampaignStore := {}
  msac : Msac.Db := {}
  keyed : (store.jobs.map (·.job.jobId)).Nodup := by decide

namespace Tables

def registry (db : Tables) : Registry := db.software.registry

end Tables

section Msac

variable (msac : Msac.Db)

/-- The roles of a caller that is asked: the switch is on and it is a registered identity. -/
def managedRoles (reachOn : Bool) (request : ConfigJobs.Request) : Option (List Msac.MsacRole) :=
  if !reachOn then none
  else
    match request.invokerId with
    | none => none
    | some requester =>
      let resolved := Msac.resolveRoles msac requester none
      if resolved.1 then some resolved.2 else none

def mayRead (roles : List Msac.MsacRole) (ref : String) : Except BadRdn Bool := do
  let target ← Msac.targetPath ref.toList none
  return Msac.authorize msac roles target .read

def unreadableOf (roles : List Msac.MsacRole) : List String → Except BadRdn (List String)
  | [] => .ok []
  | ref :: rest => do
    let readable ← mayRead msac roles ref
    let others ← unreadableOf roles rest
    return if readable then others else ref :: others

/-- The elements of the listed rows that the caller's access rules do not let it read. -/
def unreadableElements (asked : Option (List Msac.MsacRole)) (refs : List String) :
    Except BadRdn (List String) :=
  match asked with
  | none => .ok []
  | some roles => unreadableOf msac roles refs.eraseDups

end Msac

def undoing (jobs : List JobRows) (owned : List Nat) : List Nat :=
  (jobs.filter fun jr => jr.job.rollbackOf.any owned.contains).map (·.job.jobId)

/-- The recursive part of `owned_jobs`: the jobs of a level, those that undo them, and so on
for at most as many levels as there are jobs. -/
def ownedFrom (jobs : List JobRows) : Nat → List Nat → List Nat
  | 0, _ => []
  | levels + 1, owned => owned ++ ownedFrom jobs levels (undoing jobs owned)

/-- The ids of the jobs that belong to a caller: those it made and those that undo them. -/
def ownedJobs (jobs : List JobRows) (caller : Option String) : List Nat :=
  let made := jobs.filter fun jr => caller.isSome && jr.job.invokerId = caller
  ownedFrom jobs jobs.length (made.map (·.job.jobId))

def writtenTo (jobs : List JobRows) (elements : List String) (jobId : Nat) :
    Select (Nat × WriteConfigSubChange) where
  source := subChanges jobs
  conditions :=
    [fun row => equal (some row.1) (some jobId),
      fun row => isIn (some row.2.managedElementRef) (elements.map some)]

section Routes

variable (db : Tables) (request : ConfigJobs.Request) (reachOn : Bool)

def insideScope (stmt : Select JobRows) : Select JobRows :=
  if request.scope.isNone then stmt
  else stmt.limited fun jr =>
    Truth.not (outside db.registry db.store.jobs request.scope jr.job.jobId).present

def withoutHidden (hidden : List String) (stmt : Select JobRows) : Select JobRows :=
  if hidden.isEmpty then stmt
  else stmt.limited fun jr =>
    Truth.not (writtenTo db.store.jobs hidden jr.job.jobId).present

def ownedOnly (stmt : Select JobRows) : Select JobRows :=
  if request.ownJobsOnly then
    stmt.limited fun jr =>
      isIn (some jr.job.jobId) ((ownedJobs db.store.jobs request.invokerId).map some)
  else stmt

/-- `list_write_config_jobs`. -/
def listWriteConfigJobs : Except BadRdn (List JobRows) := do
  let stmt := insideScope db request ⟨db.store.jobs, []⟩
  let unreadable ← unreadableElements db.msac (managedRoles db.msac reachOn request)
    ((subChanges db.store.jobs).map (·.2.managedElementRef))
  return (ownedOnly db request (withoutHidden db unreadable stmt)).rows

def jobOwned (job : WriteConfigJob) : Bool :=
  !request.ownJobsOnly || jobOwnedBy db.store request.invokerId db.store.jobs.length job

/-- `query_write_config_job_status`. -/
def queryWriteConfigJobStatus (jobId : Nat) : Except Problem JobRows :=
  match db.store.job? jobId with
  | none => .error ⟨.configJobNotFound, s!"unknown jobId {jobId}"⟩
  | some jr =>
    if !jobOwned db request jr.job ||
        !(deniedRefs db.registry request.scope (jobElements db.store.jobs jobId)).isEmpty then
      .error ⟨.configJobNotFound, s!"unknown jobId {jobId}"⟩
    else .ok jr

def outsideJobs (s : CampaignRows) : Select SoftwareManagementJob where
  source := s.jobs
  conditions :=
    [fun job =>
      notIn (some job.managedElementRef)
        ((visibleElements db.registry request.scope).map some)]

/-- `list_software_campaigns`, each campaign with its id. -/
def listSoftwareCampaigns : List (CampaignRows × Nat) :=
  let stmt : Select (CampaignRows × Nat) := ⟨db.software.campaigns.zipIdx, []⟩
  let stmt :=
    if request.scope.isNone then stmt
    else stmt.limited fun c => Truth.not (outsideJobs db request c.1).present
  stmt.rows

/-- `get_software_campaign`. -/
def getSoftwareCampaign (campaignId : Nat) : Except Lifecycle.Raised CampaignRows :=
  db.software.campaignOr404 request.scope campaignId

end Routes

section Ownership

variable {jobs : List JobRows} {caller : Option String}

def above (store : Store) : Nat → WriteConfigJob → Option WriteConfigJob
  | 0, job => some job
  | steps + 1, job =>
    match job.rollbackOf.bind store.job? with
    | none => none
    | some earlier => above store steps earlier.job

/-- The job was made by the caller, or undoes one that was, at most so many undos above. -/
def Owned (store : Store) (caller : Option String) (levels : Nat) (job : WriteConfigJob) :
    Prop :=
  ∃ steps < levels, ∃ made, above store steps job = some made ∧
    caller.isSome ∧ made.invokerId = caller

variable {levels id : Nat} {owned : List Nat}

theorem jobOwnedBy_iff {store : Store} {job : WriteConfigJob} :
    jobOwnedBy store caller levels job = true ↔ Owned store caller levels job := by
  induction levels generalizing job with
  | zero => simp [jobOwnedBy, Owned]
  | succ levels ih =>
    rw [jobOwnedBy]
    constructor
    · intro owned
      split at owned
      next mine => exact ⟨0, by omega, job, rfl, mine⟩
      · cases found : job.rollbackOf.bind store.job? with
        | none => simp [found] at owned
        | some earlier =>
          simp only [found] at owned
          obtain ⟨steps, within, made, hmade, mine⟩ := ih.1 owned
          exact ⟨steps + 1, by omega, made, by simp [above, found, hmade], mine⟩
    · rintro ⟨steps, within, made, hmade, mine⟩
      cases steps with
      | zero =>
        cases hmade
        rw [if_pos mine]
      | succ steps =>
        split
        · rfl
        · cases found : job.rollbackOf.bind store.job? with
          | none => simp [above, found] at hmade
          | some earlier =>
            simp only [above, found] at hmade
            exact ih.2 ⟨steps, by omega, made, hmade, mine⟩

theorem mem_ownedFrom :
    id ∈ ownedFrom jobs levels owned ↔ ∃ steps < levels, id ∈ (undoing jobs)^[steps] owned := by
  induction levels generalizing owned with
  | zero => simp [ownedFrom]
  | succ levels ih =>
    rw [ownedFrom, List.mem_append, ih]
    constructor
    · rintro (now | ⟨steps, within, later⟩)
      · exact ⟨0, by omega, now⟩
      · exact ⟨steps + 1, by omega, later⟩
    · rintro ⟨steps, within, member⟩
      cases steps with
      | zero => exact Or.inl member
      | succ steps => exact Or.inr ⟨steps, by omega, member⟩

variable {store : Store}

theorem job?_eq_some_iff (keyed : (store.jobs.map (·.job.jobId)).Nodup) {jr : JobRows} :
    store.job? id = some jr ↔ jr ∈ store.jobs ∧ jr.job.jobId = id :=
  find?_key_iff keyed

theorem mem_undoing : id ∈ undoing jobs owned ↔
      ∃ jr ∈ jobs, jr.job.jobId = id ∧ ∃ undone ∈ owned, jr.job.rollbackOf = some undone := by
  simp only [undoing, List.mem_map, List.mem_filter, Option.any_eq_true,
    List.contains_iff_mem]
  constructor
  · rintro ⟨jr, ⟨member, undone, hundone, owned⟩, rfl⟩
    exact ⟨jr, member, rfl, undone, owned, hundone⟩
  · rintro ⟨jr, member, rfl, undone, owned, hundone⟩
    exact ⟨jr, ⟨member, undone, hundone, owned⟩, rfl⟩

theorem mem_undoing_iterate (keyed : (store.jobs.map (·.job.jobId)).Nodup) {steps : Nat}
    {made : List Nat} (mine : WriteConfigJob → Prop)
    (start : ∀ id, id ∈ made ↔ ∃ jr ∈ store.jobs, jr.job.jobId = id ∧ mine jr.job) :
    id ∈ (undoing store.jobs)^[steps] made ↔
      ∃ jr ∈ store.jobs, jr.job.jobId = id ∧
        ∃ root, above store steps jr.job = some root ∧ mine root := by
  induction steps generalizing id with
  | zero => simp [above, start]
  | succ steps ih =>
    rw [Function.iterate_succ_apply', mem_undoing]
    constructor
    · rintro ⟨jr, member, rfl, undone, owned, hundone⟩
      obtain ⟨earlier, inside, rfl, root, hroot, hmine⟩ := ih.1 owned
      have found := (job?_eq_some_iff keyed).2 ⟨inside, rfl⟩
      exact ⟨jr, member, rfl, root, by simp [above, hundone, found, hroot], hmine⟩
    · rintro ⟨jr, member, rfl, root, hroot, hmine⟩
      cases found : jr.job.rollbackOf.bind store.job? with
      | none => simp [above, found] at hroot
      | some earlier =>
        simp only [above, found] at hroot
        obtain ⟨undone, hundone, there⟩ := Option.bind_eq_some_iff.1 found
        obtain ⟨inside, rfl⟩ := (job?_eq_some_iff keyed).1 there
        exact ⟨jr, member, rfl, _, ih.2 ⟨earlier, inside, rfl, root, hroot, hmine⟩, hundone⟩

theorem mem_ownedJobs (keyed : (store.jobs.map (·.job.jobId)).Nodup) {jr : JobRows}
    (member : jr ∈ store.jobs) :
    jr.job.jobId ∈ ownedJobs store.jobs caller ↔
      jobOwnedBy store caller store.jobs.length jr.job = true := by
  have start : ∀ id, id ∈ (store.jobs.filter fun jr =>
        caller.isSome && jr.job.invokerId = caller).map (·.job.jobId) ↔
      ∃ jr ∈ store.jobs, jr.job.jobId = id ∧ caller.isSome ∧ jr.job.invokerId = caller := by
    intro id
    simp only [List.mem_map, List.mem_filter, Bool.and_eq_true, decide_eq_true_iff]
    constructor
    · rintro ⟨jr, ⟨inside, mine⟩, rfl⟩
      exact ⟨jr, inside, rfl, mine⟩
    · rintro ⟨jr, inside, rfl, mine⟩
      exact ⟨jr, ⟨inside, mine⟩, rfl⟩
  rw [ownedJobs, mem_ownedFrom, jobOwnedBy_iff, Owned]
  refine exists_congr fun steps => and_congr_right fun _ => ?_
  rw [mem_undoing_iterate keyed (fun job => caller.isSome ∧ job.invokerId = caller) start]
  constructor
  · rintro ⟨other, inside, same, root⟩
    rwa [List.inj_on_of_nodup_map keyed inside member same] at root
  · intro root
    exact ⟨jr, member, rfl, root⟩

end Ownership

section Reading

variable {msac : Msac.Db} {roles : List Msac.MsacRole}

variable {refs hidden : List String} {asked : Option (List Msac.MsacRole)}

theorem unreadableOf_ok (named : ∀ ref ∈ refs, ∃ readable, mayRead msac roles ref = .ok readable) :
    ∃ hidden, unreadableOf msac roles refs = .ok hidden ∧
      ∀ ref, ref ∈ hidden ↔ ref ∈ refs ∧ mayRead msac roles ref = .ok false := by
  induction refs with
  | nil => exact ⟨[], rfl, by simp⟩
  | cons first rest ih =>
    obtain ⟨readable, hreadable⟩ := named first (List.mem_cons_self ..)
    obtain ⟨hidden, hhidden, mem⟩ := ih fun ref inside => named ref (List.mem_cons_of_mem _ inside)
    refine ⟨if readable then hidden else first :: hidden, ?_, ?_⟩
    · rw [unreadableOf, hreadable]
      simp only [bind, Except.bind, hhidden, pure, Except.pure]
    · intro ref
      by_cases same : ref = first
      · subst same
        cases readable <;> simp [hreadable, mem]
      · cases readable <;> simp [same, mem]

theorem named_of_unreadableOf (h : unreadableOf msac roles refs = .ok hidden) :
    ∀ ref ∈ refs, ∃ readable, mayRead msac roles ref = .ok readable := by
  induction refs generalizing hidden with
  | nil => simp
  | cons first rest ih =>
    obtain ⟨readable, hreadable, h⟩ := bind_ok h
    obtain ⟨others, hothers, h⟩ := bind_ok h
    intro ref inside
    rcases List.mem_cons.1 inside with rfl | inside
    · exact ⟨readable, hreadable⟩
    · exact ih hothers ref inside

theorem unreadableElements_ok
    (named : ∀ roles ∈ asked, ∀ ref ∈ refs, ∃ readable, mayRead msac roles ref = .ok readable) :
    ∃ hidden, unreadableElements msac asked refs = .ok hidden ∧
      ∀ ref ∈ refs, ref ∈ hidden ↔ ∃ roles ∈ asked, mayRead msac roles ref = .ok false := by
  cases asked with
  | none => exact ⟨[], rfl, by simp⟩
  | some roles =>
    obtain ⟨hidden, hhidden, mem⟩ := unreadableOf_ok fun ref inside =>
      named roles rfl ref (List.mem_eraseDups.1 inside)
    refine ⟨hidden, hhidden, fun ref inside => ?_⟩
    rw [mem]
    simp [List.mem_eraseDups, inside]

theorem named_of_unreadableElements (h : unreadableElements msac asked refs = .ok hidden) :
    ∀ roles ∈ asked, ∀ ref ∈ refs, ∃ readable, mayRead msac roles ref = .ok readable := by
  rintro roles rfl ref inside
  exact named_of_unreadableOf h ref (List.mem_eraseDups.2 inside)

end Reading

theorem mem_subChanges {jobs : List JobRows} (keyed : (jobs.map (·.job.jobId)).Nodup)
    {jr : JobRows} (member : jr ∈ jobs) {row : WriteConfigSubChange} :
    (jr.job.jobId, row) ∈ subChanges jobs ↔ row ∈ jr.rows := by
  simp only [subChanges, List.mem_flatMap, List.mem_map, Prod.mk.injEq]
  constructor
  · rintro ⟨other, inside, written, there, same, rfl⟩
    rwa [List.inj_on_of_nodup_map keyed inside member same] at there
  · intro there
    exact ⟨jr, member, row, there, rfl, rfl⟩

theorem written_iff {jobs : List JobRows} {elements : List String} {jobId : Nat} :
    Truth.not (writtenTo jobs elements jobId).present = some true ↔
      ∀ row, (jobId, row) ∈ subChanges jobs → row.managedElementRef ∉ elements := by
  simp only [Select.present, Select.rows, writtenTo, Truth.not_some, Option.some.injEq,
    Bool.not_not, List.isEmpty_iff, List.filter_eq_nil_iff, List.all_cons, List.all_nil, equal,
    isIn_some, Bool.and_true, Bool.and_eq_true, beq_iff_eq, decide_eq_true_iff, not_and]
  constructor
  · intro none row inside
    exact none (jobId, row) inside rfl
  · rintro none ⟨owner, row⟩ inside rfl
    exact none row inside

section Agreement

variable (db : Tables) (request : ConfigJobs.Request) (reachOn : Bool)

structure InReach (jr : JobRows) : Prop where
  owned : request.ownJobsOnly = true →
    jobOwnedBy db.store request.invokerId db.store.jobs.length jr.job = true
  permitted : ∀ row ∈ jr.rows, elementPermitted db.registry request.scope
    row.managedElementRef = true

/-- What the access rules say of a config job, for a caller they are asked for: every element
reference in the table can be read as a name, and the job wrote to readable elements only. -/
structure Readable (jr : JobRows) : Prop where
  named : ∀ roles ∈ managedRoles db.msac reachOn request, ∀ other ∈ db.store.jobs,
    ∀ row ∈ other.rows, ∃ readable, mayRead db.msac roles row.managedElementRef = .ok readable
  readable : ∀ roles ∈ managedRoles db.msac reachOn request, ∀ row ∈ jr.rows,
    mayRead db.msac roles row.managedElementRef = .ok true

variable {db request reachOn} {jr : JobRows}

theorem jobElements_iff (member : jr ∈ db.store.jobs) (holds : String → Prop) :
    (∀ ref ∈ jobElements db.store.jobs jr.job.jobId, holds ref) ↔
      ∀ row ∈ jr.rows, holds row.managedElementRef := by
  simp only [mem_jobElements, mem_subChanges db.keyed member]
  constructor
  · intro all row inside
    exact all _ ⟨row, inside, rfl⟩
  · rintro all ref ⟨row, inside, rfl⟩
    exact all row inside

theorem permitted_iff (member : jr ∈ db.store.jobs) :
    deniedRefs db.registry request.scope (jobElements db.store.jobs jr.job.jobId) = [] ↔
      ∀ row ∈ jr.rows, elementPermitted db.registry request.scope row.managedElementRef = true :=
  deniedRefs_eq_nil.trans
    (jobElements_iff member fun ref => elementPermitted db.registry request.scope ref = true)

theorem queryWriteConfigJobStatus_iff (member : jr ∈ db.store.jobs) :
    queryWriteConfigJobStatus db request jr.job.jobId = .ok jr ↔ InReach db request jr := by
  have found := (job?_eq_some_iff db.keyed).2 ⟨member, rfl⟩
  rw [queryWriteConfigJobStatus, found]
  dsimp only
  constructor
  · intro answered
    split at answered
    · cases answered
    next allowed =>
      simp only [Bool.or_eq_true, Bool.not_eq_true', List.isEmpty_iff, not_or,
        Bool.not_eq_false, jobOwned] at allowed
      refine ⟨fun own => ?_, (permitted_iff member).1 allowed.2⟩
      simpa [own] using allowed.1
  · intro reach
    rw [if_neg]
    simp only [Bool.or_eq_true, Bool.not_eq_true', List.isEmpty_iff, not_or, Bool.not_eq_false,
      jobOwned]
    refine ⟨?_, (permitted_iff member).2 reach.permitted⟩
    cases own : request.ownJobsOnly with
    | false => exact Or.inl rfl
    | true => exact Or.inr (reach.owned own)

variable {stmt : Select JobRows} {s : CampaignRows} {id : Nat}

theorem mem_insideScope (member : jr ∈ db.store.jobs) :
    jr ∈ (insideScope db request stmt).rows ↔ jr ∈ stmt.rows ∧
      ∀ row ∈ jr.rows, elementPermitted db.registry request.scope row.managedElementRef =
        true := by
  rw [insideScope, ← permitted_iff member]
  cases request.scope with
  | none => simp [deniedRefs]
  | some claim => rw [if_neg (by simp), Select.mem_limited, not_outside_iff]

theorem mem_withoutHidden {hidden : List String} (member : jr ∈ db.store.jobs) :
    jr ∈ (withoutHidden db hidden stmt).rows ↔ jr ∈ stmt.rows ∧
      ∀ row ∈ jr.rows, row.managedElementRef ∉ hidden := by
  rw [withoutHidden]
  split
  next none =>
    rw [List.isEmpty_iff] at none
    simp [none]
  · rw [Select.mem_limited, written_iff]
    simp only [mem_subChanges db.keyed member]

theorem mem_ownedOnly (member : jr ∈ db.store.jobs) :
    jr ∈ (ownedOnly db request stmt).rows ↔ jr ∈ stmt.rows ∧
      (request.ownJobsOnly = true →
        jobOwnedBy db.store request.invokerId db.store.jobs.length jr.job = true) := by
  rw [ownedOnly]
  split
  next own =>
    rw [Select.mem_limited, isIn_some, ← mem_ownedJobs db.keyed member]
    simp [own]
  next free => simp [free]

theorem mem_listWriteConfigJobs (member : jr ∈ db.store.jobs) :
    (∃ items, listWriteConfigJobs db request reachOn = .ok items ∧ jr ∈ items) ↔
      InReach db request jr ∧ Readable db request reachOn jr := by
  have refs : ∀ {holds : String → Prop},
      (∀ ref ∈ (subChanges db.store.jobs).map (·.2.managedElementRef), holds ref) ↔
        ∀ other ∈ db.store.jobs, ∀ row ∈ other.rows, holds row.managedElementRef := by
    intro holds
    simp only [subChanges, List.map_flatMap, List.map_map, List.forall_mem_flatMap,
      List.forall_mem_map, Function.comp_apply]
  constructor
  · rintro ⟨items, answered, inside⟩
    obtain ⟨hidden, hhidden, answered⟩ := bind_ok answered
    cases answered
    have named := named_of_unreadableElements hhidden
    obtain ⟨hidden', hhidden', mem⟩ := unreadableElements_ok named
    obtain rfl : hidden = hidden' := Except.ok.inj (hhidden.symm.trans hhidden')
    rw [mem_ownedOnly member, mem_withoutHidden member, mem_insideScope member] at inside
    obtain ⟨⟨⟨-, permitted⟩, clear⟩, owned⟩ := inside
    refine ⟨⟨owned, permitted⟩, fun roles asked => refs.1 (named roles asked), ?_⟩
    intro roles asked row there
    obtain ⟨readable, hreadable⟩ := refs.1 (named roles asked) jr member row there
    cases readable with
    | true => exact hreadable
    | false =>
      have hides := (refs.1 mem jr member row there).2 ⟨roles, asked, hreadable⟩
      exact absurd hides (clear row there)
  · rintro ⟨reach, readable⟩
    have named : ∀ roles ∈ managedRoles db.msac reachOn request,
        ∀ ref ∈ (subChanges db.store.jobs).map (·.2.managedElementRef),
          ∃ readable, mayRead db.msac roles ref = .ok readable :=
      fun roles asked => refs.2 (readable.named roles asked)
    obtain ⟨hidden, hhidden, mem⟩ := unreadableElements_ok named
    refine ⟨_, by rw [listWriteConfigJobs, hhidden]; rfl, ?_⟩
    rw [mem_ownedOnly member, mem_withoutHidden member, mem_insideScope member]
    refine ⟨⟨⟨by simpa using member, reach.permitted⟩, fun row there hides => ?_⟩, reach.owned⟩
    obtain ⟨roles, asked, unread⟩ := (refs.1 mem jr member row there).1 hides
    rw [readable.readable roles asked row there] at unread
    cases unread

theorem mem_listSoftwareCampaigns (found : db.software.campaigns[id]? = some s) :
    (s, id) ∈ listSoftwareCampaigns db request ↔
      ∀ job ∈ s.jobs, elementPermitted db.registry request.scope job.managedElementRef = true := by
  have member : (s, id) ∈ db.software.campaigns.zipIdx := List.mk_mem_zipIdx_iff_getElem?.2 found
  rw [listSoftwareCampaigns]
  cases claim : request.scope with
  | none => simp [member, elementPermitted]
  | some value =>
    rw [if_neg (by simp), Select.mem_limited, Select.rows_table]
    simp [member, Select.present, Select.rows, outsideJobs, notIn, isIn_some, claim,
      mem_visibleElements_some]

theorem getSoftwareCampaign_iff (found : db.software.campaigns[id]? = some s) :
    getSoftwareCampaign db request id = .ok s ↔
      ∀ ref ∈ s.c.elements, elementPermitted db.registry request.scope ref = true := by
  rw [← deniedRefs_eq_nil, getSoftwareCampaign, CampaignStore.campaignOr404, found, Tables.registry]
  dsimp only
  split
  next denied => simp [denied, CampaignStore.refuse]
  next allowed => simpa using allowed

end Agreement

def Outside (db : Tables) (request : ConfigJobs.Request) (ref : String) : Prop :=
  elementPermitted db.registry request.scope ref = false

/-- A config job is listed exactly when its item answers unless it is in reach and not
readable; a campaign unless only elements without a job, or only jobs, are outside the scope. -/
theorem list_item_agree_iff (db : Tables) (request : ConfigJobs.Request) (reachOn : Bool) :
    (∀ jr ∈ db.store.jobs,
      (((∃ items, listWriteConfigJobs db request reachOn = .ok items ∧ jr ∈ items) ↔
          queryWriteConfigJobStatus db request jr.job.jobId = .ok jr) ↔
        (InReach db request jr → Readable db request reachOn jr))) ∧
    ∀ (id : Nat) (s : CampaignRows), db.software.campaigns[id]? = some s →
      (((s, id) ∈ listSoftwareCampaigns db request ↔ getSoftwareCampaign db request id = .ok s) ↔
        ((∃ ref ∈ s.c.elements, Outside db request ref) ↔
          ∃ job ∈ s.jobs, Outside db request job.managedElementRef)) := by
  constructor
  · intro jr member
    rw [mem_listWriteConfigJobs member, queryWriteConfigJobStatus_iff member]
    exact and_iff_left_iff_imp
  · intro id s found
    rw [mem_listSoftwareCampaigns found, getSoftwareCampaign_iff found]
    have elements : (∃ ref ∈ s.c.elements, Outside db request ref) ↔
        ¬ ∀ ref ∈ s.c.elements, elementPermitted db.registry request.scope ref = true := by
      simp [Outside]
    have jobs : (∃ job ∈ s.jobs, Outside db request job.managedElementRef) ↔
        ¬ ∀ job ∈ s.jobs, elementPermitted db.registry request.scope job.managedElementRef =
          true := by
      simp [Outside]
    rw [elements, jobs, not_iff_not]
    exact iff_comm

def northJob : JobRows where
  job := {
    jobId := 1, requestedBy := "operator", scope := "cell", msacRole := none, rollbackOf := none
    rollbackForced := false, waveSize := none, wavePauseSeconds := 0, waveCount := 1
    gateMaxNewAlarms := 0, onGateFailure := .halt, invokerId := none, createdAt := 0
    kpiGuard := none, scheduledAt := none, windowEnd := none }
  rows := [{
    managedElementRef := "ME-1", managedFunctionRef := none, attributeChanges := []
    operation := "merge", position := 0, wave := 1 }]

/-- A campaign over a northern and a southern element whose first wave is in the north, and
a config job on the northern one. -/
def firstWaveNorth : Tables where
  store := { jobs := [northJob] }
  software := {
    campaigns := [{
      c := {
        name := "upgrade", requestedBy := "operator", status := .running
        elements := ["ME-1", "ME-2"], waveSize := some ⟨1, Nat.one_pos⟩, waveCount := 2
        currentWave := 1 }
      jobs := [{ managedElementRef := "ME-1", campaignWave := 1 }] }]
    registry := { rows := [
      { managedElementRef := "ME-1", entityType := "gNB", region := some "north" },
      { managedElementRef := "ME-2", entityType := "gNB", region := some "south" }] } }
  msac := { identities := [{ identityName := "rapp-1", roleList := [] }] }
  keyed := List.nodup_singleton _

def northOnly : ConfigJobs.Request where
  role := .rapp
  invoker := some "rapp-2"
  scope := some { regions := some ["north"] }

def managedRapp : ConfigJobs.Request where
  role := .rapp
  invoker := some "rapp-1"

/-- The list shows a campaign whose item is not found, and hides a job whose item answers. -/
theorem list_and_item_disagree :
    (¬ ∀ (id : Nat) (s : CampaignRows), firstWaveNorth.software.campaigns[id]? = some s →
      ((s, id) ∈ listSoftwareCampaigns firstWaveNorth northOnly ↔
        getSoftwareCampaign firstWaveNorth northOnly id = .ok s)) ∧
    ¬ ∀ jr ∈ firstWaveNorth.store.jobs,
      ((∃ items, listWriteConfigJobs firstWaveNorth managedRapp true = .ok items ∧ jr ∈ items) ↔
        queryWriteConfigJobStatus firstWaveNorth managedRapp jr.job.jobId = .ok jr) := by
  constructor
  · intro agree
    have answered := (agree 0 _ rfl).1 (by decide)
    exact absurd answered (by decide)
  · intro agree
    obtain ⟨items, listed, member⟩ := (agree _ (List.mem_cons_self ..)).2 (by decide)
    have hidden : listWriteConfigJobs firstWaveNorth managedRapp true = .ok [] := by decide
    obtain rfl : items = [] := Except.ok.inj (listed.symm.trans hidden)
    exact absurd member List.not_mem_nil

/-- With the access rules off for reads the job is listed as its item answers. -/
theorem unasked_list_item_agree :
    (∃ items, listWriteConfigJobs firstWaveNorth managedRapp false = .ok items ∧
        northJob ∈ items) ↔
      queryWriteConfigJobStatus firstWaveNorth managedRapp 1 = .ok northJob := by
  refine ((list_item_agree_iff firstWaveNorth managedRapp false).1 northJob (by decide)).2 ?_
  intro _
  have unasked : managedRoles firstWaveNorth.msac false managedRapp = none := rfl
  refine ⟨?_, ?_⟩
  · intro roles asked
    cases unasked.symm.trans asked
  · intro roles asked
    cases unasked.symm.trans asked

end Smo.RanNfOam.Listing
