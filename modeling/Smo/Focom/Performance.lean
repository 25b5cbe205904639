import Smo.Lib.Json.Load

/-! Performance subscriptions and the reports of ingested records (`focom/app/fcaps.py`). -/
namespace Smo.Focom.Performance

open Json (Text Value)

def text (value : String) : Text := value.toList.map Char.toNat

inductive Criteria
  | jobCriteria
  | resourceTypeCriteria
  | resourceCriteria
  | measurementCriteria
  deriving DecidableEq

namespace Criteria

def all : List Criteria := [jobCriteria, resourceTypeCriteria, resourceCriteria, measurementCriteria]

def field : Criteria → Text
  | jobCriteria => text "jobCriteria"
  | resourceTypeCriteria => text "resourceTypeCriteria"
  | resourceCriteria => text "resourceCriteria"
  | measurementCriteria => text "measurementCriteria"

/-- `CRITERIA_KEYS` -/
def key : Criteria → Text
  | jobCriteria => text "performanceMeasurementJobId"
  | resourceTypeCriteria => text "resourceTypeId"
  | resourceCriteria => text "resourceId"
  | measurementCriteria => text "performanceMeasurementDefinitionId"

def ofField (name : Text) : Option Criteria := all.find? (·.field = name)

theorem mem_all (criteria : Criteria) : criteria ∈ all := by
  cases criteria <;> decide

end Criteria

abbrev Entry := List (Text × Value)

def items : Value → Option (List Value)
  | .arr values => some values
  | .obj entries => some (entries.map fun entry => .str entry.1)
  | .str codes => some (codes.map fun code => .str [code])
  | _ => none

def Value.isText (expected : Text) : Value → Bool
  | .str found => found = expected
  | _ => false

def isPair (criteria : Criteria) : Value → Bool
  | .obj entries =>
    (entries.lookup (text "key")).any (Value.isText criteria.key) &&
      (entries.lookup (text "value")).isSome
  | _ => false

/-- Why a request is refused with 422; a list that is none raises, which is a 500. -/
inductive Problem
  | unsupportedFormat
  | unknownField (field : Text)
  | notPairs (criteria : Criteria)
  | notIterable
  | unknownJob
  | inactiveJob
  | notPercentage
  deriving DecidableEq

/-- `create_performance_subscription`, one field of an entry. -/
def checkField (field : Text) (value : Value) : Except Problem Unit :=
  match Criteria.ofField field with
  | none => .error (.unknownField field)
  | some criteria =>
    match items value with
    | none => .error .notIterable
    | some pairs => if pairs.all (isPair criteria) then .ok () else .error (.notPairs criteria)

def checkEntry : Entry → Except Problem Unit
  | [] => .ok ()
  | (field, value) :: rest => do
    checkField field value
    checkEntry rest

def checkCriteria : List Entry → Except Problem Unit
  | [] => .ok ()
  | entry :: rest => do
    checkEntry entry
    checkCriteria rest

structure PerformanceSubscription where
  subscriptionId : Text
  consumerSubscriptionId : Option Text := none
  globalSubscriptionCriteria : List Entry
  callback : String
  accepted : checkCriteria globalSubscriptionCriteria = .ok ()

inductive ReportFormat
  | notification
  | file
  | stream
  deriving DecidableEq

structure PerformanceSubscriptionBody where
  consumerPerformanceSubscriptionId : Option Text := none
  globalSubscriptionCriteria : List Entry := []
  reportFormat : ReportFormat := .notification
  callback : String

inductive JobState
  | active
  | suspended
  | deprecated
  deriving DecidableEq

inductive JobStatus
  | running
  | idle
  deriving DecidableEq

/-- `job_id` is kept by its text. -/
structure PerformanceJob where
  jobId : Text
  consumerJobId : Option Text := none
  state : JobState := .active
  status : JobStatus := .idle

structure Resource where
  resourceId : Text
  resourceTypeId : Text

/-- `F`: the numbers that a measurement can be. -/
inductive Measurement (F : Type)
  | scalar (value : F)
  | object (value : Value)

/-- `OCloudPerformanceMetric` -/
structure Metric (F : Type) where
  resourceRef : Text
  metricName : Text
  measurement : Measurement F
  isSuspect : Bool
  jobId : Option Text
  collectedAt : Int

structure PerformanceIngestBody (F : Type) where
  resourceId : Text
  performanceMeasurementDefinitionId : Text
  measurementValue : Measurement F
  performanceMeasurementJobId : Option Text := none
  timeStamp : Option Int := none
  isSuspect : Bool := false

/-- A `PerformanceMeasurementReport` on its way to the callback of a subscription. -/
structure Report (F : Type) where
  destination : String
  performanceSubscriptionId : Text
  consumerPerformanceSubscriptionId : Option Text
  performanceJobId : Text
  consumerJobId : Option Text
  metric : Metric F

structure State (F : Type) where
  resources : List Resource := []
  jobs : List PerformanceJob := []
  subscriptions : List PerformanceSubscription := []
  metrics : List (Metric F) := []
  outbox : List (Report F) := []

/-- `entry.get(field) or []`: what is no list is empty or was refused. -/
def Entry.pairs (entry : Entry) (criteria : Criteria) : List Value :=
  match entry.lookup criteria.field with
  | some (.arr values) => values
  | _ => []

def wanted : Value → List Value
  | .obj entries =>
    match entries.lookup (text "value") with
    | some (.arr values) => values
    | some value => [value]
    | none => []
  | _ => []

def Value.is (actual : Option Text) : Value → Bool
  | .str found => actual = some found
  | .null => actual = none
  | _ => false

def includes (actual : Option Text) (pair : Value) : Bool := (wanted pair).any (Value.is actual)

section Matching

variable {F : Type}

def Metric.actual (record : Metric F) (resourceTypeId : Option Text) : Criteria → Option Text
  | .jobCriteria => record.jobId
  | .resourceTypeCriteria => resourceTypeId
  | .resourceCriteria => some record.resourceRef
  | .measurementCriteria => some record.metricName

/-- `_criteria_match`: the first pair that does not include the record's value ends the loops. -/
def criteriaMatch (actual : Criteria → Option Text) (entry : Entry) : Bool :=
  Criteria.all.all fun criteria => (entry.pairs criteria).all (includes (actual criteria))

def PerformanceSubscription.admits (sub : PerformanceSubscription)
    (actual : Criteria → Option Text) : Bool :=
  sub.globalSubscriptionCriteria.isEmpty ||
    sub.globalSubscriptionCriteria.any (criteriaMatch actual)

def PerformanceSubscription.report (sub : PerformanceSubscription) (job : PerformanceJob)
    (record : Metric F) : Report F where
  destination := sub.callback
  performanceSubscriptionId := sub.subscriptionId
  consumerPerformanceSubscriptionId := sub.consumerSubscriptionId
  performanceJobId := job.jobId
  consumerJobId := job.consumerJobId
  metric := record

end Matching

section Requests

/-- `UTILISATION_MEASUREMENTS` -/
def utilisationMeasurements : List Text := [text "CPU_UTILIZATION", text "MEMORY_UTILIZATION"]

variable {F : Type} (uuid : Text → Option Text) (inPercent : F → Bool) (s : State F)

/-- `create_performance_subscription` -/
def State.createPerformanceSubscription (body : PerformanceSubscriptionBody) (subscriptionId : Text) :
    Except Problem (State F) :=
  if body.reportFormat = .notification then
    match accepted : checkCriteria body.globalSubscriptionCriteria with
    | .ok () => .ok { s with
        subscriptions := s.subscriptions ++ [{
          subscriptionId
          consumerSubscriptionId := body.consumerPerformanceSubscriptionId
          globalSubscriptionCriteria := body.globalSubscriptionCriteria
          callback := body.callback
          accepted }] }
    | .error problem => .error problem
  else .error .unsupportedFormat

/-- `_resource_type_of`: `uuid` reads a text as `uuid.UUID` does. -/
def State.resourceTypeOf (resourceRef : Text) : Option Text :=
  (uuid resourceRef).bind fun id =>
    (s.resources.find? (·.resourceId = id)).map (·.resourceTypeId)

def State.job? (jobId : Text) : Option PerformanceJob := s.jobs.find? (·.jobId = jobId)

def State.actual (record : Metric F) : Criteria → Option Text :=
  record.actual (s.resourceTypeOf uuid record.resourceRef)

/-- `_report` -/
def State.report (record : Metric F) : Option PerformanceJob → List (Report F)
  | none => []
  | some job =>
    (s.subscriptions.filter (·.admits (s.actual uuid record))).map (·.report job record)

def State.jobOf : Option Text → Except Problem (Option PerformanceJob)
  | none => .ok none
  | some id =>
    match s.job? id with
    | none => .error .unknownJob
    | some job => if job.state = .active then .ok (some job) else .error .inactiveJob

/-- `_check_utilisation_value`: `inPercent` says that a number is from 0 to 100. -/
def isPercentage : Measurement F → Bool
  | .scalar value => inPercent value
  | .object _ => false

def PerformanceIngestBody.record (body : PerformanceIngestBody F) (now : Int) : Metric F where
  resourceRef := body.resourceId
  metricName := body.performanceMeasurementDefinitionId
  measurement := body.measurementValue
  isSuspect := body.isSuspect
  jobId := body.performanceMeasurementJobId
  collectedAt := body.timeStamp.getD now

/-- `ingest_performance_record`, with the number of reports that it enqueued. -/
def State.ingest (body : PerformanceIngestBody F) (now : Int) : Except Problem (State F × Nat) :=
  match s.jobOf body.performanceMeasurementJobId with
  | .error problem => .error problem
  | .ok job =>
    if utilisationMeasurements.contains body.performanceMeasurementDefinitionId &&
        !isPercentage inPercent body.measurementValue then .error .notPercentage
    else
      let reports := s.report uuid (body.record now) job
      .ok ({ s with
        jobs := s.jobs.map fun row =>
          if body.performanceMeasurementJobId = some row.jobId then { row with status := .running }
          else row
        metrics := s.metrics ++ [body.record now]
        outbox := s.outbox ++ reports }, reports.length)

end Requests

section Property

def Entry.asks (entry : Entry) (actual : Criteria → Option Text) : Bool :=
  Criteria.all.all fun criteria =>
    (entry.pairs criteria).isEmpty || (entry.pairs criteria).any (includes (actual criteria))

def PerformanceSubscription.asks (sub : PerformanceSubscription) (actual : Criteria → Option Text) :
    Bool :=
  sub.globalSubscriptionCriteria.isEmpty || sub.globalSubscriptionCriteria.any (·.asks actual)

def Entry.NamesOnly (entry : Entry) (actual : Criteria → Option Text) : Prop :=
  ∀ criteria, ∀ pair ∈ entry.pairs criteria, includes (actual criteria) pair = true

structure Addition where
  before : PerformanceSubscription
  after : PerformanceSubscription
  front : List Entry
  back : List Entry
  entry : Entry
  entry' : Entry
  criteria : Criteria
  pair : Value
  was : before.globalSubscriptionCriteria = front ++ entry :: back
  becomes : after.globalSubscriptionCriteria = front ++ entry' :: back
  added : ∃ first last, entry.pairs criteria = first ++ last ∧
    entry'.pairs criteria = first ++ pair :: last
  same : ∀ other, other ≠ criteria → entry'.pairs other = entry.pairs other

variable {F : Type} (uuid : Text → Option Text)

/-- The subscriptions that asked for a record get a report of it each, and no others. -/
structure Delivered (s : State F) (body : PerformanceIngestBody F) (now : Int) (s' : State F)
    (notified : Nat) : Prop where
  jobless : body.performanceMeasurementJobId = none → s'.outbox = s.outbox ∧ notified = 0
  linked : ∀ id job, body.performanceMeasurementJobId = some id → s.job? id = some job →
    s'.outbox = s.outbox ++ (s.subscriptions.filter
      (·.asks (s.actual uuid (body.record now)))).map (·.report job (body.record now)) ∧
    notified = (s.subscriptions.filter (·.asks (s.actual uuid (body.record now)))).length

/-- A subscription that asks for a job's record has an entry that names nothing else. -/
def Agreeing (s : State F) (body : PerformanceIngestBody F) (now : Int) : Prop :=
  body.performanceMeasurementJobId.isSome → ∀ sub ∈ s.subscriptions,
    ∀ entry ∈ sub.globalSubscriptionCriteria, entry.asks (s.actual uuid (body.record now)) = true →
      ∃ other ∈ sub.globalSubscriptionCriteria, other.NamesOnly (s.actual uuid (body.record now))

/-- Where the entry names nothing but the record, so does the added pair or another entry. -/
def Addition.Fits (addition : Addition) (actual : Criteria → Option Text) : Prop :=
  addition.entry.NamesOnly actual → includes (actual addition.criteria) addition.pair = true ∨
    ∃ other ∈ addition.front ++ addition.back, other.NamesOnly actual

end Property

section Proofs

variable {actual : Criteria → Option Text} {entry : Entry} {sub : PerformanceSubscription}

theorem criteriaMatch_iff : criteriaMatch actual entry = true ↔ entry.NamesOnly actual := by
  simp only [criteriaMatch, List.all_eq_true]
  exact ⟨fun all criteria => all criteria criteria.mem_all, fun only criteria _ => only criteria⟩

theorem asks_of_names (only : entry.NamesOnly actual) : entry.asks actual = true := by
  refine List.all_eq_true.mpr fun criteria _ => ?_
  cases pairs : entry.pairs criteria with
  | nil => rfl
  | cons pair rest => simp [only criteria pair (by simp [pairs])]

theorem admits_iff : sub.admits actual = true ↔ sub.globalSubscriptionCriteria = [] ∨
    ∃ entry ∈ sub.globalSubscriptionCriteria, entry.NamesOnly actual := by
  simp [PerformanceSubscription.admits, criteriaMatch_iff]

theorem asks_iff : sub.asks actual = true ↔ sub.globalSubscriptionCriteria = [] ∨
    ∃ entry ∈ sub.globalSubscriptionCriteria, entry.asks actual = true := by
  simp [PerformanceSubscription.asks]

theorem asks_of_admits (admits : sub.admits actual = true) : sub.asks actual = true :=
  asks_iff.mpr ((admits_iff.mp admits).imp_right fun ⟨entry, mem, only⟩ =>
    ⟨entry, mem, asks_of_names only⟩)

theorem filter_same {α : Type} {rows : List α} {p q : α → Bool} (less : ∀ row, p row → q row) :
    (rows.filter p).length = (rows.filter q).length ↔ ∀ row ∈ rows, q row → p row := by
  constructor
  · intro long row mem keeps
    have same := (List.monotone_filter_right rows less).eq_of_length long
    have inFirst : row ∈ rows.filter p := same ▸ List.mem_filter.mpr ⟨mem, keeps⟩
    exact (List.mem_filter.mp inFirst).2
  · intro more
    refine congrArg List.length (List.filter_congr fun row mem => ?_)
    exact Bool.eq_iff_iff.mpr ⟨less row, more row mem⟩

theorem Addition.names_after (addition : Addition) : addition.entry'.NamesOnly actual ↔
    addition.entry.NamesOnly actual ∧
      includes (actual addition.criteria) addition.pair = true := by
  obtain ⟨first, last, was, becomes⟩ := addition.added
  constructor
  · intro only
    refine ⟨fun criteria pair mem => ?_, only addition.criteria addition.pair (by simp [becomes])⟩
    by_cases own : criteria = addition.criteria
    · subst own
      refine only _ pair ?_
      rw [was] at mem
      rw [becomes]
      rcases List.mem_append.mp mem with inFirst | inLast
      · exact List.mem_append_left _ inFirst
      · exact List.mem_append_right _ (List.mem_cons_of_mem _ inLast)
    · exact only criteria pair (addition.same criteria own ▸ mem)
  · rintro ⟨only, fits⟩ criteria pair mem
    by_cases own : criteria = addition.criteria
    · subst own
      rw [becomes] at mem
      rcases List.mem_append.mp mem with inFirst | inRest
      · exact only _ pair (was ▸ List.mem_append_left _ inFirst)
      · rcases List.mem_cons.mp inRest with rfl | inLast
        · exact fits
        · exact only _ pair (was ▸ List.mem_append_right _ inLast)
    · exact only criteria pair (addition.same criteria own ▸ mem)

theorem Addition.stays_iff (addition : Addition) :
    (addition.before.admits actual = true → addition.after.admits actual = true) ↔
      addition.Fits actual := by
  have before : addition.before.admits actual = true ↔ addition.entry.NamesOnly actual ∨
      ∃ other ∈ addition.front ++ addition.back, other.NamesOnly actual := by
    rw [admits_iff, addition.was]
    simp only [List.mem_append, List.mem_cons, List.append_eq_nil_iff, reduceCtorEq, and_false,
      false_or]
    grind
  have after : addition.after.admits actual = true ↔ addition.entry'.NamesOnly actual ∨
      ∃ other ∈ addition.front ++ addition.back, other.NamesOnly actual := by
    rw [admits_iff, addition.becomes]
    simp only [List.mem_append, List.mem_cons, List.append_eq_nil_iff, reduceCtorEq, and_false,
      false_or]
    grind
  rw [before, after, addition.names_after, Addition.Fits]
  constructor
  · intro stays only
    exact (stays (.inl only)).imp_left And.right
  · rintro fits (only | other)
    · exact (fits only).imp_left fun included => ⟨only, included⟩
    · exact .inr other

variable {F : Type} {uuid : Text → Option Text} {inPercent : F → Bool} {s s' : State F}
  {body : PerformanceIngestBody F} {now : Int} {notified : Nat}

theorem ingest_ok (ok : s.ingest uuid inPercent body now = .ok (s', notified)) :
    ∃ job, s.jobOf body.performanceMeasurementJobId = .ok job ∧
      s'.outbox = s.outbox ++ s.report uuid (body.record now) job ∧
      notified = (s.report uuid (body.record now) job).length := by
  unfold State.ingest at ok
  split at ok
  · cases ok
  · next job found =>
    split at ok
    · cases ok
    · cases ok
      exact ⟨job, found, rfl, rfl⟩

theorem jobOf_some {id : Text} {job : Option PerformanceJob} (found : s.jobOf (some id) = .ok job) :
    ∃ row, s.job? id = some row ∧ job = some row := by
  unfold State.jobOf at found
  dsimp only at found
  split at found
  · cases found
  · next row is =>
    split at found <;> cases found
    exact ⟨row, is, rfl⟩

theorem delivered_iff (ok : s.ingest uuid inPercent body now = .ok (s', notified)) :
    Delivered uuid s body now s' notified ↔ Agreeing uuid s body now := by
  obtain ⟨job, found, outbox, count⟩ := ingest_ok ok
  cases named : body.performanceMeasurementJobId with
  | none =>
    rw [named] at found
    cases found
    refine ⟨fun _ some => ?_, fun _ => ⟨fun _ => ?_, fun id _ some => ?_⟩⟩
    · rw [named] at some
      cases some
    · simpa [State.report] using And.intro outbox count
    · cases named.symm.trans some
  | some id =>
    rw [named] at found
    obtain ⟨row, is, rfl⟩ := jobOf_some found
    have agrees : Agreeing uuid s body now ↔ ∀ sub ∈ s.subscriptions,
        sub.asks (s.actual uuid (body.record now)) = true →
          sub.admits (s.actual uuid (body.record now)) = true := by
      simp only [Agreeing, named, Option.isSome_some, forall_const, asks_iff, admits_iff]
      refine forall₂_congr fun sub _ => ⟨fun names => ?_, fun admits entry mem asks => ?_⟩
      · rintro (none | ⟨entry, mem, asks⟩)
        · exact .inl none
        · exact .inr (names entry mem asks)
      · refine (admits (.inr ⟨entry, mem, asks⟩)).resolve_left fun none => ?_
        rw [none] at mem
        cases mem
    rw [agrees, ← filter_same fun sub => asks_of_admits]
    simp only [State.report, List.length_map] at outbox count
    constructor
    · intro delivered
      rw [← count]
      exact (delivered.linked id row named is).2
    · intro long
      have less : ∀ sub : PerformanceSubscription,
          sub.admits (s.actual uuid (body.record now)) = true →
            sub.asks (s.actual uuid (body.record now)) = true := fun sub => asks_of_admits
      have same := (List.monotone_filter_right s.subscriptions less).eq_of_length long
      refine ⟨fun none => (by cases named.symm.trans none), fun other job' isId isJob => ?_⟩
      cases named.symm.trans isId
      cases is.symm.trans isJob
      exact ⟨same ▸ outbox, same ▸ count⟩

end Proofs

section Sample

def pair (criteria : Criteria) (value : Value) : Value :=
  .obj [(text "key", .str criteria.key), (text "value", value)]

def hosts (names : List String) : Entry :=
  [(Criteria.resourceCriteria.field,
    .arr (names.map fun name => pair .resourceCriteria (.str (text name))))]

theorem host_lists (other : Criteria) (differs : other ≠ .resourceCriteria) :
    (hosts ["host-1", "host-2"]).pairs other = (hosts ["host-1"]).pairs other := by
  cases other with
  | resourceCriteria => exact absurd rfl differs
  | jobCriteria => rfl
  | resourceTypeCriteria => rfl
  | measurementCriteria => rfl

def oneHost : PerformanceSubscription where
  subscriptionId := text "sub-1"
  globalSubscriptionCriteria := [hosts ["host-1"]]
  callback := "http://consumer/reports"
  accepted := .refl _

def twoHosts : PerformanceSubscription where
  subscriptionId := text "sub-1"
  globalSubscriptionCriteria := [hosts ["host-1", "host-2"]]
  callback := "http://consumer/reports"
  accepted := .refl _

def job : PerformanceJob where
  jobId := text "job-1"

def sample : PerformanceIngestBody Nat where
  resourceId := text "host-1"
  performanceMeasurementDefinitionId := text "CPU_UTILIZATION"
  measurementValue := .scalar 40
  performanceMeasurementJobId := text "job-1"

def reporting (sub : PerformanceSubscription) : State Nat where
  jobs := [job]
  subscriptions := [sub]

def secondHost : Addition where
  before := oneHost
  after := twoHosts
  front := []
  back := []
  entry := hosts ["host-1"]
  entry' := hosts ["host-1", "host-2"]
  criteria := .resourceCriteria
  pair := pair .resourceCriteria (.str (text "host-2"))
  was := .refl _
  becomes := .refl _
  added := ⟨[pair .resourceCriteria (.str (text "host-1"))], [], .refl _, .refl _⟩
  same := host_lists

end Sample

end Smo.Focom.Performance
