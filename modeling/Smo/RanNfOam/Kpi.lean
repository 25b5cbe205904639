import Mathlib

/-! KPIs over stored PM samples (`app/kpi.py`): one value over a period for each group, and one value
for each step of a period. Times are counted in microseconds. -/
namespace Smo.RanNfOam.Kpi

inductive Aggregation
  | sum
  | avg
  | min
  | max
  | last
  | count
  deriving DecidableEq

structure Sample where
  element : String
  cell : String
  counter : String
  at_ : Int
  value : ℚ
  deriving DecidableEq

structure CounterEntry where
  counter : String
  variable_ : String
  aggregation : Aggregation

structure KpiDefinition where
  formula : String
  counters : List CounterEntry

inductive Reason
  | noData
  | undefined
  deriving DecidableEq

abbrev Counters := List (String × Option ℚ)

structure Evaluation where
  value : Option ℚ
  samples : Nat
  counters : Counters
  reason : Option Reason
  deriving DecidableEq

inductive GroupBy
  | cell
  | element
  | sectorGroup
  | incidentZone
  | all
  deriving DecidableEq

structure Item where
  group : List String
  evaluation : Evaluation
  deriving DecidableEq

structure Point where
  at_ : Int
  value : Option ℚ
  samples : Nat
  reason : Option Reason
  deriving DecidableEq

def maxGroups : Nat := 1000

section Code

def latest : List Sample → Option Sample
  | [] => none
  | first :: rest => some (rest.foldl (fun best s => if best.at_ < s.at_ then s else best) first)

/-- `_combine`. -/
def combine (aggregation : Aggregation) (samples : List Sample) : Option ℚ :=
  let values := samples.map (·.value)
  match values with
  | [] => none
  | first :: rest =>
    match aggregation with
    | .sum => some values.sum
    | .avg => some (values.sum / values.length)
    | .min => some (rest.foldl Min.min first)
    | .max => some (rest.foldl Max.max first)
    | .count => some values.length
    | .last => (latest samples).map (·.value)

variable (evaluate : String → Counters → Option ℚ) (stored : List Sample)
  (guard : GroupBy → Sample → String) (definition : KpiDefinition)

/-- `load_samples`: the samples of the counters in a period. -/
def loadSamples (counters : List String) (start stop : Int) : List Sample :=
  stored.filter fun s => s.counter ∈ counters ∧ start ≤ s.at_ ∧ s.at_ < stop

/-- `_group_key`; a cell without a group of a kind is in the group `guard` names. -/
def groupKey (groupBy : GroupBy) (s : Sample) : List String :=
  match groupBy with
  | .cell => [s.element, s.cell]
  | .element => [s.element]
  | .all => []
  | attribute_ => [guard attribute_ s]

/-- `_evaluate`. -/
def evaluateGroup (samples : List Sample) : Evaluation :=
  let counters := definition.counters.map fun c =>
    (c.variable_, combine c.aggregation (samples.filter (·.counter = c.counter)))
  let value := evaluate definition.formula counters
  { value
    samples := (samples.map fun s => (s.element, s.cell, s.at_)).dedup.length
    counters
    reason :=
      if value.isSome then none
      else if counters.any (·.2.isNone) then some .noData else some .undefined }

/-- `compute`: one item for each group, and one that says so when there is nothing to sum up. -/
def compute (start stop : Int) (groupBy : GroupBy) : List Item :=
  let samples := loadSamples stored (definition.counters.map (·.counter)) start stop
  let keys := (samples.map (groupKey guard groupBy)).dedup.mergeSort fun key key' => decide (key ≤ key')
  let items := (keys.take maxGroups).map fun key =>
    ⟨key, evaluateGroup evaluate definition (samples.filter (groupKey guard groupBy · = key))⟩
  if groupBy = .all ∧ items = [] then
    [⟨[], none, 0, definition.counters.map fun c => (c.variable_, none), some .noData⟩]
  else items

def steps (start stop step : Int) : Nat := (-(-(stop - start) / step)).toNat

def bucket (start step : Int) (samples : List Sample) (index : Nat) : List Sample :=
  samples.filter fun s => (s.at_ - start) / step = index

/-- `series`: one point for each step. -/
def series (start stop step : Int) : List Point :=
  let samples := loadSamples stored (definition.counters.map (·.counter)) start stop
  (List.range (steps start stop step)).map fun index =>
    let values := evaluateGroup evaluate definition (bucket start step samples index)
    ⟨start + index * step, values.value, values.samples, values.reason⟩

end Code

section Steps

variable {start stop step time : Int} {index : Nat}

def opens (start step : Int) (index : Nat) : Int := start + index * step

def closes (start stop step : Int) (index : Nat) : Int := min (start + (index + 1) * step) stop

theorem lt_steps_iff (positive : 0 < step) : index < steps start stop step ↔
    opens start step index < stop := by
  unfold steps opens
  have below : (index : Int) < -(-(stop - start) / step) ↔ -(stop - start) / step < -index := by omega
  rw [Int.lt_toNat, below, Int.ediv_lt_iff_lt_mul positive, Int.neg_mul]
  omega

theorem step_iff (positive : 0 < step) (inside : time < stop) :
    (time - start) / step = index ↔ opens start step index ≤ time ∧
      time < closes start stop step index := by
  have parts : (time - start) / step = index ↔ (index : Int) ≤ (time - start) / step ∧
      (time - start) / step < index + 1 := by omega
  rw [parts, Int.le_ediv_iff_mul_le positive, Int.ediv_lt_iff_lt_mul positive, opens, closes, lt_min_iff]
  constructor
  · rintro ⟨low, high⟩
    exact ⟨by omega, by omega, inside⟩
  · rintro ⟨low, high, -⟩
    exact ⟨by omega, by omega⟩

theorem step_nonneg (positive : 0 < step) (late : start ≤ time) : 0 ≤ (time - start) / step :=
  Int.ediv_nonneg (by omega) positive.le

theorem one_step (positive : 0 < step) (late : start ≤ time) (inside : time < stop) :
    ∃! index, index < steps start stop step ∧ opens start step index ≤ time ∧
      time < closes start stop step index := by
  have own : (time - start) / step = ((time - start) / step).toNat :=
    (Int.toNat_of_nonneg (step_nonneg positive late)).symm
  have bounds := (step_iff positive inside).mp own
  refine ⟨((time - start) / step).toNat, ⟨?_, bounds⟩, ?_⟩
  · rw [lt_steps_iff positive]
    omega
  · rintro other ⟨-, otherBounds⟩
    have is := (step_iff positive inside).mpr otherBounds
    omega

end Steps

section Points

variable {evaluate : String → Counters → Option ℚ} {stored : List Sample}
  {guard : GroupBy → Sample → String} {definition : KpiDefinition} {start stop step : Int}
  {index : Nat} {counters : List String}

theorem bucket_eq (positive : 0 < step) :
    bucket start step (loadSamples stored counters start stop) index =
      loadSamples stored counters (opens start step index) (closes start stop step index) := by
  rw [bucket, loadSamples, loadSamples, List.filter_filter]
  refine List.filter_congr fun s _ => ?_
  rw [← Bool.decide_and]
  refine decide_eq_decide.mpr ?_
  constructor
  · rintro ⟨is, asked, -, inside⟩
    exact ⟨asked, (step_iff positive inside).mp is⟩
  · rintro ⟨asked, low, high⟩
    have inside : s.at_ < stop := lt_of_lt_of_le high (min_le_right _ _)
    have early : start ≤ opens start step index := by
      have := mul_nonneg (Int.natCast_nonneg index) positive.le
      unfold opens
      omega
    exact ⟨(step_iff positive inside).mpr ⟨low, high⟩, asked, early.trans low, inside⟩

theorem compute_all :
    compute evaluate stored guard definition start stop .all =
      let samples := loadSamples stored (definition.counters.map (·.counter)) start stop
      [⟨[], if samples = [] then
          ⟨none, 0, definition.counters.map fun c => (c.variable_, none), some .noData⟩
        else evaluateGroup evaluate definition samples⟩] := by
  unfold compute
  cases read : loadSamples stored (definition.counters.map (·.counter)) start stop with
  | nil => simp
  | cons first rest =>
    have whole : (first :: rest).filter (fun s => groupKey guard .all s = []) = first :: rest := by
      rw [List.filter_eq_self]
      intro s _
      rfl
    have one : ((first :: rest).map (groupKey guard .all)).dedup = [[]] := by
      have same : groupKey guard .all = fun _ => [] := rfl
      rw [same, List.map_const', List.replicate_dedup (by simp)]
    simp only [one, List.mergeSort_singleton, maxGroups]
    simp [whole]

theorem evaluate_nothing : evaluateGroup evaluate definition [] =
    let counters := definition.counters.map fun c => (c.variable_, none)
    let value := evaluate definition.formula counters
    { value, samples := 0, counters
      reason := if value.isSome then none
        else if definition.counters = [] then some .undefined else some .noData } := by
  unfold evaluateGroup
  have nothing (c : CounterEntry) : combine c.aggregation (([] : List Sample).filter
      (·.counter = c.counter)) = none := by
    rw [List.filter_nil]
    rfl
  simp only [nothing, List.map_nil, List.dedup_nil, List.length_nil]
  cases definition.counters with
  | nil => simp
  | cons first rest => simp

def pointOf (at_ : Int) (items : List Item) : List Point :=
  items.map fun item =>
    ⟨at_, item.evaluation.value, item.evaluation.samples, item.evaluation.reason⟩

/-- The points of a series are those of the plain computation over their steps, which divide the
period and its samples among them. -/
structure Partitions (evaluate : String → Counters → Option ℚ) (stored : List Sample)
    (guard : GroupBy → Sample → String) (definition : KpiDefinition) (start stop step : Int) : Prop where
  covered : ∀ time, start ≤ time → time < stop → ∃! index, index < steps start stop step ∧
    opens start step index ≤ time ∧ time < closes start stop step index
  within : ∀ index < steps start stop step, start ≤ opens start step index ∧
    opens start step index < closes start stop step index ∧ closes start stop step index ≤ stop
  used : ∀ s ∈ loadSamples stored (definition.counters.map (·.counter)) start stop,
    ∃! index, index < steps start stop step ∧ s ∈ bucket start step
      (loadSamples stored (definition.counters.map (·.counter)) start stop) index
  points : ∀ index < steps start stop step,
    (series evaluate stored definition start stop step)[index]?.toList =
      pointOf (opens start step index) (compute evaluate stored guard definition
        (opens start step index) (closes start stop step index) .all)

/-- A step without samples has no value: there is a counter, and without counters the formula has none. -/
def SilentWithout (evaluate : String → Counters → Option ℚ) (stored : List Sample)
    (definition : KpiDefinition) (start stop step : Int) : Prop :=
  ∀ index, opens start step index < stop →
    loadSamples stored (definition.counters.map (·.counter)) (opens start step index)
      (closes start stop step index) = [] →
    definition.counters ≠ [] ∧
      evaluate definition.formula (definition.counters.map fun c => (c.variable_, none)) = none

theorem step_within (positive : 0 < step) (inside : index < steps start stop step) :
    start ≤ opens start step index ∧ opens start step index < closes start stop step index ∧
      closes start stop step index ≤ stop := by
  have opened := (lt_steps_iff positive).mp inside
  have early := mul_nonneg (Int.natCast_nonneg index) positive.le
  unfold opens closes at *
  refine ⟨by omega, lt_min ?_ opened, min_le_right _ _⟩
  rw [Int.add_mul]
  omega

theorem used_once (positive : 0 < step) {s : Sample}
    (mem : s ∈ loadSamples stored counters start stop) :
    ∃! index, index < steps start stop step ∧
      s ∈ bucket start step (loadSamples stored counters start stop) index := by
  obtain ⟨-, late, inside⟩ := of_decide_eq_true (List.mem_filter.mp mem).2
  obtain ⟨index, ⟨isStep, bounds⟩, only⟩ := one_step positive late inside
  refine ⟨index, ⟨isStep, List.mem_filter.mpr ⟨mem, decide_eq_true ((step_iff positive inside).mpr bounds)⟩⟩,
    ?_⟩
  rintro other ⟨isOther, inBucket⟩
  exact only other ⟨isOther, (step_iff positive inside).mp (of_decide_eq_true (List.mem_filter.mp inBucket).2)⟩

theorem series_get (positive : 0 < step) (inside : index < steps start stop step) :
    (series evaluate stored definition start stop step)[index]?.toList =
      let values := evaluateGroup evaluate definition (loadSamples stored
        (definition.counters.map (·.counter)) (opens start step index) (closes start stop step index))
      [⟨opens start step index, values.value, values.samples, values.reason⟩] := by
  rw [series, List.getElem?_map, List.getElem?_range inside]
  simp only [Option.map_some, Option.toList_some, bucket_eq positive]
  rfl

theorem point_iff (positive : 0 < step) (inside : index < steps start stop step) :
    (series evaluate stored definition start stop step)[index]?.toList =
      pointOf (opens start step index) (compute evaluate stored guard definition
        (opens start step index) (closes start stop step index) .all) ↔
    (loadSamples stored (definition.counters.map (·.counter)) (opens start step index)
        (closes start stop step index) = [] →
      definition.counters ≠ [] ∧
        evaluate definition.formula (definition.counters.map fun c => (c.variable_, none)) = none) := by
  rw [series_get positive inside, compute_all]
  cases read : loadSamples stored (definition.counters.map (·.counter)) (opens start step index)
      (closes start stop step index) with
  | cons first rest => simp [pointOf]
  | nil =>
    rw [evaluate_nothing]
    cases is : evaluate definition.formula (definition.counters.map fun c => (c.variable_, none)) with
    | some value => simp [pointOf, is]
    | none =>
      by_cases bare : definition.counters = []
      · simp [pointOf, bare]
      · simp [pointOf, bare, is]

/-- A series divides its period into the plain computations over its steps exactly when a step without
samples has no value. -/
theorem series_partitions (positive : 0 < step) :
    Partitions evaluate stored guard definition start stop step ↔
      SilentWithout evaluate stored definition start stop step := by
  constructor
  · intro parts index opened
    have inside := (lt_steps_iff positive).mpr opened
    exact (point_iff positive inside).mp (parts.points index inside)
  · intro silent
    exact {
      covered := fun time late inside => one_step positive late inside
      within := fun index inside => step_within positive inside
      used := fun s mem => used_once positive mem
      points := fun index inside => (point_iff positive inside).mpr
        (silent index ((lt_steps_iff positive).mp inside)) }

end Points

section Constant

/-- The formula `5`, which no counter feeds. -/
def constant : KpiDefinition := ⟨"5", []⟩

def five : String → Counters → Option ℚ := fun _ _ => some 5

def total : KpiDefinition := ⟨"x", [⟨"RRC.Succ", "x", .sum⟩]⟩

def firstValue : String → Counters → Option ℚ := fun _ counters => counters.head?.bind (·.2)

theorem constant_differs : ¬∀ (evaluate : String → Counters → Option ℚ) (stored : List Sample)
    (guard : GroupBy → Sample → String) (definition : KpiDefinition) (start stop step : Int),
    0 < step → Partitions evaluate stored guard definition start stop step := by
  intro always
  have silent := (series_partitions (by decide)).mp
    (always five [] (fun _ _ => "unassigned") constant 0 60 60 (by decide))
  exact absurd rfl (silent 0 (by decide) rfl).1

theorem total_partitions :
    Partitions firstValue [⟨"ME-1", "101", "RRC.Succ", 70, 3⟩] (fun _ _ => "unassigned") total 0 100 60 :=
  (series_partitions (by decide)).mpr fun _ _ _ => ⟨by simp [total], rfl⟩

end Constant

end Smo.RanNfOam.Kpi
