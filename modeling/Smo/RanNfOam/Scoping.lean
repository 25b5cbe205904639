import Smo.RanNfOam.ConfigJobs.Models

/-! The scope rule as conditions on the registry (`app/scoping.py`): the subquery of the
elements a caller may touch, and the `NOT EXISTS` filter of the list of config jobs. -/
namespace Smo.RanNfOam

open Sql Scope

def visibleElements (registry : Registry) (scope : Option Scope) : List String :=
  (filterStatement ⟨registry.rows, []⟩ scope (·.region) (·.tenant)).rows.map
    (·.managedElementRef)

def scopedToElements {ρ : Type} (registry : Registry) (stmt : Select ρ) (scope : Option Scope)
    (element : ρ → String) : Select ρ :=
  if scope.isNone then stmt
  else stmt.limited fun row => isIn (some (element row)) ((visibleElements registry scope).map some)

namespace ConfigJobs

def subChanges (jobs : List JobRows) : List (Nat × WriteConfigSubChange) :=
  jobs.flatMap fun jr => jr.rows.map fun row => (jr.job.jobId, row)

/-- The sub-changes of a job on an element that is outside the scope, or not registered. -/
def outside (registry : Registry) (jobs : List JobRows) (scope : Option Scope) (jobId : Nat) :
    Select ((Nat × WriteConfigSubChange) × Option ManagedEntity) where
  source :=
    outerJoin (subChanges jobs) registry.rows fun row me =>
      equal (some me.managedElementRef) (some row.2.managedElementRef)
  conditions :=
    [fun row => equal (some row.1.1) (some jobId),
      fun row =>
        Truth.or (isNull (row.2.map (·.managedElementRef)))
          (deniedCondition scope (fun row => row.2.bind (·.region))
            (fun row => row.2.bind (·.tenant)) row)]

def jobElements (jobs : List JobRows) (jobId : Nat) : List String :=
  (((subChanges jobs).filter (·.1 = jobId)).map (·.2.managedElementRef)).eraseDups

end ConfigJobs

section Registry

variable {registry : Registry} {scope : Option Scope} {ref : String} {row : ManagedEntity}

theorem get?_eq_some_iff :
    registry.get? ref = some row ↔ row ∈ registry.rows ∧ row.managedElementRef = ref :=
  find?_key_iff registry.keyed

theorem elementPermitted_some {claim : Scope} :
    elementPermitted registry (some claim) ref = true ↔
      ∃ row, registry.get? ref = some row ∧ permits (some claim) row.region row.tenant = true := by
  cases found : registry.get? ref <;> simp [elementPermitted, found]

theorem mem_visibleElements :
    ref ∈ visibleElements registry scope ↔
      ∃ row, registry.get? ref = some row ∧ permits scope row.region row.tenant = true := by
  simp only [visibleElements, filterStatement_rows, Select.rows_table, List.mem_map,
    List.mem_filter, get?_eq_some_iff]
  constructor
  · rintro ⟨row, ⟨member, allowed⟩, rfl⟩
    exact ⟨row, ⟨member, rfl⟩, allowed⟩
  · rintro ⟨row, ⟨member, rfl⟩, allowed⟩
    exact ⟨row, ⟨member, allowed⟩, rfl⟩

theorem mem_visibleElements_some {claim : Scope} :
    ref ∈ visibleElements registry (some claim) ↔
      elementPermitted registry (some claim) ref = true :=
  mem_visibleElements.trans elementPermitted_some.symm

theorem mem_visibleElements_none :
    ref ∈ visibleElements registry none ↔ (registry.get? ref).isSome = true := by
  simp [mem_visibleElements, permits, Option.isSome_iff_exists]

theorem mem_deniedRefs {refs : List String} :
    ref ∈ deniedRefs registry scope refs ↔
      ref ∈ refs ∧ elementPermitted registry scope ref = false := by
  cases scope with
  | none => simp [deniedRefs, elementPermitted]
  | some claim =>
    cases found : registry.get? ref <;>
      simp [deniedRefs, elementPermitted, found, List.mem_eraseDups]

theorem deniedRefs_eq_nil {refs : List String} :
    deniedRefs registry scope refs = [] ↔
      ∀ ref ∈ refs, elementPermitted registry scope ref = true := by
  simp only [List.eq_nil_iff_forall_not_mem, mem_deniedRefs, not_and, Bool.not_eq_false]

theorem scopedToElements_rows {ρ : Type} (stmt : Select ρ) (element : ρ → String) :
    (scopedToElements registry stmt scope element).rows =
      stmt.rows.filter fun row => elementPermitted registry scope (element row) := by
  cases scope with
  | none => simp [scopedToElements, elementPermitted]
  | some claim =>
    refine Select.limited_rows stmt fun row => ?_
    rw [isIn_some]
    simp [mem_visibleElements_some]

end Registry

namespace ConfigJobs

variable {registry : Registry} {jobs : List JobRows} {claim : Scope} {jobId : Nat}

theorem mem_jobElements {ref : String} :
    ref ∈ jobElements jobs jobId ↔
      ∃ row, (jobId, row) ∈ subChanges jobs ∧ row.managedElementRef = ref := by
  simp only [jobElements, List.mem_eraseDups, List.mem_map, List.mem_filter, decide_eq_true_iff]
  constructor
  · rintro ⟨⟨owner, row⟩, ⟨member, rfl⟩, rfl⟩
    exact ⟨row, member, rfl⟩
  · rintro ⟨row, member, rfl⟩
    exact ⟨(jobId, row), ⟨member, rfl⟩, rfl⟩

theorem outside_source (scope : Option Scope) :
    (outside registry jobs scope jobId).source =
      (subChanges jobs).map fun row => (row, registry.get? row.2.managedElementRef) := by
  refine outerJoin_keyed _ _ _ _ fun row => ?_
  rw [Registry.get?, ← filter_key registry.keyed]
  congr 1
  funext me
  simp [equal]

theorem outside_row_iff {row : Nat × WriteConfigSubChange} {me : Option ManagedEntity} :
    (row, me) ∈ (outside registry jobs (some claim) jobId).rows ↔
      row ∈ subChanges jobs ∧ me = registry.get? row.2.managedElementRef ∧ row.1 = jobId ∧
        elementPermitted registry (some claim) row.2.managedElementRef = false := by
  have denied := deniedCondition_decides (some claim)
    (fun row : (Nat × WriteConfigSubChange) × Option ManagedEntity => row.2.bind (·.region))
    (fun row => row.2.bind (·.tenant)) (row, me)
  rw [Select.rows, outside_source]
  simp only [outside, List.mem_filter, List.mem_map, Prod.mk.injEq, List.all_cons, List.all_nil,
    denied, equal, isNull, Truth.or_some, Bool.and_true, Bool.and_eq_true, beq_iff_eq,
    Option.some.injEq, decide_eq_true_iff]
  constructor
  · rintro ⟨⟨other, member, rfl, rfl⟩, owner, refused⟩
    refine ⟨member, rfl, owner, ?_⟩
    cases found : registry.get? other.2.managedElementRef with
    | none => simp [elementPermitted, found]
    | some me => simpa [elementPermitted, found] using refused
  · rintro ⟨member, rfl, owner, refused⟩
    refine ⟨⟨row, member, rfl, rfl⟩, owner, ?_⟩
    cases found : registry.get? row.2.managedElementRef with
    | none => simp
    | some me => simpa [elementPermitted, found] using refused

theorem not_outside_iff :
    Truth.not (outside registry jobs (some claim) jobId).present = some true ↔
      deniedRefs registry (some claim) (jobElements jobs jobId) = [] := by
  rw [deniedRefs_eq_nil, Select.present, Truth.not_some]
  simp only [Bool.not_not, Option.some.injEq, List.isEmpty_iff, List.eq_nil_iff_forall_not_mem,
    mem_jobElements]
  constructor
  · rintro none ref ⟨row, member, rfl⟩
    by_contra refused
    exact none _ (outside_row_iff.2
      ⟨member, rfl, rfl, Bool.eq_false_iff.2 refused⟩)
  · rintro permitted ⟨row, me⟩ inside
    obtain ⟨member, -, rfl, refused⟩ := outside_row_iff.1 inside
    rw [permitted _ ⟨row.2, member, rfl⟩] at refused
    exact absurd refused (by decide)

/-- The rule has one meaning: kept by a filter, refused by a condition, in a list of denied
references, of visible elements, or by the anti-join of the list of jobs. Without a claim the
visible elements are not asked for, and are the registered ones. -/
theorem scope_decisions_agree (scope : Option Scope) :
    (∀ (ρ : Type) (stmt : Select ρ) (region tenant : ρ → Option String),
      (filterStatement stmt scope region tenant).rows =
          stmt.rows.filter (fun row => permits scope (region row) (tenant row)) ∧
        ∀ row, deniedCondition scope region tenant row =
          some (!permits scope (region row) (tenant row))) ∧
    ∀ registry : Registry,
      (∀ refs ref, ref ∈ deniedRefs registry scope refs ↔
        ref ∈ refs ∧ elementPermitted registry scope ref = false) ∧
      (∀ ref, ref ∈ visibleElements registry scope ↔
        elementPermitted registry scope ref = true ∧
          (scope.isSome = true ∨ (registry.get? ref).isSome = true)) ∧
      (∀ (ρ : Type) (stmt : Select ρ) (element : ρ → String),
        (scopedToElements registry stmt scope element).rows =
          stmt.rows.filter fun row => elementPermitted registry scope (element row)) ∧
      ∀ (jobs : List JobRows) (jobId : Nat) (claim : Scope),
        Truth.not (outside registry jobs (some claim) jobId).present = some true ↔
          ∀ ref ∈ jobElements jobs jobId, elementPermitted registry (some claim) ref = true := by
  refine ⟨fun ρ stmt region tenant => ⟨filterStatement_rows stmt scope region tenant,
    deniedCondition_decides scope region tenant⟩, fun registry => ?_⟩
  refine ⟨fun refs ref => mem_deniedRefs, ?_, fun ρ => scopedToElements_rows, ?_⟩
  · intro ref
    cases scope with
    | none => simp [mem_visibleElements_none, elementPermitted]
    | some claim => simp [mem_visibleElements_some]
  · intro jobs jobId claim
    exact not_outside_iff.trans deniedRefs_eq_nil

/-- An element nobody registered is permitted to an unscoped caller, and not visible. -/
theorem unregistered_not_visible :
    ¬ ∀ (registry : Registry) (scope : Option Scope) (ref : String),
      (ref ∈ visibleElements registry scope ↔ elementPermitted registry scope ref = true) := by
  intro agree
  have visible := (agree {} none "ME-9").2 rfl
  rw [mem_visibleElements_none] at visible
  exact absurd visible (by decide)

end ConfigJobs

end Smo.RanNfOam
