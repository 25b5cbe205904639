import Mathlib.Data.List.Sort
import Smo.Lib.Sql

/-! Scope claims (`smo_shared/scope.py`): a caller restricted to regions or tenants, and the
same rule as conditions on the region and tenant columns of a table. -/
namespace Smo

structure Scope where
  regions : Option (List String) := none
  tenants : Option (List String) := none
  deriving DecidableEq, Repr

/-- Whether a caller with the claim may touch a target in a region and of a tenant. -/
def permits (scope : Option Scope) (region tenant : Option String) : Bool :=
  let covers (axis : Option (List String)) (value : Option String) : Bool :=
    match axis, value with
    | none, _ => true
    | some _, none => false
    | some values, some value => values.contains value
  match scope with
  | none => true
  | some scope => covers scope.regions region && covers scope.tenants tenant

/-- `sorted(values)`. -/
def sorted (values : List String) : List String := values.insertionSort (· ≤ ·)

namespace Scope

open Sql

variable {ρ : Type}

/-- One axis of `permits`. -/
def axisPermits (axis : Option (List String)) (value : Option String) : Bool :=
  match axis, value with
  | none, _ => true
  | some _, none => false
  | some values, some value => values.contains value

@[simp] theorem axisPermits_none (value : Option String) : axisPermits none value = true := rfl

theorem permits_some (scope : Scope) (region tenant : Option String) :
    permits (some scope) region tenant =
      (axisPermits scope.regions region && axisPermits scope.tenants tenant) := rfl

def axisFilter (stmt : Select ρ) (axis : Option (List String))
    (column : ρ → Option String) : Select ρ :=
  match axis with
  | none => stmt
  | some values =>
    stmt.limited fun row =>
      if values.isEmpty then some false else isIn (column row) ((sorted values).map some)

/-- The statement limited to the rows `permits` would allow. -/
def filterStatement (stmt : Select ρ) (scope : Option Scope)
    (region tenant : ρ → Option String) : Select ρ :=
  match scope with
  | none => stmt
  | some scope => axisFilter (axisFilter stmt scope.regions region) scope.tenants tenant

def outside (values : List String) (value : Option String) : Truth :=
  if values.isEmpty then some true
  else Truth.or (isNull value) (notIn value ((sorted values).map some))

def deniedAxis (axis : Option (List String)) (column : ρ → Option String) :
    List (Condition ρ) :=
  match axis with
  | none => []
  | some values => [fun row => outside values (column row)]

/-- The rows `permits` would refuse, with a NULL region or tenant written out as a refusal. -/
def deniedCondition (scope : Option Scope) (region tenant : ρ → Option String) : Condition ρ :=
  match scope with
  | none => fun _ => some false
  | some scope => fun row =>
    (deniedAxis scope.regions region ++ deniedAxis scope.tenants tenant).foldl
      (fun truth part => Truth.or truth (part row)) (some false)

theorem mem_sorted {values : List String} {value : String} :
    value ∈ sorted values ↔ value ∈ values := List.mem_insertionSort _

theorem sorted_ne_nil {values : List String} (nonempty : values ≠ []) :
    (sorted values).map some ≠ [] := by
  obtain ⟨value, rest, rfl⟩ := List.exists_cons_of_ne_nil nonempty
  have member : value ∈ sorted (value :: rest) := mem_sorted.2 (List.mem_cons_self ..)
  intro empty
  rw [List.map_eq_nil_iff] at empty
  exact absurd (empty ▸ member) List.not_mem_nil

theorem isIn_sorted_selects (values : List String) (value : Option String) :
    (if values.isEmpty then some false else isIn value ((sorted values).map some)) = some true ↔
      axisPermits (some values) value = true := by
  cases values with
  | nil => cases value <;> simp [axisPermits]
  | cons first rest =>
    rw [if_neg (by simp)]
    cases value with
    | none => simp [isIn_none (sorted_ne_nil (List.cons_ne_nil first rest)), axisPermits]
    | some value => simp [isIn_some, mem_sorted, axisPermits]

theorem axisFilter_rows (stmt : Select ρ) (axis : Option (List String))
    (column : ρ → Option String) :
    (axisFilter stmt axis column).rows =
      stmt.rows.filter fun row => axisPermits axis (column row) := by
  cases axis with
  | none => simp [axisFilter, axisPermits]
  | some values =>
    exact Select.limited_rows stmt fun row => isIn_sorted_selects values (column row)

theorem filterStatement_rows (stmt : Select ρ) (scope : Option Scope)
    (region tenant : ρ → Option String) :
    (filterStatement stmt scope region tenant).rows =
      stmt.rows.filter fun row => permits scope (region row) (tenant row) := by
  cases scope with
  | none => simp [filterStatement, permits]
  | some scope =>
    rw [filterStatement, axisFilter_rows, axisFilter_rows, List.filter_filter]
    simp only [permits_some, Bool.and_comm]

theorem outside_decides (values : List String) (value : Option String) :
    outside values value = some (!axisPermits (some values) value) := by
  cases values with
  | nil => cases value <;> simp [outside, axisPermits]
  | cons first rest =>
    rw [outside, if_neg (by simp)]
    cases value with
    | none => simp [isNull, axisPermits]
    | some value => simp [isNull, notIn, isIn_some, mem_sorted, axisPermits]

theorem deniedCondition_decides (scope : Option Scope) (region tenant : ρ → Option String) :
    Decides (deniedCondition scope region tenant) fun row =>
      !permits scope (region row) (tenant row) := by
  intro row
  cases scope with
  | none => rfl
  | some scope =>
    obtain ⟨regions, tenants⟩ := scope
    simp only [permits_some]
    cases regions <;> cases tenants <;>
      simp only [deniedCondition, deniedAxis, outside_decides, List.append_nil, List.nil_append,
        List.cons_append, List.foldl_cons, List.foldl_nil, Truth.or_some, Bool.false_or,
        Bool.not_and, axisPermits_none, Bool.not_true, Bool.or_false]

end Scope
end Smo
