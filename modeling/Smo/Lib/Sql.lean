import Mathlib.Data.List.Nodup

/-! Conditions of SQL over rows of any type, in three-valued logic: a truth value is `none`
for NULL, and WHERE keeps the rows whose condition is true. -/
namespace Smo.Sql

variable {ρ τ α : Type}

abbrev Truth := Option Bool

namespace Truth

def not : Truth → Truth
  | some b => some (!b)
  | none => none

def or : Truth → Truth → Truth
  | some true, _ | _, some true => some true
  | some false, some false => some false
  | _, _ => none

@[simp] theorem not_some (b : Bool) : not (some b) = some (!b) := rfl

@[simp] theorem or_some (a b : Bool) : or (some a) (some b) = some (a || b) := by
  cases a <;> cases b <;> rfl

@[simp] theorem or_true_left (t : Truth) : or (some true) t = some true := by
  cases t <;> rfl

end Truth

section Values

variable [DecidableEq α]

/-- `x = y`, NULL when either is. -/
def equal : Option α → Option α → Truth
  | some x, some y => some (decide (x = y))
  | _, _ => none

/-- `x IN (…)`: the disjunction of the equalities, false of an empty list. -/
def isIn (value : Option α) (values : List (Option α)) : Truth :=
  values.foldr (fun other truth => Truth.or (equal value other) truth) (some false)

def notIn (value : Option α) (values : List (Option α)) : Truth :=
  Truth.not (isIn value values)

def isNull (value : Option α) : Truth := some value.isNone

theorem isIn_some (value : α) (values : List α) :
    isIn (some value) (values.map some) = some (decide (value ∈ values)) := by
  induction values with
  | nil => rfl
  | cons other values ih =>
    have step : isIn (some value) ((other :: values).map some) =
        Truth.or (some (decide (value = other))) (isIn (some value) (values.map some)) := rfl
    rw [step, ih]
    simp

theorem isIn_none {values : List (Option α)} (nonempty : values ≠ []) :
    isIn none values = none := by
  cases values with
  | nil => exact absurd rfl nonempty
  | cons other values =>
    have step : isIn none (other :: values) = Truth.or none (isIn none values) := rfl
    rw [step]
    clear nonempty step
    induction values with
    | nil => rfl
    | cons next values ih =>
      have step : isIn none (next :: values) = Truth.or none (isIn none values) := rfl
      rw [step, ih]
      rfl

end Values

abbrev Condition (ρ : Type) := ρ → Truth

/-- The condition is never NULL: it is the decision `holds`. -/
def Decides (condition : Condition ρ) (holds : ρ → Bool) : Prop :=
  ∀ row, condition row = some (holds row)

/-- The condition is true on exactly the rows of `holds`; on the others it is false or NULL. -/
def Selects (condition : Condition ρ) (holds : ρ → Bool) : Prop :=
  ∀ row, condition row = some true ↔ holds row = true

/-- `SELECT … FROM source WHERE conditions`. -/
structure Select (ρ : Type) where
  source : List ρ
  conditions : List (Condition ρ) := []

namespace Select

def limited (stmt : Select ρ) (condition : Condition ρ) : Select ρ :=
  { stmt with conditions := stmt.conditions ++ [condition] }

def rows (stmt : Select ρ) : List ρ :=
  stmt.source.filter fun row => stmt.conditions.all fun condition => condition row == some true

@[simp] theorem rows_table (source : List ρ) : (Select.mk source []).rows = source := by
  simp [rows]

theorem mem_limited {stmt : Select ρ} {condition : Condition ρ} {row : ρ} :
    row ∈ (stmt.limited condition).rows ↔ row ∈ stmt.rows ∧ condition row = some true := by
  simp only [rows, limited, List.mem_filter, List.all_append, List.all_cons, List.all_nil,
    Bool.and_true, Bool.and_eq_true, beq_iff_eq, and_assoc]

theorem limited_rows (stmt : Select ρ) {condition : Condition ρ} {holds : ρ → Bool}
    (selects : Selects condition holds) :
    (stmt.limited condition).rows = stmt.rows.filter holds := by
  have same : ∀ row, (condition row == some true) = holds row := by
    intro row
    rw [Bool.eq_iff_iff, beq_iff_eq]
    exact selects row
  simp [rows, limited, same, List.filter_filter, Bool.and_comm]

/-- `EXISTS (…)`, which is never NULL. -/
def present (stmt : Select ρ) : Truth := some (!stmt.rows.isEmpty)

end Select

/-- `left LEFT OUTER JOIN right ON …`: a row without a match is joined with NULLs. -/
def outerJoin (left : List ρ) (right : List τ) (on : ρ → τ → Truth) : List (ρ × Option τ) :=
  left.flatMap fun row =>
    match right.filter fun other => on row other == some true with
    | [] => [(row, none)]
    | found => found.map fun other => (row, some other)

theorem outerJoin_keyed (left : List ρ) (right : List τ) (on : ρ → τ → Truth)
    (get : ρ → Option τ)
    (keyed : ∀ row, (right.filter fun other => on row other == some true) = (get row).toList) :
    outerJoin left right on = left.map fun row => (row, get row) := by
  induction left with
  | nil => rfl
  | cons row rest ih =>
    have step : outerJoin (row :: rest) right on =
        (match right.filter fun other => on row other == some true with
          | [] => [(row, none)]
          | found => found.map fun other => (row, some other)) ++ outerJoin rest right on := rfl
    rw [step, ih, keyed row, List.map_cons]
    cases found : get row with
    | none => rfl
    | some other => rfl

theorem find?_key_iff {κ : Type} [DecidableEq κ] {key : τ → κ} {rows : List τ}
    (keyed : (rows.map key).Nodup) {k : κ} {row : τ} :
    rows.find? (fun other => key other = k) = some row ↔ row ∈ rows ∧ key row = k := by
  constructor
  · intro found
    exact ⟨List.mem_of_find?_eq_some found, by simpa using List.find?_some found⟩
  · rintro ⟨member, rfl⟩
    cases found : rows.find? fun other => key other = key row with
    | none =>
      have absent := List.find?_eq_none.1 found row member
      simp at absent
    | some other =>
      have same : key other = key row := by simpa using List.find?_some found
      rw [List.inj_on_of_nodup_map keyed (List.mem_of_find?_eq_some found) member same]

theorem filter_key {κ : Type} [DecidableEq κ] {key : τ → κ} {rows : List τ}
    (keyed : (rows.map key).Nodup) (k : κ) :
    (rows.filter fun row => key row = k) = (rows.find? fun row => key row = k).toList := by
  induction rows with
  | nil => rfl
  | cons row rest ih =>
    rw [List.map_cons, List.nodup_cons] at keyed
    by_cases here : key row = k
    · have others : (rest.filter fun other => key other = k) = [] := by
        rw [List.filter_eq_nil_iff]
        intro other member same
        rw [decide_eq_true_iff] at same
        exact keyed.1 (List.mem_map.2 ⟨other, member, same.trans here.symm⟩)
      simp [here, others]
    · simp [here, ih keyed.2]

end Smo.Sql
