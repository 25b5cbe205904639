import Mathlib.Data.Int.Log
import Mathlib.Data.Rat.Floor
import Smo.Lib.Json.Load

/-! JSON values as Python objects: truth, `==` and `str`. A float is kept by its `repr`, which
names the double it is. -/
namespace Smo.Json

section Numbers

/-- The value of a Python number. -/
inductive Number where
  | finite (value : ℚ)
  | infinite (negative : Bool)
  | nan
  deriving DecidableEq

/-- The exact value of a decimal number text. -/
def decimal (text : List Char) : ℚ :=
  let negative := text.head? = some '-'
  let digits := (intDigits (text.drop (if negative then 1 else 0))).getD ([], [])
  let frac := fraction digits.2
  let exp := (exponent frac.2).1.drop 1
  let power : Int := match exp with
    | '-' :: down => -natOf down
    | '+' :: up => natOf up
    | up => natOf up
  let magnitude : ℚ := natOf (digits.1 ++ frac.1.drop 1) * (10 : ℚ) ^ (power - (frac.1.drop 1).length)
  if negative then -magnitude else magnitude

def roundHalfEven (value : ℚ) : Int :=
  let below := ⌊value⌋
  if value - below < 1 / 2 then below
  else if 1 / 2 < value - below then below + 1
  else if below % 2 = 0 then below else below + 1

/-- The double nearest to a number; from `2 ^ 1024` on it is infinite. -/
def nearest (value : ℚ) : Number :=
  if value = 0 then .finite 0
  else
    let unit : ℚ := 2 ^ max (Int.log 2 |value| - 52) (-1074)
    let rounded := roundHalfEven (|value| / unit) * unit
    if 2 ^ 1024 ≤ rounded then .infinite (decide (value < 0))
    else .finite (if value < 0 then -rounded else rounded)

def floatNumber (text : List Char) : Number :=
  if text = "NaN".toList then .nan
  else if text = "Infinity".toList then .infinite false
  else if text = "-Infinity".toList then .infinite true
  else nearest (decimal text)

/-- The number a value is; a bool is 0 or 1. -/
def Value.number : Value → Option Number
  | .bool value => some (.finite (if value then 1 else 0))
  | .int value => some (.finite value)
  | .float text => some (floatNumber text)
  | _ => none

end Numbers

namespace Value

/-- `bool(value)`. -/
def truthy : Value → Bool
  | .null => false
  | .bool value => value
  | .int value => value ≠ 0
  | .float text => floatNumber text ≠ .finite 0
  | .str text => text ≠ []
  | .arr items => ¬ items.isEmpty
  | .obj entries => ¬ entries.isEmpty

/-- `str(value)`; `repr` is that of a list or a dict. -/
def toStr (repr : Value → Text) : Value → Text
  | .null => "None".toList.map Char.toNat
  | .bool value => (if value then "True" else "False").toList.map Char.toNat
  | .int value => (toString value).toList.map Char.toNat
  | .float text => text.map Char.toNat
  | .str text => text
  | value => repr value

/-- `==` of two values that are neither lists nor dicts. -/
def sameScalar (v w : Value) : Bool :=
  match v, w with
  | .null, .null => true
  | .str s, .str t => s = t
  | v, w =>
    match v.number, w.number with
    | some m, some n => m = n ∧ m ≠ .nan
    | _, _ => false

mutual

/-- `==`. The names of a dict are distinct, so for dicts of one length each of the two
inclusions is enough. -/
def same : Value → Value → Bool
  | .arr items, .arr items' => sameItems items items'
  | .obj entries, .obj entries' =>
    entries.length = entries'.length ∧ within entries entries' ∧
      entries'.all fun entry => hasEntry entries entry.1 entry.2
  | v, w => sameScalar v w
termination_by structural v => v

def sameItems : List Value → List Value → Bool
  | [], [] => true
  | v :: items, w :: items' => same v w && sameItems items items'
  | _, _ => false
termination_by structural v => v

/-- Every entry of the first dict is one of the second. -/
def within : List (Text × Value) → List (Text × Value) → Bool
  | [], _ => true
  | (name, v) :: entries, entries' =>
    (entries'.any fun entry => entry.1 = name && same v entry.2) && within entries entries'
termination_by structural v => v

def hasEntry : List (Text × Value) → Text → Value → Bool
  | [], _, _ => false
  | (name', v) :: entries, name, w => (name = name' && same v w) || hasEntry entries name w
termination_by structural v => v

end

theorem sameScalar_comm (v w : Value) : sameScalar v w = sameScalar w v := by
  cases v <;> cases w <;> grind [sameScalar, Value.number]

theorem sameItems_comm {items : List Value} (comm : ∀ v ∈ items, ∀ w, same v w = same w v)
    (items' : List Value) : sameItems items items' = sameItems items' items := by
  induction items generalizing items' with
  | nil => cases items' <;> rfl
  | cons v items ih =>
    cases items' with
    | nil => rfl
    | cons w items' =>
      simp only [sameItems, comm v List.mem_cons_self w,
        ih (fun v mem => comm v (List.mem_cons_of_mem _ mem)) items']

theorem within_iff (entries entries' : List (Text × Value)) :
    within entries entries' = true ↔
      ∀ entry ∈ entries, ∃ entry' ∈ entries', entry'.1 = entry.1 ∧ same entry.2 entry'.2 := by
  induction entries with
  | nil => simp [within]
  | cons entry entries ih => simp only [within, Bool.and_eq_true, List.any_eq_true, decide_eq_true_eq, List.forall_mem_cons, ih]

theorem hasEntry_iff (entries : List (Text × Value)) (name : Text) (w : Value) :
    hasEntry entries name w = true ↔ ∃ entry ∈ entries, name = entry.1 ∧ same entry.2 w := by
  induction entries with
  | nil => simp [hasEntry]
  | cons entry entries ih => simp only [hasEntry, Bool.or_eq_true, Bool.and_eq_true, decide_eq_true_eq, List.exists_mem_cons_iff, ih]

theorem same_obj_iff (entries entries' : List (Text × Value)) :
    same (.obj entries) (.obj entries') = true ↔ entries.length = entries'.length ∧
      (∀ entry ∈ entries, ∃ entry' ∈ entries', entry'.1 = entry.1 ∧ same entry.2 entry'.2) ∧
      ∀ entry' ∈ entries', ∃ entry ∈ entries, entry'.1 = entry.1 ∧ same entry.2 entry'.2 := by
  simp only [same, decide_eq_true_eq, within_iff, List.all_eq_true, hasEntry_iff]

theorem same_comm (v w : Value) : same v w = same w v := by
  match v, w with
  | .arr items, .arr items' =>
    have comm : ∀ v ∈ items, ∀ w, same v w = same w v := fun v _ w => same_comm v w
    simpa only [same] using sameItems_comm comm items'
  | .obj entries, .obj entries' =>
    have comm : ∀ entry ∈ entries, ∀ w, same entry.2 w = same w entry.2 :=
      fun entry _ w => same_comm entry.2 w
    rw [Bool.eq_iff_iff, same_obj_iff, same_obj_iff, eq_comm (a := entries.length)]
    refine and_congr_right fun _ => ⟨fun ⟨there, back⟩ => ⟨?_, ?_⟩, fun ⟨there, back⟩ => ⟨?_, ?_⟩⟩
    · intro entry' mem
      obtain ⟨entry, found, name, eq⟩ := back entry' mem
      exact ⟨entry, found, name.symm, comm entry found _ ▸ eq⟩
    · intro entry mem
      obtain ⟨entry', found, name, eq⟩ := there entry mem
      exact ⟨entry', found, name.symm, comm entry mem _ ▸ eq⟩
    · intro entry mem
      obtain ⟨entry', found, name, eq⟩ := back entry mem
      exact ⟨entry', found, name.symm, comm entry mem _ ▸ eq⟩
    · intro entry' mem
      obtain ⟨entry, found, name, eq⟩ := there entry' mem
      exact ⟨entry, found, name.symm, comm entry found _ ▸ eq⟩
  | .null, w => cases w <;> simp [same, sameScalar_comm]
  | .bool _, w => cases w <;> simp [same, sameScalar_comm]
  | .int _, w => cases w <;> simp [same, sameScalar_comm]
  | .float _, w => cases w <;> simp [same, sameScalar_comm]
  | .str _, w => cases w <;> simp [same, sameScalar_comm]
  | .arr _, .null | .arr _, .bool _ | .arr _, .int _ | .arr _, .float _ | .arr _, .str _
  | .arr _, .obj _ => simp [same, sameScalar_comm]
  | .obj _, .null | .obj _, .bool _ | .obj _, .int _ | .obj _, .float _ | .obj _, .str _
  | .obj _, .arr _ => simp [same, sameScalar_comm]
termination_by sizeOf v
decreasing_by
  · have := List.sizeOf_lt_of_mem ‹v ∈ items›
    simp only [Value.arr.sizeOf_spec]
    omega
  · have := List.sizeOf_lt_of_mem ‹entry ∈ entries›
    obtain ⟨name, v⟩ := entry
    simp only [Value.obj.sizeOf_spec, Prod.mk.sizeOf_spec] at *
    omega

theorem same_str {text : Text} {w : Value} (h : same (.str text) w = true) : w = .str text := by
  cases w with
  | str other => simpa [same, sameScalar, eq_comm] using h
  | _ => simp [same, sameScalar, Value.number] at h

end Value
end Smo.Json
