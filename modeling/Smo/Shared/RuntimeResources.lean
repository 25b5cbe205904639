import Smo.Lib.Quantity
import Mathlib.Tactic.Linarith
import Mathlib.Tactic.NormNum
import Smo.Shared.Errors

/-! A runtime profile as container resources (`shared/smo_shared/runtime_resources.py`), and the checks
that profiles pass before: those of a manifest (`onboarding/app/package_validation.py`) and those of the
API (`aimgf/app/main.py`). -/
namespace Smo.RuntimeResources

open RegularText (literal maybe many digit oneOf Digits)
open Quantity (amount numberOf)

inductive Number
  | int (n : Int)
  | float (value : ℚ) (text : List Char)
  | inf (negative : Bool)
  | nan

/-- A value of a manifest or of a body; each has its `str()`. -/
inductive Value
  | number (n : Number)
  | bool (b : Bool)
  | str (text : List Char)
  | other (text : List Char)

def Number.text : Number → List Char
  | .int n => (toString n).toList
  | .float _ text => text
  | .inf negative => (if negative then "-inf" else "inf").toList
  | .nan => "nan".toList

def Value.text : Value → List Char
  | .number n => n.text
  | .bool b => (if b then "True" else "False").toList
  | .str text => text
  | .other text => text

namespace Number

/-- `> 0` -/
def positive : Number → Bool
  | .int n => 0 < n
  | .float value _ => 0 < value
  | .inf negative => !negative
  | .nan => false

/-- `< 0` -/
def negative : Number → Bool
  | .int n => n < 0
  | .float value _ => value < 0
  | .inf negative => negative
  | .nan => false

end Number

/-- `QUANTITY_PATTERN` -/
def quantityPattern : RegularExpression Char :=
  many digit * (maybe (literal ".".toList * many digit) *
    maybe (oneOf "EPTGMk".toList * maybe (literal "i".toList) + literal "m".toList +
      oneOf "eE".toList * (maybe (oneOf "+-".toList) * many digit)))

/-- `is_quantity`, of a text. -/
def isQuantity (text : List Char) : Bool := quantityPattern.rmatch text

inductive Raised
  | overflow
  | notANumber
  deriving DecidableEq

/-- `cpu_quantity`. The float of an int is whole, if there is one; `millis` is the rounded product of a
float and 1000. -/
def cpuQuantity (millis : ℚ → Int) : Number → Except Raised (List Char)
  | .int n => if Numeral.double n = none then .error .overflow else .ok (toString n).toList
  | .float value _ =>
    if value.isInt then .ok (toString value.num).toList
    else .ok ((toString (max 1 (millis value))).toList ++ ['m'])
  | .inf _ => .error .overflow
  | .nan => .error .notANumber

/-- `_is_zero`. -/
def isZero (quantity : List Char) : Bool :=
  numberOf quantity = [] || ((Numeral.exact (numberOf quantity)).bind Numeral.double) = some 0

structure Profile where
  cpu : Option Value
  gpu : Option Value
  memory : Option Value

structure Wanted where
  cpu : Option (List Char)
  memory : Option (List Char)
  deriving DecidableEq

structure Block where
  requests : Wanted
  limits : Wanted
  deriving DecidableEq

/-- `wanted["cpu"]` -/
def wantedCpu (millis : ℚ → Int) (profile : Profile) : Except Raised (Option (List Char)) :=
  match profile.cpu with
  | some (.number n) => if n.positive then some <$> cpuQuantity millis n else .ok none
  | _ => .ok none

/-- `wanted["memory"]` -/
def wantedMemory (profile : Profile) : Option (List Char) :=
  match profile.memory with
  | some (.str text) => if isQuantity text && !isZero text then some text else none
  | _ => none

/-- `container_resources`, of a profile that is a dict; `none` is the empty block. -/
def containerResources (millis : ℚ → Int) (profile : Profile) : Except Raised (Option Block) := do
  let cpu ← wantedCpu millis profile
  let memory := wantedMemory profile
  return if cpu.isSome || memory.isSome then some ⟨⟨cpu, memory⟩, ⟨cpu, memory⟩⟩ else none

inductive ExecutionMode
  | training
  | validation
  | emulation
  | inference
  deriving DecidableEq

def ExecutionMode.text : ExecutionMode → String
  | .training => "TRAINING"
  | .validation => "VALIDATION"
  | .emulation => "EMULATION"
  | .inference => "INFERENCE"

/-- `EXECUTION_MODES` -/
def executionModes : List String :=
  [ExecutionMode.training, .validation, .emulation, .inference].map ExecutionMode.text

/-- What `PackageValidationFailed` says of the profiles. -/
inductive ProfileInvalid
  | unknownMode (mode : String)
  | notDeclared (mode : String)
  | notAMapping (mode : String)
  | notANumber (mode field : String)
  | notAQuantity (mode : String) (text : List Char)

def checkNumber (mode field : String) : Option Value → Except ProfileInvalid (Option Value)
  | none => .ok none
  | some (.number n) =>
    if n.negative then .error (.notANumber mode field) else .ok (some (.number n))
  | some _ => .error (.notANumber mode field)

def checkMemory (mode : String) : Option Value → Except ProfileInvalid (Option Value)
  | none => .ok none
  | some (.bool b) => .error (.notAQuantity mode (Value.bool b).text)
  | some value =>
    if isQuantity value.text then .ok (some (.str value.text))
    else .error (.notAQuantity mode value.text)

/-- One pass of the loop of `_validate_runtime_profiles`; `none` is a profile that is not a mapping. -/
def validateProfile (declared : List String) (mode : String) (profile : Option Profile) :
    Except ProfileInvalid Profile :=
  if mode ∉ executionModes then .error (.unknownMode mode)
  else if declared ≠ [] ∧ mode ∉ declared then .error (.notDeclared mode)
  else match profile with
    | none => .error (.notAMapping mode)
    | some profile => do
      let cpu ← checkNumber mode "cpu" profile.cpu
      let gpu ← checkNumber mode "gpu" profile.gpu
      let memory ← checkMemory mode profile.memory
      return ⟨cpu, gpu, memory⟩

/-- `_validate_runtime_profiles`, of a mapping. -/
def validateRuntimeProfiles (declared : List String) (profiles : List (String × Option Profile)) :
    Except ProfileInvalid (List (String × Profile)) :=
  profiles.mapM fun (mode, profile) => (mode, ·) <$> validateProfile declared mode profile

/-- `RuntimeProfile`: the fields as they are read. -/
structure RuntimeProfile where
  cpu : Option Number
  memory : Option (List Char)
  gpu : Option Number

def RuntimeProfile.valid (profile : RuntimeProfile) : Bool :=
  profile.cpu.all (!·.negative) && profile.memory.all isQuantity && profile.gpu.all (!·.negative)

/-- `model_dump(exclude_none=True)` -/
def RuntimeProfile.dump (profile : RuntimeProfile) : Profile :=
  ⟨profile.cpu.map .number, profile.gpu.map .number, profile.memory.map .str⟩

end Smo.RuntimeResources

/-! Which runtime profiles become valid container resources. -/
namespace Smo.RuntimeResources

open RegularText
open Quantity (amount numberOf WithSuffix DecimalNumber DecimalExponent decimalSI binarySI)

def patternSuffixes : List (List Char) :=
  decimalSI ++ [['k', 'i'], ['M', 'i'], ['G', 'i'], ['T', 'i'], ['P', 'i'], ['E', 'i']]

variable {text : List Char}

theorem number_iff : text ∈ (many digit * maybe (literal ".".toList * many digit)).matches' ↔
    DecimalNumber text := by
  simp only [mem_mul, mem_many_digit, mem_maybe, mem_literal]
  constructor
  · rintro ⟨whole, _, digits, ⟨_, fraction, rfl, more, rfl⟩ | rfl, rfl⟩
    · exact ⟨whole, digits, .inr ⟨fraction, more, rfl⟩⟩
    · exact ⟨whole, digits, .inl (List.append_nil _)⟩
  · rintro ⟨whole, digits, rfl | ⟨fraction, more, rfl⟩⟩
    · exact ⟨text, [], digits, .inr rfl, (List.append_nil _).symm⟩
    · exact ⟨whole, '.' :: fraction, digits, .inl ⟨['.'], fraction, rfl, more, rfl⟩, rfl⟩

theorem unit_iff :
    text ∈ (oneOf "EPTGMk".toList * maybe (literal "i".toList) + literal "m".toList).matches' ↔
      text ∈ patternSuffixes := by
  simp only [RegularExpression.matches'_add, Language.mem_add, mem_mul, mem_oneOf, mem_maybe, mem_literal]
  constructor
  · rintro (⟨_, back, ⟨c, mem, rfl⟩, is, rfl⟩ | rfl)
    · have all : "EPTGMk".toList.all (fun c =>
          [c] ++ "i".toList ∈ patternSuffixes ∧ [c] ++ [] ∈ patternSuffixes) = true := by
        decide
      have known := of_decide_eq_true (List.all_eq_true.mp all c mem)
      rcases is with rfl | rfl
      · exact known.1
      · exact known.2
    · decide
  · intro mem
    have all : ∀ s ∈ patternSuffixes, s = ['m'] ∨
        "EPTGMk".toList.any (fun c => s = [c] ++ ['i'] ∨ s = [c] ++ []) = true := by
      decide
    rcases all text mem with rfl | found
    · exact .inr rfl
    · obtain ⟨c, known, same⟩ := List.any_eq_true.mp found
      rcases of_decide_eq_true same with rfl | rfl
      · exact .inl ⟨[c], ['i'], ⟨c, known, rfl⟩, .inl rfl, rfl⟩
      · exact .inl ⟨[c], [], ⟨c, known, rfl⟩, .inr rfl, rfl⟩

theorem exponent_iff :
    text ∈ (oneOf "eE".toList * (maybe (oneOf "+-".toList) * many digit)).matches' ↔
      DecimalExponent text := by
  simp only [mem_mul, mem_oneOf, mem_maybe, mem_many_digit]
  constructor
  · rintro ⟨_, _, ⟨e, isE, rfl⟩, ⟨sign, digits, isSign, some, rfl⟩, rfl⟩
    refine ⟨e, sign, digits, isE, ?_, some, rfl⟩
    rcases isSign with ⟨c, known, rfl⟩ | rfl
    · have all : "+-".toList.all (fun c => [c] ∈ [[], ['+'], ['-']]) = true := by decide
      exact of_decide_eq_true (List.all_eq_true.mp all c known)
    · decide
  · rintro ⟨e, sign, digits, isE, isSign, some, rfl⟩
    refine ⟨[e], sign ++ digits, ⟨e, isE, rfl⟩, ⟨sign, digits, ?_, some, rfl⟩, rfl⟩
    have all : ∀ s ∈ [[], ['+'], ['-']], "+-".toList.any (fun c => s = [c]) = true ∨ s = [] := by
      decide
    refine (all sign isSign).imp_left fun found => ?_
    obtain ⟨c, known, is⟩ := List.any_eq_true.mp found
    exact ⟨c, known, of_decide_eq_true is⟩

theorem isQuantity_iff : isQuantity text = true ↔ WithSuffix patternSuffixes text := by
  have assoc : text ∈ quantityPattern.matches' ↔ text ∈ ((many digit *
      maybe (literal ".".toList * many digit)) *
        maybe (oneOf "EPTGMk".toList * maybe (literal "i".toList) + literal "m".toList +
          oneOf "eE".toList * (maybe (oneOf "+-".toList) * many digit))).matches' := by
    rw [quantityPattern]
    simp only [RegularExpression.matches'_mul, mul_assoc]
  rw [isQuantity, RegularExpression.rmatch_iff_matches', assoc, mem_mul]
  simp only [mem_maybe, RegularExpression.matches'_add _ (_ * _), Language.mem_add, number_iff]
  refine exists_congr fun number => exists_congr fun suffix => ?_
  rw [← unit_iff, ← exponent_iff]
  tauto

theorem short_suffixes : (∀ s ∈ patternSuffixes, s.length ≤ 2) ∧
    ∀ s ∈ decimalSI ++ binarySI, s.length ≤ 2 := by
  decide

theorem valid_iff (is : isQuantity text = true) : Quantity.Valid text ↔ ¬['k', 'i'] <:+ text :=
  Quantity.withSuffix_iff (by decide) (by decide) short_suffixes.2 (by decide) (by decide)
    (isQuantity_iff.mp is)

theorem isQuantity_of_valid (is : Quantity.Valid text) :
    isQuantity text = true ↔ ¬['K', 'i'] <:+ text :=
  isQuantity_iff.trans (Quantity.withSuffix_iff (by decide) (by decide) short_suffixes.1 (by decide)
    (by decide) is)

theorem le_sub_of_twice {low high : ℚ} (twice : low * 2 ≤ high) (one : 1 ≤ low) : 1 ≤ high - low := by
  linarith

theorem isZero_iff (is : isQuantity text = true) :
    0 ≤ amount text ∧ (isZero text = true ↔ amount text * 2 ^ 1075 ≤ 1) := by
  obtain ⟨number, suffix, decimal, rfl, suffixes⟩ := isQuantity_iff.mp is
  have bare : ∀ c ∈ suffix.head?, Quantity.numeric c = false := by
    intro c isHead
    rcases suffixes with rfl | known | ⟨e, _, _, isE, _, _, rfl⟩
    · cases isHead
    · have all : ∀ s ∈ patternSuffixes, s.head?.all (Quantity.numeric · = false) = true := by decide
      exact of_decide_eq_true ((Option.all_eq_true _ _).mp (all suffix known) c isHead)
    · obtain rfl : e = c := Option.some.inj isHead
      have all : ['e', 'E'].all (Quantity.numeric · = false) = true := by decide
      exact of_decide_eq_true (List.all_eq_true.mp all e isE)
  obtain ⟨value, exact_, nonneg⟩ := Quantity.exact_number decimal
  have front := Quantity.numberOf_append decimal bare
  have some : number ≠ [] := by
    obtain ⟨front, c, rfl, -⟩ := Quantity.number_last decimal
    simp
  rw [amount, isZero, front, exact_, Option.getD_some, Option.bind_some]
  have range : (1 : ℚ) < (2 ^ 1024 - 2 ^ 970) * 2 ^ 1075 := by
    have twice : (2 : ℚ) ^ 970 * 2 ≤ 2 ^ 1024 := by
      rw [← pow_succ]
      exact pow_le_pow_right₀ (by norm_num) (by norm_num)
    have one : (1 : ℚ) ≤ 2 ^ 970 := one_le_pow₀ (by norm_num)
    exact one_lt_mul_of_le_of_lt (le_sub_of_twice twice one) (one_lt_pow₀ (by norm_num) (by norm_num))
  refine ⟨nonneg, ?_⟩
  simp only [some, decide_false, Bool.false_or, decide_eq_true_eq, Numeral.double, abs_of_nonneg nonneg]
  split_ifs with huge small
  · simp only [false_iff, not_le]
    exact lt_of_lt_of_le range (mul_le_mul_of_nonneg_right huge (by positivity))
  · exact iff_of_true rfl small
  · refine iff_of_false (fun same => small ?_) small
    rw [Option.some.inj same]
    norm_num

inductive Accepted : Profile → Prop
  | manifest {declared profiles checked mode profile}
      (ok : validateRuntimeProfiles declared profiles = .ok checked)
      (mem : (mode, profile) ∈ checked) : Accepted profile
  | api {body : RuntimeProfile} (valid : body.valid = true) : Accepted body.dump

structure Checked (profile : Profile) : Prop where
  cpu : ∀ value, profile.cpu = some value → ∃ n, value = .number n
  memory : ∀ value, profile.memory = some value → ∃ text, value = .str text ∧ isQuantity text = true

theorem checkNumber_ok {mode field : String} {value checked : Option Value}
    (ok : checkNumber mode field value = .ok checked) :
    ∀ v, checked = some v → ∃ n, v = .number n := by
  unfold checkNumber at ok
  split at ok
  · cases ok
    simp
  · split at ok <;> cases ok
    rintro _ ⟨⟩
    exact ⟨_, rfl⟩
  · cases ok

theorem checkMemory_ok {mode : String} {value checked : Option Value}
    (ok : checkMemory mode value = .ok checked) :
    ∀ v, checked = some v → ∃ text, v = .str text ∧ isQuantity text = true := by
  unfold checkMemory at ok
  split at ok
  · cases ok
    simp
  · cases ok
  · split at ok <;> cases ok
    next is =>
      rintro _ ⟨⟩
      exact ⟨_, rfl, is⟩

theorem validateProfile_ok {declared : List String} {mode : String} {raw : Option Profile}
    {profile : Profile} (ok : validateProfile declared mode raw = .ok profile) : Checked profile := by
  unfold validateProfile at ok
  split_ifs at ok
  · cases raw with
    | none => cases ok
    | some raw =>
      obtain ⟨cpu, isCpu, ok⟩ := bind_ok ok
      obtain ⟨gpu, -, ok⟩ := bind_ok ok
      obtain ⟨memory, isMemory, ok⟩ := bind_ok ok
      cases ok
      exact ⟨checkNumber_ok isCpu, checkMemory_ok isMemory⟩

theorem checked_of_mem {declared : List String} {profiles : List (String × Option Profile)}
    {checked : List (String × Profile)}
    (ok : validateRuntimeProfiles declared profiles = .ok checked) :
    ∀ entry ∈ checked, Checked entry.2 := by
  have each := mapM_ok ok
  clear ok
  induction each with
  | nil => simp
  | cons one _ ih =>
    obtain ⟨profile, isOk, rfl⟩ := map_ok one
    exact List.forall_mem_cons.mpr ⟨validateProfile_ok isOk, ih⟩

theorem Accepted.checked {profile : Profile} (accepted : Accepted profile) : Checked profile := by
  cases accepted with
  | manifest ok mem =>
    exact checked_of_mem ok _ mem
  | @api body valid =>
    simp only [RuntimeProfile.valid, Bool.and_eq_true] at valid
    refine ⟨fun value is => ?_, fun value is => ?_⟩
    · obtain ⟨n, -, rfl⟩ := Option.map_eq_some_iff.mp is
      exact ⟨n, rfl⟩
    · obtain ⟨text, has, rfl⟩ := Option.map_eq_some_iff.mp is
      refine ⟨text, rfl, ?_⟩
      have all := valid.1.2
      rwa [has] at all

def Profile.AsksCpu (profile : Profile) : Prop :=
  ∃ n, profile.cpu = some (.number n) ∧ n.positive = true

def Profile.AsksMemory (profile : Profile) : Prop :=
  ∃ text, profile.memory = some (.str text) ∧ 0 < amount text

/-- The profile becomes a block of quantities, the same in requests and limits, with an entry for each
resource that it asks for. -/
structure Suits (millis : ℚ → Int) (profile : Profile) : Prop where
  block : ∃ made, containerResources millis profile = .ok made ∧
    (∀ block, made = some block → block.requests = block.limits ∧
      ∀ text, block.limits.cpu = some text ∨ block.limits.memory = some text → Quantity.Valid text) ∧
    ((∃ block text, made = some block ∧ block.limits.cpu = some text) ↔ profile.AsksCpu) ∧
    ((∃ block text, made = some block ∧ block.limits.memory = some text) ↔ profile.AsksMemory)

def Number.Finite : Number → Prop
  | .int n => Numeral.double n ≠ none
  | .float _ _ => True
  | .inf _ => False
  | .nan => False

/-- The cpu is finite, and the memory, if it is more than zero, is not in `ki` and not below the half of
the least double. -/
structure Profile.Fits (profile : Profile) : Prop where
  cpu : ∀ n, profile.cpu = some (.number n) → n.positive = true → n.Finite
  memory : ∀ text, profile.memory = some (.str text) → 0 < amount text →
    ¬['k', 'i'] <:+ text ∧ 1 < amount text * 2 ^ 1075

variable (millis : ℚ → Int) {profile : Profile}

theorem digits_toString {n : Int} (positive : 0 < n) : Digits (toString n).toList := by
  rw [Int.toString_eq_repr, Int.repr_eq_if, if_pos (Int.le_of_lt positive), Nat.repr, String.toList_ofList]
  exact ⟨Nat.toDigits_ne_nil, fun c mem => Nat.isDigit_of_mem_toDigits (by decide) (by decide) mem⟩

theorem digits_valid {n : Int} (positive : 0 < n) {suffix : List Char}
    (known : suffix = [] ∨ suffix ∈ decimalSI ++ binarySI) :
    Quantity.Valid ((toString n).toList ++ suffix) :=
  ⟨_, suffix, ⟨_, digits_toString positive, .inl rfl⟩, rfl, known.imp id .inl⟩

theorem cpuQuantity_finite {n : Number} (positive : n.positive = true) (finite : n.Finite) :
    ∃ text, cpuQuantity millis n = .ok text ∧ Quantity.Valid text := by
  cases n with
  | int n =>
    refine ⟨_, if_neg finite, ?_⟩
    simpa using digits_valid (of_decide_eq_true positive) (.inl rfl)
  | float value _ =>
    simp only [cpuQuantity]
    split
    · refine ⟨_, rfl, ?_⟩
      simpa using digits_valid (Rat.num_pos.mpr (of_decide_eq_true positive)) (.inl rfl)
    · refine ⟨_, rfl, digits_valid ?_ (.inr (by decide))⟩
      omega
  | inf => exact finite.elim
  | nan => exact finite.elim

theorem finite_of_ok {n : Number} {text : List Char} (ok : cpuQuantity millis n = .ok text) : n.Finite := by
  cases n with
  | int n =>
    intro infinite
    rw [cpuQuantity, if_pos infinite] at ok
    cases ok
  | float => trivial
  | inf => cases ok
  | nan => cases ok

theorem wantedCpu_spec (checked : Checked profile) :
    (∀ cpu, wantedCpu millis profile = .ok cpu →
      ((∃ text, cpu = some text) ↔ profile.AsksCpu) ∧ (∀ text, cpu = some text → Quantity.Valid text)) ∧
    ((∃ cpu, wantedCpu millis profile = .ok cpu) ↔
      ∀ n, profile.cpu = some (.number n) → n.positive = true → n.Finite) := by
  unfold wantedCpu Profile.AsksCpu
  cases is : profile.cpu with
  | none => simp
  | some value =>
    obtain ⟨n, rfl⟩ := checked.cpu value is
    simp only [Option.some.injEq, Value.number.injEq, exists_eq_left', forall_eq']
    by_cases positive : n.positive = true
    · simp only [if_pos positive]
      refine ⟨fun cpu ok => ?_, fun ⟨cpu, ok⟩ _ => ?_, fun finite => ?_⟩
      · obtain ⟨text, made, rfl⟩ := map_ok ok
        obtain ⟨text', made', valid⟩ := cpuQuantity_finite millis positive (finite_of_ok millis made)
        rw [made] at made'
        cases made'
        exact ⟨iff_of_true ⟨_, rfl⟩ positive, fun _ same => Option.some.inj same ▸ valid⟩
      · obtain ⟨text, made, rfl⟩ := map_ok ok
        exact finite_of_ok millis made
      · obtain ⟨text, made, -⟩ := cpuQuantity_finite millis positive (finite positive)
        exact ⟨some text, by rw [made]; rfl⟩
    · simp [positive]

theorem wantedMemory_spec (checked : Checked profile) :
    (((∃ text, wantedMemory profile = some text) ↔ profile.AsksMemory) ∧
      ∀ text, wantedMemory profile = some text → Quantity.Valid text) ↔
    ∀ text, profile.memory = some (.str text) → 0 < amount text →
      ¬['k', 'i'] <:+ text ∧ 1 < amount text * 2 ^ 1075 := by
  unfold wantedMemory Profile.AsksMemory
  cases is : profile.memory with
  | none => simp
  | some value =>
    obtain ⟨text, rfl, quantity⟩ := checked.memory value is
    obtain ⟨nonneg, zero⟩ := isZero_iff quantity
    have valid := valid_iff quantity
    simp only [Option.some.injEq, Value.str.injEq, exists_eq_left', forall_eq', quantity, Bool.true_and]
    cases isZero : isZero text with
    | true =>
      have small := zero.mp isZero
      simp [not_lt.mpr small]
    | false =>
      have large : ¬amount text * 2 ^ 1075 ≤ 1 := fun small => by
        rw [zero.mpr small] at isZero
        cases isZero
      have positive : 0 < amount text := by
        rcases nonneg.lt_or_eq with positive | zero
        · exact positive
        · rw [← zero] at large
          exact absurd (by norm_num) large
      simp [positive, valid, lt_of_not_ge large]

/-- Which profiles suit, of those that have passed the checks; and which quantities the checks let
through. -/
theorem resources_hold :
    (∀ profile, Accepted profile → (Suits millis profile ↔ profile.Fits)) ∧
      ∀ text, Quantity.Valid text →
        (((∀ mode, checkMemory mode (some (.str text)) = .ok (some (.str text))) ∧
          (RuntimeProfile.mk none (some text) none).valid = true) ↔ ¬['K', 'i'] <:+ text) := by
  refine ⟨fun profile accepted => ?_, fun text valid => ?_⟩
  · have checked := accepted.checked
    obtain ⟨made, finite⟩ := wantedCpu_spec millis checked
    have memory := wantedMemory_spec checked
    constructor
    · rintro ⟨block, ok, inside, cpus, memories⟩
      obtain ⟨cpu, isCpu, same⟩ := bind_ok ok
      cases same
      refine ⟨finite.mp ⟨cpu, isCpu⟩, memory.mp ⟨?_, fun text is => ?_⟩⟩
      · rw [← memories]
        cases wantedMemory profile <;> simp
      · refine (inside ⟨⟨cpu, _⟩, ⟨cpu, _⟩⟩ (if_pos ?_)).2 text (.inr is)
        simp [is]
    · rintro ⟨cpuFits, memoryFits⟩
      obtain ⟨cpu, isCpu⟩ := finite.mpr cpuFits
      obtain ⟨asksCpu, validCpu⟩ := made cpu isCpu
      obtain ⟨asksMemory, validMemory⟩ := memory.mpr memoryFits
      refine ⟨_, by rw [containerResources, isCpu]; rfl, ?_, ?_, ?_⟩
      · intro block is
        split at is <;> cases is
        exact ⟨rfl, fun text has => has.elim (validCpu text) (validMemory text)⟩
      · rw [← asksCpu]
        cases cpu <;> simp
      · rw [← asksMemory]
        cases wantedMemory profile <;> simp
  · rw [← isQuantity_of_valid valid]
    simp only [checkMemory, Value.text, RuntimeProfile.valid, Option.all_none, Option.all_some,
      Bool.true_and, Bool.and_true]
    constructor
    · exact fun both => both.2
    · intro is
      exact ⟨fun _ => if_pos is, is⟩

section Sample

def sizing (memory : String) : RuntimeProfile := ⟨some (.int 2), some memory.toList, none⟩

theorem sizing_suits : Suits (fun _ => 0) (sizing "4Gi").dump := by
  refine ((resources_hold fun _ => 0).1 _ (.api (by decide +kernel))).mpr ⟨fun n is _ => ?_, fun text is _ => ?_⟩
  · cases is
    exact (by decide +kernel : Numeral.double 2 ≠ none)
  · cases is
    have four : amount "4Gi".toList = 4 := by decide +kernel
    refine ⟨by decide, ?_⟩
    rw [four]
    exact one_lt_mul_of_lt_of_le (by norm_num) (one_le_pow₀ (by norm_num))

/-- `1ki` passes the checks and becomes a limit. -/
theorem ki_unsuited : Accepted (sizing "1ki").dump ∧ ¬Suits (fun _ => 0) (sizing "1ki").dump := by
  refine ⟨.api (by decide +kernel), ?_⟩
  rintro ⟨block, ok, inside, -⟩
  have made : containerResources (fun _ => 0) (sizing "1ki").dump =
      .ok (some ⟨⟨some ['2'], some "1ki".toList⟩, ⟨some ['2'], some "1ki".toList⟩⟩) := by
    decide +kernel
  rw [made] at ok
  cases ok
  have valid := (inside _ rfl).2 "1ki".toList (.inr rfl)
  exact (valid_iff (by decide +kernel)).mp valid ⟨['1'], rfl⟩

end Sample

end Smo.RuntimeResources
