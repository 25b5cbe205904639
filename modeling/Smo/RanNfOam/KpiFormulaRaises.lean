import Smo.RanNfOam.KpiFormula

/-! What goes wrong in the evaluation of a KPI formula: the operations that raise outside the arguments
of a function, where nothing catches it. -/
namespace Smo.RanNfOam.KpiFormula

section Escaping

variable {α β : Type}

def Escaped (r : Except Exc α) : Prop := ∃ exc, r = .error exc ∧ exc ≠ .undefined

@[simp] theorem escaped_ok (value : α) : ¬Escaped (.ok value : Except Exc α) := by
  rintro ⟨_, is, -⟩
  cases is

@[simp] theorem escaped_pure (value : α) : ¬Escaped (pure value : Except Exc α) := escaped_ok value

@[simp] theorem escaped_error (exc : Exc) : Escaped (.error exc : Except Exc α) ↔ exc ≠ .undefined := by
  constructor
  · rintro ⟨other, is, raised⟩
    cases is
    exact raised
  · exact fun raised => ⟨exc, rfl, raised⟩

theorem escaped_bind (r : Except Exc α) (f : α → Except Exc β) :
    Escaped (r >>= f) ↔ Escaped r ∨ ∃ value, r = .ok value ∧ Escaped (f value) := by
  cases r with
  | error exc =>
    change Escaped (.error exc : Except Exc β) ↔ _
    simp
  | ok value =>
    change Escaped (f value) ↔ _
    simp

theorem escaped_map (r : Except Exc α) (f : α → β) : Escaped (f <$> r) ↔ Escaped r := by
  cases r with
  | error exc =>
    change Escaped (.error exc : Except Exc β) ↔ _
    simp
  | ok value =>
    change Escaped (.ok (f value) : Except Exc β) ↔ _
    simp

theorem escaped_orOverflow (found : Option α) : Escaped (orOverflow found) ↔ found = none := by
  cases found <;> simp [orOverflow]

end Escaping

section Raising

variable {F C : Type} (python : Python F C)

def isInt : Value F C → Bool
  | .int _ => true
  | _ => false

def Huge : Value F C → Prop
  | .int value => python.ofInt value = none
  | _ => False

def Mixed (x y : Value F C) : Prop :=
  (Huge python x ∧ isInt y = false) ∨ (isInt x = false ∧ Huge python y)

def QuotientOverflows : Value F C → Value F C → Prop
  | .int m, .int n => python.quotient m n = none
  | _, _ => False

def Clash (op : Operator) (x y : Value F C) : Prop :=
  match op with
  | .add | .sub | .mult => Mixed python x y
  | .div => equalsZero python y = false ∧ (Mixed python x y ∨ QuotientOverflows python x y)
  | .pow | .other => False

variable (values : Str → Option (Value F C))

mutual

/-- The evaluation of a formula comes to an operation that raises, outside the arguments of a
function. -/
def Escapes : Node F → Prop
  | .constant _ | .name _ | .other _ => False
  | .unaryOp _ operand => Escapes operand
  | .binOp left op right =>
    Escapes left ∨ ∃ x, run python values left = .ok x ∧
      (Escapes right ∨ ∃ y, run python values right = .ok y ∧ Clash python op x y)
  | .compare left ops comparators =>
    Escapes left ∨ ∃ x, run python values left = .ok x ∧ CompareEscapes x ops comparators
  | .call func args _ => callee func = some ifelse ∧ IfelseEscapes args

def CompareEscapes : Value F C → List Comparison → List (Node F) → Prop
  | x, op :: ops, comparator :: comparators =>
    Escapes comparator ∨ ∃ y, run python values comparator = .ok y ∧
      ((isComplex x || isComplex y) = true ∨
        (isComplex x || isComplex y) = false ∧ python.ordered op x y = true ∧
          CompareEscapes y ops comparators)
  | _, _, _ => False

def IfelseEscapes : List (Node F) → Prop
  | [condition, yes, no] =>
    Escapes condition ∨ ∃ x, run python values condition = .ok x ∧
      ((equalsZero python x = true ∧ Escapes no) ∨ (equalsZero python x = false ∧ Escapes yes))
  | _ => False

end

theorem integers_raises (op : Operator) (m n : Int) :
    Escaped (integers python op m n : Except Exc (Value F C)) ↔
      op ∉ [Operator.add, .sub, .mult] ∧ python.quotient m n = none := by
  cases op <;> simp [integers, escaped_map, escaped_orOverflow]

theorem toFloat_raises {x : Value F C} (real : isComplex x = false) :
    Escaped (toFloat python x) ↔ Huge python x := by
  cases x with
  | int => exact escaped_orOverflow _
  | float => simp [toFloat, Huge]
  | complex => cases real

theorem toComplex_raises (x : Value F C) : Escaped (toComplex python x) ↔ Huge python x := by
  cases x with
  | int => exact (escaped_map _ _).trans (escaped_orOverflow _)
  | float => simp [toComplex, Huge]
  | complex => simp [toComplex, Huge]

theorem toFloat_answers {x : Value F C} (real : isComplex x = false) (fits : ¬Huge python x) :
    ∃ value, toFloat python x = .ok value := by
  cases x with
  | int n =>
    cases found : python.ofInt n with
    | none => exact absurd found fits
    | some value => exact ⟨value, by rw [toFloat, found, orOverflow]⟩
  | float value => exact ⟨value, rfl⟩
  | complex => cases real

theorem toComplex_answers {x : Value F C} (fits : ¬Huge python x) :
    ∃ value, toComplex python x = .ok value := by
  cases x with
  | int n =>
    cases found : python.ofInt n with
    | none => exact absurd found fits
    | some value => exact ⟨_, by rw [toComplex, found, orOverflow]; rfl⟩
  | float value => exact ⟨_, rfl⟩
  | complex value => exact ⟨_, rfl⟩

theorem converted_raises {G : Type} {x y : Value F C} {convert : Value F C → Except Exc G}
    {result : G → G → Value F C} (raises : ∀ z ∈ [x, y], Escaped (convert z) ↔ Huge python z)
    (answers : ¬Huge python x → ∃ value, convert x = .ok value) :
    Escaped (do return result (← convert x) (← convert y) : Except Exc (Value F C)) ↔
      Huge python x ∨ Huge python y := by
  rw [escaped_bind, raises x (by simp)]
  refine or_congr_right' fun fits => ?_
  obtain ⟨value, is⟩ := answers fits
  rw [is]
  simp only [escaped_bind, escaped_pure, and_false, exists_false, or_false, Except.ok.injEq]
  rw [← raises y (by simp)]
  simp

theorem arithmetic_raises (op : Operator) (x y : Value F C) : Escaped (arithmetic python op x y) ↔
    Mixed python x y ∨ (op ∉ [Operator.add, .sub, .mult] ∧ QuotientOverflows python x y) := by
  have mixed (apart : isInt x = false ∨ isInt y = false) :
      Huge python x ∨ Huge python y ↔ Mixed python x y ∨
        (op ∉ [Operator.add, .sub, .mult] ∧ QuotientOverflows python x y) := by
    cases x <;> cases y <;> simp_all [Mixed, Huge, isInt, QuotientOverflows]
  have complexes (either : (isComplex x || isComplex y) = true) :
      Escaped (do return .complex (python.complexOp op (← toComplex python x) (← toComplex python y)) :
        Except Exc (Value F C)) ↔ Huge python x ∨ Huge python y :=
    converted_raises python (fun z _ => toComplex_raises python z) (toComplex_answers python)
  have reals (neither : ¬(isComplex x || isComplex y) = true) :
      Escaped (do return .float (python.floatOp op (← toFloat python x) (← toFloat python y)) :
        Except Exc (Value F C)) ↔ Huge python x ∨ Huge python y := by
    simp only [Bool.or_eq_true, not_or, Bool.not_eq_true] at neither
    refine converted_raises python (fun z mem => ?_) (toFloat_answers python neither.1)
    rcases List.mem_cons.mp mem with rfl | rest
    · exact toFloat_raises python neither.1
    · rw [List.mem_singleton.mp rest]
      exact toFloat_raises python neither.2
  have converted (apart : isInt x = false ∨ isInt y = false) :
      Escaped (arithmetic python op x y) ↔ Huge python x ∨ Huge python y := by
    have unfolds : arithmetic python op x y =
        if isComplex x || isComplex y then do
          return .complex (python.complexOp op (← toComplex python x) (← toComplex python y))
        else do
          return .float (python.floatOp op (← toFloat python x) (← toFloat python y)) := by
      cases x <;> cases y <;> first | rfl | simp [isInt] at apart
    rw [unfolds]
    split
    next either => exact complexes either
    next neither => exact reals neither
  by_cases apart : isInt x = false ∨ isInt y = false
  · exact (converted apart).trans (mixed apart)
  · cases x with
    | float | complex => exact absurd (.inl rfl) apart
    | int m =>
      cases y with
      | float | complex => exact absurd (.inr rfl) apart
      | int n =>
        have unfolds : arithmetic python op (.int m) (.int n) = integers python op m n := rfl
        rw [unfolds, integers_raises]
        simp [Mixed, isInt, QuotientOverflows]

theorem escaped_caught {α : Type} {kinds : List Exc} {r : Except Exc α} (covers : ∀ exc, r = .error exc →
    exc = .undefined ∨ exc ∈ kinds) : ¬Escaped (caught kinds r) := by
  cases r with
  | ok value => simp [caught]
  | error exc =>
    rcases covers exc rfl with rfl | mem
    · rw [caught]
      split <;> simp
    · simp [caught, mem]

theorem power_caught (x y : Value F C) (exc : Exc) (raised : toPower python x y = .error exc) :
    exc ∈ [Exc.overflow, .zeroDivision, .value] := by
  unfold toPower at raised
  split at raised
  · split at raised
    · cases raised
    · exact python.power_raises _ _ _ raised
  · exact python.power_raises _ _ _ raised

theorem binary_raises (op : Operator) (x y : Value F C) :
    Escaped (binary python op x y) ↔ Clash python op x y := by
  cases op with
  | add | sub | mult => simp [binary, Clash, arithmetic_raises]
  | div =>
    unfold binary Clash
    cases zero : equalsZero python y with
    | true => simp
    | false => simp [arithmetic_raises]
  | other => simp [binary, Clash]
  | pow =>
    exact iff_of_false (escaped_caught fun exc raised => .inr (power_caught python x y exc raised))
      fun clash => clash

def Kind (exc : Exc) : Prop := exc ∈ [Exc.undefined, .overflow, .type]

def Kinds {α : Type} (r : Except Exc α) : Prop := ∀ exc, r = .error exc → Kind exc

theorem kinds_ok {α : Type} (value : α) : Kinds (.ok value : Except Exc α) := nofun

theorem kinds_error {α : Type} {exc : Exc} (kind : Kind exc) : Kinds (.error exc : Except Exc α) := by
  intro other is
  cases is
  exact kind

theorem kinds_bind {α β : Type} {r : Except Exc α} {f : α → Except Exc β} (first : Kinds r)
    (rest : ∀ value, r = .ok value → Kinds (f value)) : Kinds (r >>= f) := by
  cases r with
  | error exc => exact kinds_error (first exc rfl)
  | ok value => exact rest value rfl

theorem kinds_orOverflow {α : Type} (found : Option α) : Kinds (orOverflow found) := by
  cases found with
  | none => exact kinds_error (by simp [Kind])
  | some value => exact kinds_ok value

theorem kinds_toFloat (x : Value F C) : Kinds (toFloat python x) := by
  cases x with
  | int => exact kinds_orOverflow _
  | float => exact kinds_ok _
  | complex => exact kinds_error (by simp [Kind])

theorem kinds_toComplex (x : Value F C) : Kinds (toComplex python x) := by
  cases x with
  | int => exact kinds_bind (kinds_orOverflow _) fun value _ => kinds_ok (python.ofFloat value)
  | float => exact kinds_ok _
  | complex => exact kinds_ok _

theorem kinds_arithmetic (op : Operator) (x y : Value F C) : Kinds (arithmetic python op x y) := by
  unfold arithmetic
  split
  · unfold integers
    split
    · exact kinds_ok _
    · exact kinds_ok _
    · exact kinds_ok _
    · exact kinds_bind (kinds_orOverflow _) fun value _ =>
        kinds_ok (Value.float value : Value F C)
  · split
    · exact kinds_bind (kinds_toComplex python _) fun _ _ =>
        kinds_bind (kinds_toComplex python _) fun _ _ => kinds_ok _
    · exact kinds_bind (kinds_toFloat python _) fun _ _ =>
        kinds_bind (kinds_toFloat python _) fun _ _ => kinds_ok _

theorem kinds_caught {α : Type} {kinds : List Exc} {r : Except Exc α}
    (raises : ∀ exc, r = .error exc → Kind exc ∨ exc ∈ kinds) : Kinds (caught kinds r) := by
  cases r with
  | ok value => exact kinds_ok value
  | error exc =>
    refine kinds_error ?_
    split
    next => simp [Kind]
    next other => exact (raises exc rfl).resolve_right other

theorem kinds_binary (op : Operator) (x y : Value F C) : Kinds (binary python op x y) := by
  cases op with
  | add | sub | mult => exact kinds_arithmetic python _ x y
  | div =>
    unfold binary
    dsimp only
    split
    · exact kinds_error (by simp [Kind])
    · exact kinds_arithmetic python _ x y
  | pow => exact kinds_caught fun exc raised => .inr (power_caught python x y exc raised)
  | other => exact kinds_error (by simp [Kind])

theorem apply_covered {id : Str} {args : List (Node F)} (kinds : Kinds (runArgs python values args))
    (exc : Exc) (raised : (do python.apply id (← runArgs python values args)) = .error exc) :
    Kind exc ∨ exc ∈ [Exc.value, .overflow, .type] := by
  cases evaluated : runArgs python values args with
  | error inner =>
    rw [evaluated] at raised
    cases raised
    exact .inl (kinds exc evaluated)
  | ok found =>
    rw [evaluated] at raised
    exact .inr (python.apply_raises id found exc raised)

mutual

theorem kinds_run (node : Node F) : Kinds (run python values node) := by
  cases node with
  | constant value =>
    unfold run
    cases value with
    | int | float => exact kinds_ok _
    | other => exact kinds_error (by simp [Kind])
  | name id =>
    unfold run
    split
    · exact kinds_error (by simp [Kind])
    · exact kinds_ok _
  | binOp left op right =>
    unfold run
    exact kinds_bind (kinds_run left) fun x _ => kinds_bind (kinds_run right) fun y _ =>
      kinds_binary python op x y
  | unaryOp op operand =>
    unfold run
    exact kinds_bind (kinds_run operand) fun x _ => kinds_ok _
  | compare left ops comparators =>
    unfold run
    exact kinds_bind (kinds_run left) fun x _ => kinds_runCompare x ops comparators
  | call func args plain =>
    unfold run
    split
    · exact kinds_error (by simp [Kind])
    · split
      · exact kinds_runIfelse args
      · exact kinds_caught (apply_covered python values (kinds_runArgs args))
  | other kind =>
    unfold run
    exact kinds_error (by simp [Kind])

theorem kinds_runCompare (x : Value F C) (ops : List Comparison) (comparators : List (Node F)) :
    Kinds (runCompare python values x ops comparators) := by
  cases ops with
  | nil =>
    unfold runCompare
    exact kinds_ok _
  | cons op ops =>
    cases comparators with
    | nil =>
      unfold runCompare
      exact kinds_ok _
    | cons comparator comparators =>
      unfold runCompare
      refine kinds_bind (kinds_run comparator) fun y _ => kinds_bind ?_ fun holds _ => ?_
      · unfold compared
        split
        · exact kinds_error (by simp [Kind])
        · exact kinds_ok _
      · split
        · exact kinds_runCompare y ops comparators
        · exact kinds_ok _

theorem kinds_runIfelse (args : List (Node F)) : Kinds (runIfelse python values args) := by
  match args with
  | [condition, yes, no] =>
    unfold runIfelse
    refine kinds_bind (kinds_run condition) fun x _ => ?_
    split
    · exact kinds_run no
    · exact kinds_run yes
  | [] | [_] | [_, _] | _ :: _ :: _ :: _ :: _ =>
    unfold runIfelse
    exact kinds_error (by simp [Kind])

theorem kinds_runArgs (args : List (Node F)) : Kinds (runArgs python values args) := by
  cases args with
  | nil =>
    unfold runArgs
    exact kinds_ok _
  | cons arg rest =>
    unfold runArgs
    exact kinds_bind (kinds_run arg) fun value _ => kinds_bind (kinds_runArgs rest) fun _ _ => kinds_ok _

end

mutual

theorem run_escapes (node : Node F) : Escaped (run python values node) ↔ Escapes python values node := by
  cases node with
  | constant value =>
    unfold run Escapes
    cases value <;> simp [constantValue]
  | name id =>
    unfold run Escapes
    split <;> simp
  | binOp left op right =>
    unfold run Escapes
    simp only [escaped_bind, run_escapes left, run_escapes right, binary_raises]
  | unaryOp op operand =>
    unfold run Escapes
    simp only [escaped_bind, run_escapes operand, escaped_pure, and_false, exists_false, or_false]
  | compare left ops comparators =>
    unfold run Escapes
    simp only [escaped_bind, run_escapes left, runCompare_escapes]
  | call func args plain =>
    unfold run Escapes
    cases callee func with
    | none => simp
    | some id =>
      dsimp only
      by_cases conditional : id = ifelse
      · rw [if_pos conditional, runIfelse_escapes args, conditional]
        simp
      · rw [if_neg conditional]
        refine iff_of_false (escaped_caught fun exc raised => ?_) fun both =>
          conditional (Option.some.inj both.1)
        rcases apply_covered python values (kinds_runArgs python values args) exc raised with
          kind | covered
        · simp only [Kind, List.mem_cons, List.not_mem_nil, or_false] at kind ⊢
          rcases kind with rfl | rfl | rfl <;> simp
        · exact .inr covered
  | other kind =>
    unfold run Escapes
    simp

theorem runCompare_escapes (x : Value F C) (ops : List Comparison) (comparators : List (Node F)) :
    Escaped (runCompare python values x ops comparators) ↔
      CompareEscapes python values x ops comparators := by
  cases ops with
  | nil =>
    unfold runCompare CompareEscapes
    simp
  | cons op ops =>
    cases comparators with
    | nil =>
      unfold runCompare CompareEscapes
      simp
    | cons comparator comparators =>
      unfold runCompare CompareEscapes
      rw [escaped_bind, run_escapes comparator]
      refine or_congr_right (exists_congr fun y => and_congr_right fun _ => ?_)
      rw [escaped_bind, compared]
      cases complexes : (isComplex x || isComplex y) with
      | true => simp
      | false =>
        cases holds : python.ordered op x y with
        | true => simp [runCompare_escapes y ops comparators]
        | false => simp

theorem runIfelse_escapes (args : List (Node F)) :
    Escaped (runIfelse python values args) ↔ IfelseEscapes python values args := by
  match args with
  | [condition, yes, no] =>
    unfold runIfelse IfelseEscapes
    rw [escaped_bind, run_escapes condition]
    refine or_congr_right (exists_congr fun x => and_congr_right fun _ => ?_)
    cases zero : equalsZero python x with
    | true => simp [run_escapes no]
    | false => simp [run_escapes yes]
  | [] | [_] | [_, _] | _ :: _ :: _ :: _ :: _ =>
    unfold runIfelse IfelseEscapes
    simp

end

def Real (x : Value F C) : Prop := isComplex x = false ∧ ¬Huge python x

def Safe (formula : Str) : Prop :=
  ∃ result, evaluate python values formula = .ok result ∧ ∀ value ∈ result, python.finite value = true

theorem toFloat_escapes (x : Value F C) : Escaped (toFloat python x) ↔ ¬Real python x := by
  cases complex : isComplex x with
  | false => simp [Real, complex, toFloat_raises python complex]
  | true =>
    cases x with
    | int | float => cases complex
    | complex value => simp [Real, complex, toFloat]

theorem safe_iff_escaped {formula : Str} {body : Node F} (accepted : parse python formula = .ok body) :
    Safe python values formula ↔ ¬Escaped (run python values body >>= toFloat python) := by
  unfold Safe evaluate
  rw [accepted]
  dsimp only
  cases ended : run python values body >>= toFloat python with
  | ok result =>
    refine iff_of_true ⟨_, rfl, fun value is => ?_⟩ (escaped_ok _)
    by_cases finite : python.finite result = true
    · rw [if_pos finite] at is
      cases is
      exact finite
    · rw [if_neg finite] at is
      cases is
  | error exc =>
    cases exc with
    | undefined => exact iff_of_true ⟨none, rfl, nofun⟩ (by simp)
    | overflow | type | value | zeroDivision =>
      refine iff_of_false ?_ (by simp)
      rintro ⟨_, is, -⟩
      cases is

section Sample

/-- Numbers of which only the integers are used; those from `2 ^ 1024` on have no float. -/
def sample : Python Int Unit where
  astParse formula :=
    if formula = "a ** 64".toList then some (.binOp (.name ['a']) .pow (.constant (.int 64)))
    else if formula = "1000000000000 ** 64".toList then
      some (.binOp (.constant (.int 1000000000000)) .pow (.constant (.int 64)))
    else none
  zero := 0
  one := 1
  finite := fun _ => true
  literalFits := fun _ => true
  exponentFits := fun _ => true
  isZero := (· = 0)
  complexIsZero := fun _ => true
  ofInt n := if n.natAbs.log2 < 1024 then some n else none
  quotient m n := some (m / n)
  ofFloat := fun _ => ()
  floatOp := fun _ x _ => x
  complexOp := fun _ _ _ => ()
  negative := (- ·)
  complexNegative := id
  ordered := fun _ _ _ => true
  power := fun _ _ => .error .value
  power_raises := by
    rintro _ _ _ ⟨⟩
    decide
  apply := fun _ _ => .error .value
  apply_raises := by
    rintro _ _ _ ⟨⟩
    decide

theorem power_accepted : parse sample "a ** 64".toList =
    .ok (.binOp (.name ['a']) .pow (.constant (.int 64))) := by
  rfl

theorem run_power (m : Int) : run sample (fun _ => some (.int m))
    (.binOp (.name ['a']) .pow (.constant (.int 64))) = .ok (.int (m ^ 64)) := by
  unfold run
  simp only [run, constantValue]
  rfl

theorem huge_sample (n : Int) : Huge sample (.int n) ↔ 1024 ≤ n.natAbs.log2 := by
  have float : sample.ofInt n = if n.natAbs.log2 < 1024 then some n else none := rfl
  rw [Huge, float]
  simp

theorem literal_accepted : parse sample "1000000000000 ** 64".toList =
    .ok (.binOp (.constant (.int 1000000000000)) .pow (.constant (.int 64))) := by
  rfl

theorem run_literal (m : Int) : run sample (fun _ => none)
    (.binOp (.constant (.int m)) .pow (.constant (.int 64))) = .ok (.int (m ^ 64)) := by
  unfold run
  simp only [run, constantValue]
  rfl

end Sample

end Raising

end Smo.RanNfOam.KpiFormula
