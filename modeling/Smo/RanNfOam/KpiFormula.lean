import Mathlib
import Smo.Shared.Str

/-! The KPI formula evaluator (`ran-nf-oam/app/kpi_formula.py`), over Python's numbers. -/
namespace Smo.RanNfOam.KpiFormula

inductive Operator
  | add | sub | mult | div | pow
  | other
  deriving DecidableEq

inductive Comparison
  | lt | ltE | gt | gtE | eq | notEq
  | other
  deriving DecidableEq

inductive Sign
  | usub | uadd
  | other
  deriving DecidableEq

inductive Constant (F : Type)
  | int (value : Int)
  | float (value : F)
  | other

/-- A syntax tree of `ast`, as far as a formula may have it; a call is plain without keywords and
starred arguments. -/
inductive Node (F : Type)
  | constant (value : Constant F)
  | name (id : Str)
  | binOp (left : Node F) (op : Operator) (right : Node F)
  | unaryOp (op : Sign) (operand : Node F)
  | compare (left : Node F) (ops : List Comparison) (comparators : List (Node F))
  | call (func : Node F) (args : List (Node F)) (plain : Bool)
  | other (kind : String)

inductive Value (F C : Type)
  | int (value : Int)
  | float (value : F)
  | complex (value : C)

inductive Exc
  | undefined | overflow | type | value | zeroDivision
  deriving DecidableEq

def functions : List Str :=
  ["min".toList, "max".toList, "abs".toList, "sqrt".toList, "round".toList, "log10".toList]

def ifelse : Str := "ifelse".toList

/-- Python's floats and complex numbers, its parser, and what it raises: `float` of an integer and the
quotient of two may overflow, powers and the functions raise only what is listed. -/
structure Python (F C : Type) where
  astParse : Str → Option (Node F)
  zero : F
  one : F
  finite : F → Bool
  literalFits : F → Bool
  exponentFits : F → Bool
  isZero : F → Bool
  complexIsZero : C → Bool
  ofInt : Int → Option F
  quotient : Int → Int → Option F
  ofFloat : F → C
  floatOp : Operator → F → F → F
  complexOp : Operator → C → C → C
  negative : F → F
  complexNegative : C → C
  ordered : Comparison → Value F C → Value F C → Bool
  power : Value F C → Value F C → Except Exc (Value F C)
  power_raises : ∀ x y exc, power x y = .error exc → exc ∈ [Exc.overflow, .zeroDivision, .value]
  apply : Str → List (Value F C) → Except Exc (Value F C)
  apply_raises : ∀ id args exc, apply id args = .error exc → exc ∈ [Exc.value, .overflow, .type]

section Parsing

variable {F C : Type} (python : Python F C)

def maxLength : Nat := 500
def maxNodes : Nat := 120
def maxDepth : Nat := 24
def maxExponent : Nat := 64
def maxLiteral : Nat := 10 ^ 12

def checkConstant : Constant F → Except String Unit
  | .int value =>
    if value.natAbs ≤ maxLiteral then .ok ()
    else .error "only plain numbers up to 1e12 are allowed as constants"
  | .float value =>
    if python.literalFits value then .ok ()
    else .error "only plain numbers up to 1e12 are allowed as constants"
  | .other => .error "only plain numbers up to 1e12 are allowed as constants"

def checkExponent : Node F → Except String Unit
  | .constant (.int value) =>
    if value.natAbs ≤ maxExponent then .ok ()
    else .error "an exponent must be a number no larger than 64"
  | .constant (.float value) =>
    if python.exponentFits value then .ok ()
    else .error "an exponent must be a number no larger than 64"
  | _ => .error "an exponent must be a number no larger than 64"

def callee : Node F → Option Str
  | .name id => some id
  | _ => none

def checkCallee (id : Str) (args : Nat) : Except String Unit :=
  if id ∉ functions ∧ id ≠ ifelse then
    .error (String.ofList id ++
      " is not a function a formula may call (allowed: abs, ifelse, log10, max, min, round, sqrt)")
  else if id = ifelse ∧ args ≠ 3 then
    .error "ifelse takes three arguments: ifelse(condition, then, else)"
  else if args = 0 then .error (String.ofList id ++ " needs at least one argument")
  else .ok ()

def checkBounds (depth nodes : Nat) : Except String Nat :=
  if maxNodes < nodes + 1 then .error "the formula has more than 120 parts"
  else if maxDepth < depth then .error "the formula is nested deeper than 24"
  else .ok (nodes + 1)

mutual

/-- `check`: the number of parts with those of this node. -/
def check : Node F → (depth nodes : Nat) → Except String Nat
  | .constant value, depth, nodes => do
    let nodes ← checkBounds depth nodes
    checkConstant python value
    return nodes
  | .name id, depth, nodes => do
    let nodes ← checkBounds depth nodes
    if id ∈ functions ∨ id = ifelse then
      .error (String.ofList id ++ " is a function and needs an argument list")
    else return nodes
  | .binOp left op right, depth, nodes => do
    let nodes ← checkBounds depth nodes
    if op = .other then .error "BinOp is not allowed in a formula"
    else do
      let nodes ← check left (depth + 1) nodes
      let nodes ← check right (depth + 1) nodes
      if op = .pow then checkExponent python right
      return nodes
  | .unaryOp op operand, depth, nodes => do
    let nodes ← checkBounds depth nodes
    if op = .other then .error "UnaryOp is not allowed in a formula"
    else check operand (depth + 1) nodes
  | .compare left ops comparators, depth, nodes => do
    let nodes ← checkBounds depth nodes
    if .other ∈ ops then .error "Compare is not allowed in a formula"
    else do
      let nodes ← check left (depth + 1) nodes
      checkAll comparators (depth + 1) nodes
  | .call func args plain, depth, nodes => do
    let nodes ← checkBounds depth nodes
    match (callee func).filter fun _ => plain with
    | none => .error "Call is not allowed in a formula"
    | some id => do
      checkCallee id args.length
      checkAll args (depth + 1) nodes
  | .other kind, depth, nodes => do
    let _ ← checkBounds depth nodes
    .error (kind ++ " is not allowed in a formula")

def checkAll : List (Node F) → (depth nodes : Nat) → Except String Nat
  | [], _, nodes => .ok nodes
  | node :: rest, depth, nodes => do
    let nodes ← check node depth nodes
    checkAll rest depth nodes

end

/-- `parse`: the body of the expression. -/
def parse (formula : Str) : Except String (Node F) :=
  if Str.strip formula = [] then .error "the formula is empty"
  else if maxLength < formula.length then .error "the formula is longer than 500 characters"
  else
    match python.astParse (Str.strip formula) with
    | none => .error "the formula is not a valid expression"
    | some body => do
      let _ ← check python body 1 1
      return body

end Parsing

section Running

variable {F C : Type} (python : Python F C)

def orOverflow {α : Type} : Option α → Except Exc α
  | some value => .ok value
  | none => .error .overflow

def toFloat : Value F C → Except Exc F
  | .int value => orOverflow (python.ofInt value)
  | .float value => .ok value
  | .complex _ => .error .type

def toComplex : Value F C → Except Exc C
  | .int value => python.ofFloat <$> orOverflow (python.ofInt value)
  | .float value => .ok (python.ofFloat value)
  | .complex value => .ok value

def isComplex : Value F C → Bool
  | .complex _ => true
  | _ => false

/-- `+`, `-`, `*` and `/` of two integers. -/
def integers (op : Operator) (m n : Int) : Except Exc (Value F C) :=
  match op with
  | .add => .ok (.int (m + n))
  | .sub => .ok (.int (m - n))
  | .mult => .ok (.int (m * n))
  | _ => .float <$> orOverflow (python.quotient m n)

/-- `+`, `-`, `*` and `/`. -/
def arithmetic (op : Operator) (x y : Value F C) : Except Exc (Value F C) :=
  match x, y with
  | .int m, .int n => integers python op m n
  | x, y =>
    if isComplex x || isComplex y then do
      return .complex (python.complexOp op (← toComplex python x) (← toComplex python y))
    else do
      return .float (python.floatOp op (← toFloat python x) (← toFloat python y))

/-- `value == 0`. -/
def equalsZero : Value F C → Bool
  | .int value => value = 0
  | .float value => python.isZero value
  | .complex value => python.complexIsZero value

/-- `**`; of an integer to a natural power, an integer. -/
def toPower (x y : Value F C) : Except Exc (Value F C) :=
  match x, y with
  | .int m, .int n => if 0 ≤ n then .ok (.int (m ^ n.toNat)) else python.power x y
  | x, y => python.power x y

def caught {α : Type} (kinds : List Exc) : Except Exc α → Except Exc α
  | .ok value => .ok value
  | .error exc => .error (if exc ∈ kinds then .undefined else exc)

def binary (op : Operator) (x y : Value F C) : Except Exc (Value F C) :=
  match op with
  | .add | .sub | .mult => arithmetic python op x y
  | .div => if equalsZero python y then .error .undefined else arithmetic python .div x y
  | .pow => caught [.overflow, .zeroDivision, .value] (toPower python x y)
  | .other => .error .undefined

def signed (op : Sign) : Value F C → Value F C
  | .int value => .int (if op = .usub then -value else value)
  | .float value => .float (if op = .usub then python.negative value else value)
  | .complex value => .complex (if op = .usub then python.complexNegative value else value)

def compared (op : Comparison) (x y : Value F C) : Except Exc Bool :=
  if isComplex x || isComplex y then .error .type else .ok (python.ordered op x y)

def constantValue : Constant F → Except Exc (Value F C)
  | .int value => .ok (.int value)
  | .float value => .ok (.float value)
  | .other => .error .undefined

variable (values : Str → Option (Value F C))

mutual

/-- `run`. -/
def run : Node F → Except Exc (Value F C)
  | .constant value => constantValue value
  | .name id =>
    match values id with
    | none => .error .undefined
    | some value => .ok value
  | .unaryOp op operand => do return signed python op (← run operand)
  | .binOp left op right => do
    let x ← run left
    let y ← run right
    binary python op x y
  | .compare left ops comparators => do runCompare (← run left) ops comparators
  | .call func args _ =>
    match callee func with
    | none => .error .undefined
    | some id =>
      if id = ifelse then runIfelse args
      else caught [.value, .overflow, .type] (do python.apply id (← runArgs args))
  | .other _ => .error .undefined

def runCompare : Value F C → List Comparison → List (Node F) → Except Exc (Value F C)
  | x, op :: ops, comparator :: comparators => do
    let y ← run comparator
    if ← compared python op x y then runCompare y ops comparators else return .float python.zero
  | _, _, _ => .ok (.float python.one)

def runIfelse : List (Node F) → Except Exc (Value F C)
  | [condition, yes, no] => do
    if equalsZero python (← run condition) then run no else run yes
  | _ => .error .undefined

def runArgs : List (Node F) → Except Exc (List (Value F C))
  | [] => .ok []
  | arg :: rest => do
    let value ← run arg
    return value :: (← runArgs rest)

end

inductive Failure
  | formula (text : String)
  | raised (exc : Exc)

/-- `evaluate`. -/
def evaluate (formula : Str) : Except Failure (Option F) :=
  match parse python formula with
  | .error text => .error (.formula text)
  | .ok body =>
    match (do toFloat python (← run python values body)) with
    | .ok result => .ok (if python.finite result then some result else none)
    | .error .undefined => .ok none
    | .error exc => .error (.raised exc)

end Running

end Smo.RanNfOam.KpiFormula
