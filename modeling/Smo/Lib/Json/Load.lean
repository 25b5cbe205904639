import Mathlib.Data.List.Basic

/-! JSON values, and loading them as Python's `json` module does. A string is its code points,
which may be lone surrogates, and a float is kept by its text. -/
namespace Smo.Json

abbrev Text := List Nat

instance : LawfulBEq Text := inferInstance

inductive Value where
  | null
  | bool (value : Bool)
  | int (value : Int)
  | float (text : List Char)
  | str (text : Text)
  | arr (items : List Value)
  | obj (entries : List (Text × Value))

/-- Why `loads` raises; all but the last are `ValueError` or `RecursionError`. -/
inductive Problem where
  | malformed | tooManyDigits | tooDeep | outOfFuel
  deriving DecidableEq, Repr

section Reading

/-- The most digits `int` converts. -/
def maxDigits : Nat := 4300

def isBlank (c : Char) : Bool := c == ' ' || c == '\t' || c == '\n' || c == '\r'

def skip (text : List Char) : List Char := text.dropWhile isBlank

def hexDigit (c : Char) : Option Nat :=
  if '0' ≤ c ∧ c ≤ '9' then some (c.toNat - '0'.toNat)
  else if 'a' ≤ c ∧ c ≤ 'f' then some (c.toNat - 'a'.toNat + 10)
  else if 'A' ≤ c ∧ c ≤ 'F' then some (c.toNat - 'A'.toNat + 10)
  else none

/-- What a backslash and one character stand for. -/
def shortEscape (c : Char) : Option Nat :=
  if c = '"' ∨ c = '\\' ∨ c = '/' then some c.toNat
  else if c = 'b' then some 0x08
  else if c = 'f' then some 0x0C
  else if c = 'n' then some 0x0A
  else if c = 'r' then some 0x0D
  else if c = 't' then some 0x09
  else none

/-- Where the scan of a string is: in its text, after a backslash, or in a `\u` escape with
some digits still to come. -/
inductive Mode where
  | plain
  | escaped
  | hex (left value : Nat)

/-- The code points of a string after its opening quote, each with whether it was written as
a `\u` escape, and the text after the closing quote. -/
def units : Mode → List Char → Except Problem (List (Nat × Bool) × List Char)
  | _, [] => .error .malformed
  | .plain, c :: rest =>
    if c = '"' then .ok ([], rest)
    else if c = '\\' then units .escaped rest
    else if c.toNat < 0x20 then .error .malformed
    else (units .plain rest).map fun read => ((c.toNat, false) :: read.1, read.2)
  | .escaped, c :: rest =>
    if c = 'u' then units (.hex 3 0) rest
    else
      match shortEscape c with
      | none => .error .malformed
      | some point => (units .plain rest).map fun read => ((point, false) :: read.1, read.2)
  | .hex left value, c :: rest =>
    match hexDigit c, left with
    | none, _ => .error .malformed
    | some digit, 0 =>
      (units .plain rest).map fun read => ((16 * value + digit, true) :: read.1, read.2)
    | some digit, left + 1 => units (.hex left (16 * value + digit)) rest

def isHigh (point : Nat) : Bool := 0xD800 ≤ point && point < 0xDC00

def isLow (point : Nat) : Bool := 0xDC00 ≤ point && point < 0xE000

/-- Two escaped surrogates that make a pair are one code point. -/
def paired : List (Nat × Bool) → Text
  | [] => []
  | [unit] => [unit.1]
  | high :: low :: rest =>
    if high.2 && low.2 && isHigh high.1 && isLow low.1 then
      (0x10000 + (high.1 - 0xD800) * 0x400 + (low.1 - 0xDC00)) :: paired rest
    else high.1 :: paired (low :: rest)

def scanString (text : List Char) : Except Problem (Text × List Char) :=
  (units .plain text).map fun read => (paired read.1, read.2)

def isDigit (c : Char) : Bool := '0' ≤ c && c ≤ '9'

/-- The digits of an integer without leading zeros, and what follows. -/
def intDigits : List Char → Option (List Char × List Char)
  | [] => none
  | c :: rest =>
    if c = '0' then some ([c], rest)
    else if isDigit c then some (c :: rest.takeWhile isDigit, rest.dropWhile isDigit)
    else none

def fraction : List Char → List Char × List Char
  | '.' :: c :: rest =>
    if isDigit c then ('.' :: c :: rest.takeWhile isDigit, rest.dropWhile isDigit)
    else ([], '.' :: c :: rest)
  | text => ([], text)

/-- An exponent, when at least one digit follows its sign. -/
def exponent : List Char → List Char × List Char
  | [] => ([], [])
  | c :: rest =>
    let sign := match rest with
      | '+' :: _ => ['+']
      | '-' :: _ => ['-']
      | _ => []
    let digits := rest.drop sign.length
    if (c = 'e' ∨ c = 'E') ∧ digits.takeWhile isDigit ≠ [] then
      (c :: sign ++ digits.takeWhile isDigit, digits.dropWhile isDigit)
    else ([], c :: rest)

def natOf (digits : List Char) : Nat :=
  digits.foldl (fun value c => 10 * value + (c.toNat - '0'.toNat)) 0

def scanNumber (text : List Char) : Except Problem (Value × List Char) :=
  let sign := match text with
    | '-' :: _ => ['-']
    | _ => []
  match intDigits (text.drop sign.length) with
  | none => .error .malformed
  | some (digits, rest) =>
    let frac := fraction rest
    let exp := exponent frac.2
    if frac.1 = [] ∧ exp.1 = [] then
      if digits.length > maxDigits then .error .tooManyDigits
      else .ok (.int (if sign = [] then natOf digits else -natOf digits), rest)
    else .ok (.float (sign ++ digits ++ frac.1 ++ exp.1), exp.2)

abbrev Scanner := List Char → Except Problem (Value × List Char)

/-- The items of an array from the first one, to its closing bracket. -/
def scanItems (scan : Scanner) : Nat → List Char → Except Problem (List Value × List Char)
  | 0, _ => .error .outOfFuel
  | fuel + 1, text => do
    let first ← scan text
    match skip first.2 with
    | ']' :: rest => return ([first.1], rest)
    | ',' :: rest =>
      let more ← scanItems scan fuel (skip rest)
      return (first.1 :: more.1, more.2)
    | _ => .error .malformed

/-- The pairs of an object from the first name, to its closing brace. -/
def scanPairs (scan : Scanner) : Nat → List Char →
    Except Problem (List (Text × Value) × List Char)
  | 0, _ => .error .outOfFuel
  | fuel + 1, text =>
    match text with
    | '"' :: text => do
      let name ← scanString text
      match skip name.2 with
      | ':' :: rest =>
        let value ← scan (skip rest)
        match skip value.2 with
        | '\x7d' :: rest => return ([(name.1, value.1)], rest)
        | ',' :: rest =>
          let more ← scanPairs scan fuel (skip rest)
          return ((name.1, value.1) :: more.1, more.2)
        | _ => .error .malformed
      | _ => .error .malformed
    | _ => .error .malformed

/-- A dict of pairs: the last value of a name, at the place of the first. -/
def dict (pairs : List (Text × Value)) : List (Text × Value) :=
  pairs.foldl (fun entries pair =>
    if entries.any (·.1 = pair.1) then
      entries.map fun entry => if entry.1 = pair.1 then pair else entry
    else entries ++ [pair]) []

def literals : List (List Char × Value) :=
  [(['n', 'u', 'l', 'l'], .null), (['t', 'r', 'u', 'e'], .bool true),
    (['f', 'a', 'l', 's', 'e'], .bool false)] ++
  ["NaN", "Infinity", "-Infinity"].map fun name => (name.toList, .float name.toList)

def scanLiteral (text : List Char) : Except Problem (Value × List Char) :=
  match literals.find? fun literal => literal.1.isPrefixOf text with
  | some literal => .ok (literal.2, text.drop literal.1.length)
  | none => scanNumber text

/-- One value at the start of a text, nested at most so deep. -/
def scanOnce : Nat → Scanner
  | 0, text =>
    match text with
    | '"' :: rest => (scanString rest).map fun read => (.str read.1, read.2)
    | '[' :: _ => .error .tooDeep
    | '\x7b' :: _ => .error .tooDeep
    | text => scanLiteral text
  | depth + 1, text =>
    match text with
    | '"' :: rest => (scanString rest).map fun read => (.str read.1, read.2)
    | '[' :: rest =>
      match skip rest with
      | ']' :: rest => .ok (.arr [], rest)
      | rest =>
        (scanItems (scanOnce depth) (rest.length + 1) rest).map fun read => (.arr read.1, read.2)
    | '\x7b' :: rest =>
      match skip rest with
      | '\x7d' :: rest => .ok (.obj [], rest)
      | rest =>
        (scanPairs (scanOnce depth) (rest.length + 1) rest).map fun read =>
          (.obj (dict read.1), read.2)
    | text => scanLiteral text

/-- `json.loads`. -/
def loads (depth : Nat) (text : List Char) : Except Problem Value :=
  match text with
  | '\ufeff' :: _ => .error .malformed
  | text => do
    let read ← scanOnce depth (skip text)
    if skip read.2 = [] then return read.1 else .error .malformed

end Reading

end Smo.Json
