import Mathlib.Algebra.Order.Field.Rat
import Smo.Lib.Json.Load

/-! Decimal numerals as Python's `float` takes them, with their exact values, and the range of
the doubles. -/
namespace Smo.Numeral

/-- A sign in front, and whether it is a minus. -/
def signed : List Char → Bool × List Char
  | '-' :: rest => (true, rest)
  | '+' :: rest => (false, rest)
  | text => (false, text)

/-- The digits of a run in which single underscores may stand between digits. -/
def digitRun : List Char → Option (List Char)
  | [] => some []
  | c :: '_' :: d :: rest =>
    if c.isDigit ∧ d.isDigit then (digitRun (d :: rest)).map (c :: ·) else none
  | c :: rest => if c.isDigit then (digitRun rest).map (c :: ·) else none

/-- The power of ten an exponent stands for; no exponent is 0. -/
def exponent : List Char → Option Int
  | [] => some 0
  | _ :: text =>
    let (down, run) := signed text
    match digitRun run with
    | none | some [] => none
    | some digits => some (if down then -(Json.natOf digits : Int) else Json.natOf digits)

/-- The number a text is, if it is one and neither infinite nor a NaN. -/
def exact (text : List Char) : Option ℚ := do
  let (negative, body) := signed text
  let mantissa := body.takeWhile fun c => c ≠ 'e' ∧ c ≠ 'E'
  let digits ← digitRun (mantissa.takeWhile (· ≠ '.'))
  let decimals ← digitRun ((mantissa.dropWhile (· ≠ '.')).drop 1)
  let power ← exponent (body.dropWhile fun c => c ≠ 'e' ∧ c ≠ 'E')
  if digits = [] ∧ decimals = [] then none
  else
    let magnitude : ℚ := Json.natOf (digits ++ decimals) * (10 : ℚ) ^ (power - decimals.length)
    some (if negative then -magnitude else magnitude)

/-- A number as a double, exact within the range: from half a step past the greatest double on
it is infinite, and up to half of the least one it is 0. -/
def double (value : ℚ) : Option ℚ :=
  if 2 ^ 1024 - 2 ^ 970 ≤ |value| then none
  else if |value| * 2 ^ 1075 ≤ 1 then some 0
  else some value

example : exact "-1_0.5e-1".toList = some (-21 / 20) := by decide +kernel

example : (exact "1e400".toList).bind double = none := by decide +kernel

/-- A number within the range of the doubles. -/
def InRange (value : ℚ) : Prop := double value = some value

instance (value : ℚ) : Decidable (InRange value) := inferInstanceAs (Decidable (_ = _))

end Smo.Numeral
