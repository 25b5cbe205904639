import Mathlib

/-! Numerals in a base of at most sixteen: what a text of digits reads as, and that the digits of a
number, with any number of zeros in front, read as that number. -/
namespace Smo.Radix

def digit (c : Char) : Option Nat :=
  if '0' ≤ c ∧ c ≤ '9' then some (c.toNat - '0'.toNat)
  else if 'a' ≤ c ∧ c ≤ 'f' then some (c.toNat - 'a'.toNat + 10)
  else if 'A' ≤ c ∧ c ≤ 'F' then some (c.toNat - 'A'.toNat + 10)
  else none

/-- The digits after a number that is read already; none when one is no digit of the base. -/
def readFrom (base : Nat) : Nat → List Char → Option Nat
  | value, [] => some value
  | value, c :: rest =>
    match (digit c).filter (· < base) with
    | some d => readFrom base (base * value + d) rest
    | none => none

def read (base : Nat) (text : List Char) : Option Nat :=
  if text = [] then none else readFrom base 0 text

variable {base n value : Nat} {text more : List Char}

theorem digit_digitChar : n < 16 → digit n.digitChar = some n := by
  intro small
  interval_cases n <;> decide

theorem readFrom_append : readFrom base value (text ++ more) =
    (readFrom base value text).bind fun value => readFrom base value more := by
  induction text generalizing value with
  | nil => rfl
  | cons c rest ih =>
    rw [List.cons_append, readFrom, readFrom]
    cases (digit c).filter (· < base) with
    | none => rfl
    | some d => exact ih

theorem readFrom_digit (small : n < base) (few : base ≤ 16) :
    readFrom base value [n.digitChar] = some (base * value + n) := by
  rw [readFrom, digit_digitChar (by omega), Option.filter_some, if_pos (by simpa using small)]
  rfl

theorem readFrom_zeros (positive : 0 < base) (k : Nat) :
    readFrom base 0 (List.replicate k '0') = some 0 := by
  induction k with
  | zero => rfl
  | succ k ih =>
    have zero : readFrom base 0 ['0'] = some 0 := by
      have is : digit '0' = some 0 := by decide
      rw [readFrom, is, Option.filter_some, if_pos (by simpa using positive)]
      rfl
    rw [List.replicate_succ, ← List.singleton_append, readFrom_append, zero]
    exact ih

theorem readFrom_toDigits (many : 1 < base) (few : base ≤ 16) :
    readFrom base 0 (Nat.toDigits base n) = some n := by
  induction n using Nat.base_induction base many with
  | single m small =>
    rw [Nat.toDigits_of_lt_base small, readFrom_digit small few]
    simp
  | digit m k small positive ih =>
    rw [← Nat.toDigits_append_toDigits many positive small, readFrom_append, ih,
      Nat.toDigits_of_lt_base small, Option.bind_some, readFrom_digit small few]

theorem read_padded (many : 1 < base) (few : base ≤ 16) (k : Nat) :
    read base (List.replicate k '0' ++ Nat.toDigits base n) = some n := by
  rw [read, if_neg (by simp), readFrom_append, readFrom_zeros (by omega), Option.bind_some,
    readFrom_toDigits many few]

theorem digitChar_alphanum (small : n < 16) : n.digitChar.isAlphanum = true ∧
    n.digitChar.toLower = n.digitChar ∧ (n < 10 → n.digitChar.isDigit = true) := by
  interval_cases n <;> decide

theorem digit_of_toDigits (many : 1 < base) {c : Char} (mem : c ∈ Nat.toDigits base n) :
    ∃ d, d < base ∧ c = d.digitChar := by
  induction n using Nat.base_induction base many with
  | single m small =>
    rw [Nat.toDigits_of_lt_base small, List.mem_singleton] at mem
    exact ⟨m, small, mem⟩
  | digit m k small positive ih =>
    rw [← Nat.toDigits_append_toDigits many positive small] at mem
    rcases List.mem_append.mp mem with front | last
    · exact ih front
    · rw [Nat.toDigits_of_lt_base small, List.mem_singleton] at last
      exact ⟨k, small, last⟩

theorem toDigits_alphanum (many : 1 < base) (few : base ≤ 16) {c : Char}
    (mem : c ∈ Nat.toDigits base n) : c.isAlphanum = true ∧ c.toLower = c ∧
      (base ≤ 10 → c.isDigit = true) := by
  obtain ⟨d, small, rfl⟩ := digit_of_toDigits many mem
  obtain ⟨alphanum, lower, digit⟩ := digitChar_alphanum (by omega : d < 16)
  exact ⟨alphanum, lower, fun ten => digit (by omega)⟩

theorem toDigits_head (many : 1 < base) (few : base ≤ 16) (positive : 0 < n) :
    ∃ c rest, Nat.toDigits base n = c :: rest ∧ c ≠ '0' := by
  induction n using Nat.base_induction base many with
  | single m small =>
    refine ⟨m.digitChar, [], Nat.toDigits_of_lt_base small, ?_⟩
    have below : m < 16 := by omega
    interval_cases m <;> decide
  | digit m k small positive' ih =>
    obtain ⟨c, rest, is, other⟩ := ih positive'
    refine ⟨c, rest ++ Nat.toDigits base k, ?_, other⟩
    rw [← Nat.toDigits_append_toDigits many positive' small, is, List.cons_append]

end Smo.Radix
