import Mathlib.Data.List.TakeWhile
import Smo.Lib.Numeral
import Smo.Lib.RegularText

/-! Quantities of resources: a decimal number with a decimal or binary suffix or a decimal exponent.
Nothing here names a program. -/
namespace Smo.Quantity

open RegularText (Digits)

/-- Digits, with or without a fraction. -/
def DecimalNumber (text : List Char) : Prop :=
  ∃ whole, Digits whole ∧
    (text = whole ∨ ∃ fraction, Digits fraction ∧ text = whole ++ '.' :: fraction)

def decimalSI : List (List Char) := [['m'], ['k'], ['M'], ['G'], ['T'], ['P'], ['E']]

def binarySI : List (List Char) :=
  [['K', 'i'], ['M', 'i'], ['G', 'i'], ['T', 'i'], ['P', 'i'], ['E', 'i']]

def DecimalExponent (text : List Char) : Prop :=
  ∃ e sign digits, e ∈ ['e', 'E'] ∧ sign ∈ [[], ['+'], ['-']] ∧ Digits digits ∧
    text = e :: (sign ++ digits)

/-- A number with nothing behind it, one of the suffixes or an exponent. -/
def WithSuffix (suffixes : List (List Char)) (text : List Char) : Prop :=
  ∃ number suffix, DecimalNumber number ∧ text = number ++ suffix ∧
    (suffix = [] ∨ suffix ∈ suffixes ∨ DecimalExponent suffix)

def Valid (text : List Char) : Prop := WithSuffix (decimalSI ++ binarySI) text

variable {text number suffix : List Char} {suffixes : List (List Char)}

theorem last_digit (digits : Digits text) : ∃ front c, text = front ++ [c] ∧ c.isDigit = true := by
  rcases List.eq_nil_or_concat text with rfl | ⟨front, c, rfl⟩
  · exact absurd rfl digits.1
  · exact ⟨front, c, List.concat_eq_append, digits.2 c (by simp)⟩

theorem number_last (is : DecimalNumber number) : ∃ front c, number = front ++ [c] ∧ c.isDigit = true := by
  obtain ⟨whole, digits, rfl | ⟨fraction, more, rfl⟩⟩ := is
  · exact last_digit digits
  · obtain ⟨front, c, rfl, digit⟩ := last_digit more
    exact ⟨whole ++ '.' :: front, c, by simp, digit⟩

theorem exponent_last (is : DecimalExponent suffix) :
    ∃ front c, suffix = front ++ [c] ∧ c.isDigit = true := by
  obtain ⟨e, sign, digits, -, -, more, rfl⟩ := is
  obtain ⟨front, c, rfl, digit⟩ := last_digit more
  exact ⟨e :: (sign ++ front), c, by simp, digit⟩

theorem unit_of_ends {unit c : Char} {front : List Char} (letter : c.isDigit = false)
    (unitLetter : unit.isDigit = false) (short : ∀ s ∈ suffixes, s.length ≤ 2)
    (has : WithSuffix suffixes (front ++ [unit, c])) : [unit, c] ∈ suffixes := by
  obtain ⟨number, suffix, is, same, has⟩ := has
  obtain ⟨digits, d, rfl, digit⟩ := number_last is
  have reversed := congrArg List.reverse same
  rcases has with rfl | known | exponent
  · simp only [List.append_nil, List.reverse_append, List.reverse_cons, List.reverse_nil, List.nil_append,
      List.cons_append, List.cons.injEq] at reversed
    rw [← reversed.1, letter] at digit
    cases digit
  · match suffix, short _ known with
    | [], _ =>
      simp only [List.append_nil, List.reverse_append, List.reverse_cons, List.reverse_nil,
        List.nil_append, List.cons_append, List.cons.injEq] at reversed
      rw [← reversed.1, letter] at digit
      cases digit
    | [s], _ =>
      simp only [List.reverse_append, List.reverse_cons, List.reverse_nil, List.nil_append,
        List.cons_append, List.cons.injEq] at reversed
      rw [← reversed.2.1, unitLetter] at digit
      cases digit
    | [s, t], _ =>
      simp only [List.reverse_append, List.reverse_cons, List.reverse_nil, List.nil_append,
        List.cons_append, List.cons.injEq] at reversed
      rwa [reversed.1, reversed.2.1]
  · obtain ⟨more, e, rfl, last⟩ := exponent_last exponent
    simp only [List.reverse_append, List.reverse_cons, List.reverse_nil, List.nil_append,
      List.cons_append, List.cons.injEq] at reversed
    rw [← reversed.1, letter] at last
    cases last

theorem withSuffix_iff {others : List (List Char)} {unit c : Char} (letter : c.isDigit = false)
    (unitLetter : unit.isDigit = false) (short : ∀ s ∈ others, s.length ≤ 2)
    (lacks : [unit, c] ∉ others) (rest : ∀ s ∈ suffixes, s = [unit, c] ∨ s ∈ others)
    (is : WithSuffix suffixes text) : WithSuffix others text ↔ ¬[unit, c] <:+ text := by
  constructor
  · rintro has ⟨front, rfl⟩
    exact lacks (unit_of_ends letter unitLetter short has)
  · intro other
    obtain ⟨number, suffix, decimal, rfl, none | known | exponent⟩ := is
    · exact ⟨number, suffix, decimal, rfl, .inl none⟩
    · rcases rest suffix known with rfl | known
      · exact absurd (List.suffix_append _ _) other
      · exact ⟨number, suffix, decimal, rfl, .inr (.inl known)⟩
    · exact ⟨number, suffix, decimal, rfl, .inr (.inr exponent)⟩

/-! The number in front of a quantity. -/

/-- `[0-9.]` -/
def numeric (c : Char) : Bool := c.isDigit || c = '.'

def numberOf (text : List Char) : List Char := text.takeWhile numeric

/-- How much of its unit a quantity is. -/
def amount (text : List Char) : ℚ := (Numeral.exact (numberOf text)).getD 0

theorem number_numeric (is : DecimalNumber number) : ∀ c ∈ number, numeric c = true := by
  obtain ⟨whole, digits, rfl | ⟨fraction, more, rfl⟩⟩ := is
  · exact fun c mem => by simp [numeric, digits.2 c mem]
  · intro c mem
    rcases List.mem_append.mp mem with front | back
    · simp [numeric, digits.2 c front]
    · rcases List.mem_cons.mp back with rfl | back
      · simp [numeric]
      · simp [numeric, more.2 c back]

theorem numberOf_append (is : DecimalNumber number) (bare : ∀ c ∈ suffix.head?, numeric c = false) :
    numberOf (number ++ suffix) = number := by
  rw [numberOf, List.takeWhile_append_of_pos (number_numeric is)]
  cases suffix with
  | nil => simp
  | cons c rest => simp [bare c rfl]

theorem digitRun_digits {digits : List Char} (all : ∀ c ∈ digits, c.isDigit = true) :
    Numeral.digitRun digits = some digits := by
  induction digits using Numeral.digitRun.induct with
  | case1 => rfl
  | case2 c d rest both ih =>
    exact absurd (all '_' (List.mem_cons_of_mem _ List.mem_cons_self)) (by decide)
  | case3 c d rest other =>
    exact absurd (all '_' (List.mem_cons_of_mem _ List.mem_cons_self)) (by decide)
  | case4 c rest other digit ih =>
    rw [Numeral.digitRun, if_pos digit, ih fun d mem => all d (List.mem_cons_of_mem _ mem)]
    · rfl
    · exact other
  | case5 c rest other digit => exact absurd (all c List.mem_cons_self) digit

theorem signed_digit {c : Char} {rest : List Char} (digit : c.isDigit = true) :
    Numeral.signed (c :: rest) = (false, c :: rest) := by
  unfold Numeral.signed
  split
  · next same =>
    cases same
    exact absurd digit (by decide)
  · next same =>
    cases same
    exact absurd digit (by decide)
  · rfl

theorem exact_number (is : DecimalNumber number) : ∃ value, Numeral.exact number = some value ∧ 0 ≤ value := by
  have noExponent : ∀ c ∈ number, decide (c ≠ 'e' ∧ c ≠ 'E') = true := fun c mem => by
    have numeric := number_numeric is c mem
    refine decide_eq_true ⟨?_, ?_⟩
    all_goals
      rintro rfl
      exact absurd numeric (by decide)
  obtain ⟨digits, fraction, split, all, more, some⟩ : ∃ digits fraction,
      (number.takeWhile (· ≠ '.') = digits ∧ (number.dropWhile (· ≠ '.')).drop 1 = fraction) ∧
        (∀ c ∈ digits, c.isDigit = true) ∧ (∀ c ∈ fraction, c.isDigit = true) ∧ digits ≠ [] := by
    have plain : ∀ {whole : List Char}, Digits whole → ∀ c ∈ whole, decide (c ≠ '.') = true :=
      fun digits c mem => decide_eq_true fun same => absurd (same ▸ digits.2 c mem) (by decide)
    obtain ⟨whole, digits, rfl | ⟨fraction, more, rfl⟩⟩ := is
    · refine ⟨number, [], ⟨?_, ?_⟩, digits.2, by simp, digits.1⟩
      · exact List.takeWhile_eq_self_iff.mpr (plain digits)
      · rw [List.dropWhile_eq_nil_iff.mpr (plain digits)]
        rfl
    · refine ⟨whole, fraction, ⟨?_, ?_⟩, digits.2, more.2, digits.1⟩
      · rw [List.takeWhile_append_of_pos (plain digits)]
        simp
      · rw [List.dropWhile_append_of_pos (plain digits)]
        simp
  have sign : Numeral.signed number = (false, number) := by
    cases number with
    | nil => exact absurd split.1.symm some
    | cons c rest =>
      obtain ⟨whole, digits, same⟩ := is
      obtain ⟨d, others, rfl⟩ := List.exists_cons_of_ne_nil digits.1
      have first : c = d := by
        rcases same with same | ⟨_, _, same⟩
        · exact (List.cons.inj same).1
        · exact (List.cons.inj same).1
      exact signed_digit (first ▸ digits.2 d List.mem_cons_self)
  refine ⟨Json.natOf (digits ++ fraction) * (10 : ℚ) ^ ((0 : Int) - fraction.length), ?_,
    mul_nonneg (Nat.cast_nonneg _) (zpow_nonneg (by decide) _)⟩
  unfold Numeral.exact
  simp only [sign, List.takeWhile_eq_self_iff.mpr noExponent, List.dropWhile_eq_nil_iff.mpr noExponent,
    split.1, split.2, digitRun_digits all, digitRun_digits more, Numeral.exponent]
  simp [some]

end Smo.Quantity
