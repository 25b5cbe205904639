import Mathlib.Computability.RegularExpressions

/-! Regular expressions over characters, written as `re` writes them, and what their languages are.
Nothing here names a program. -/
namespace Smo.RegularText

open RegularExpression

/-- `[...]` -/
def oneOf (chars : List Char) : RegularExpression Char := chars.foldr (fun c rest => char c + rest) 0

/-- A text as it stands. -/
def literal (text : List Char) : RegularExpression Char := text.foldr (fun c rest => char c * rest) 1

/-- `?` -/
def maybe (r : RegularExpression Char) : RegularExpression Char := r + 1

/-- `+` -/
def many (r : RegularExpression Char) : RegularExpression Char := r * r.star

/-- `[0-9]` -/
def digit : RegularExpression Char := oneOf "0123456789".toList

variable {chars text : List Char} {r p : RegularExpression Char}

@[simp] theorem mem_oneOf : text ∈ (oneOf chars).matches' ↔ ∃ c ∈ chars, text = [c] := by
  induction chars with
  | nil => simp [oneOf, Language.notMem_zero]
  | cons c rest ih =>
    rw [oneOf, List.foldr_cons, matches'_add, Language.mem_add, matches'_char]
    simp only [List.exists_mem_cons_iff]
    exact or_congr Iff.rfl ih

@[simp] theorem mem_literal {word : List Char} : text ∈ (literal word).matches' ↔ text = word := by
  induction word generalizing text with
  | nil => simp [literal, Language.mem_one]
  | cons c rest ih =>
    rw [literal, List.foldr_cons, matches'_mul, Language.mem_mul, matches'_char]
    constructor
    · rintro ⟨_, rfl, back, is, rfl⟩
      rw [ih.mp is]
      rfl
    · rintro rfl
      exact ⟨[c], rfl, rest, ih.mpr rfl, rfl⟩

@[simp] theorem mem_maybe : text ∈ (maybe r).matches' ↔ text ∈ r.matches' ∨ text = [] := by
  rw [maybe, matches'_add, Language.mem_add, matches'_epsilon, Language.mem_one]

theorem mem_mul : text ∈ (r * p).matches' ↔
    ∃ front back, front ∈ r.matches' ∧ back ∈ p.matches' ∧ text = front ++ back := by
  rw [matches'_mul, Language.mem_mul]
  constructor
  · rintro ⟨front, is, back, has, rfl⟩
    exact ⟨front, back, is, has, rfl⟩
  · rintro ⟨front, back, is, has, rfl⟩
    exact ⟨front, is, back, has, rfl⟩

theorem mem_star_oneOf : text ∈ (oneOf chars).star.matches' ↔ ∀ c ∈ text, c ∈ chars := by
  rw [matches'_star, Language.mem_kstar]
  constructor
  · rintro ⟨words, rfl, all⟩ c mem
    obtain ⟨word, inWords, inWord⟩ := List.mem_flatten.mp mem
    obtain ⟨d, known, rfl⟩ := mem_oneOf.mp (all word inWords)
    rwa [List.mem_singleton.mp inWord]
  · intro all
    refine ⟨text.map ([·]), by simp [← List.flatMap_def], fun word mem => ?_⟩
    obtain ⟨c, inText, rfl⟩ := List.mem_map.mp mem
    exact mem_oneOf.mpr ⟨c, all c inText, rfl⟩

@[simp] theorem mem_many_oneOf :
    text ∈ (many (oneOf chars)).matches' ↔ text ≠ [] ∧ ∀ c ∈ text, c ∈ chars := by
  rw [many, mem_mul]
  constructor
  · rintro ⟨_, back, is, has, rfl⟩
    obtain ⟨c, known, rfl⟩ := mem_oneOf.mp is
    exact ⟨List.cons_ne_nil _ _, List.forall_mem_cons.mpr ⟨known, mem_star_oneOf.mp has⟩⟩
  · rintro ⟨some, all⟩
    cases text with
    | nil => exact absurd rfl some
    | cons c rest =>
      obtain ⟨known, others⟩ := List.forall_mem_cons.mp all
      exact ⟨[c], rest, mem_oneOf.mpr ⟨c, known, rfl⟩, mem_star_oneOf.mpr others, rfl⟩

theorem mem_digits {c : Char} : c ∈ "0123456789".toList ↔ c.isDigit = true := by
  constructor
  · exact fun mem =>
      List.all_eq_true.mp (by decide : "0123456789".toList.all (·.isDigit) = true) c mem
  · intro digit
    simp only [Char.isDigit, Bool.and_eq_true, decide_eq_true_eq, ge_iff_le, UInt32.le_iff_toNat_le] at digit
    have low : 48 ≤ c.toNat := digit.1
    have high : c.toNat ≤ 57 := digit.2
    have all : ∀ n < 58, 48 ≤ n → Char.ofNat n ∈ "0123456789".toList := by decide
    rw [← Char.ofNat_toNat c]
    exact all c.toNat (Nat.lt_succ_of_le high) low

/-- At least one digit. -/
def Digits (text : List Char) : Prop := text ≠ [] ∧ ∀ c ∈ text, c.isDigit = true

@[simp] theorem mem_many_digit : text ∈ (many digit).matches' ↔ Digits text := by
  rw [digit, mem_many_oneOf]
  exact and_congr Iff.rfl (forall₂_congr fun _ _ => mem_digits)

end Smo.RegularText
