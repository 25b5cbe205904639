import Mathlib.Data.List.Basic
import Mathlib.Tactic.Ring

/-! Times of the proleptic Gregorian calendar in UTC, to the microsecond, and numbers written
with a fixed number of digits. -/
namespace Smo.Time

def isLeap (year : Nat) : Bool := year % 4 = 0 && (year % 100 ≠ 0 || year % 400 = 0)

def daysIn (year month : Nat) : Nat :=
  match month with
  | 2 => if isLeap year then 29 else 28
  | 4 | 6 | 9 | 11 => 30
  | _ => 31

structure DateTime where
  year : Nat
  month : Nat
  day : Nat
  hour : Nat
  minute : Nat
  second : Nat
  microsecond : Nat
  years : 1 ≤ year ∧ year < 10000
  months : 1 ≤ month ∧ month ≤ 12
  days : 1 ≤ day ∧ day ≤ daysIn year month
  times : hour < 24 ∧ minute < 60 ∧ second < 60 ∧ microsecond < 1000000
  deriving DecidableEq

def pad : Nat → Nat → List Char
  | 0, _ => []
  | width + 1, n => pad width (n / 10) ++ [Nat.digitChar (n % 10)]

theorem length_pad (width n : Nat) : (pad width n).length = width := by
  induction width generalizing n with
  | zero => rfl
  | succ width ih => simp [pad, ih]

theorem digitChar_injective {m n : Nat} (hm : m < 10) (hn : n < 10)
    (same : Nat.digitChar m = Nat.digitChar n) : m = n := by
  have codes := congrArg Char.toNat same
  rw [Nat.toNat_digitChar_of_lt_ten hm, Nat.toNat_digitChar_of_lt_ten hn] at codes
  omega

theorem pad_injective {width m n : Nat} (hm : m < 10 ^ width) (hn : n < 10 ^ width)
    (same : pad width m = pad width n) : m = n := by
  induction width generalizing m n with
  | zero => simp at hm hn; omega
  | succ width ih =>
    obtain ⟨front, last⟩ := List.append_inj' same rfl
    have tens := ih (m := m / 10) (n := n / 10) (by rw [pow_succ] at hm; omega)
      (by rw [pow_succ] at hn; omega) front
    have ones := digitChar_injective (Nat.mod_lt m (by decide)) (Nat.mod_lt n (by decide))
      (List.cons.inj last).1
    omega

theorem pad_front {width m n : Nat} {rest rest' : List Char} (hm : m < 10 ^ width)
    (hn : n < 10 ^ width) (same : pad width m ++ rest = pad width n ++ rest') :
    m = n ∧ rest = rest' := by
  obtain ⟨front, later⟩ := List.append_inj same (by rw [length_pad, length_pad])
  exact ⟨pad_injective hm hn front, later⟩

/-- The calendar fields of a time with their marks, as ISO 8601 has them. -/
def DateTime.written (t : DateTime) (rest : List Char) : List Char :=
  pad 4 t.year ++ '-' :: (pad 2 t.month ++ '-' :: (pad 2 t.day ++ 'T' :: (pad 2 t.hour ++
    ':' :: (pad 2 t.minute ++ ':' :: (pad 2 t.second ++ '.' :: (pad 6 t.microsecond ++ rest))))))

theorem daysIn_le (year month : Nat) : daysIn year month ≤ 31 := by
  unfold daysIn
  split <;> (try split) <;> decide

theorem DateTime.written_injective {t t' : DateTime} {rest rest' : List Char}
    (same : t.written rest = t'.written rest') : t = t' ∧ rest = rest' := by
  obtain ⟨year, month, day, hour, minute, second, microsecond, years, months, days, times⟩ := t
  obtain ⟨year', month', day', hour', minute', second', microsecond', years', months', days',
    times'⟩ := t'
  have := daysIn_le year month
  have := daysIn_le year' month'
  simp only [DateTime.written] at same
  obtain ⟨sameYear, same⟩ := pad_front (by simp; omega) (by simp; omega) same
  obtain ⟨sameMonth, same⟩ := pad_front (by simp; omega) (by simp; omega) (List.cons.inj same).2
  obtain ⟨sameDay, same⟩ := pad_front (by simp; omega) (by simp; omega) (List.cons.inj same).2
  obtain ⟨sameHour, same⟩ := pad_front (by simp; omega) (by simp; omega) (List.cons.inj same).2
  obtain ⟨sameMinute, same⟩ := pad_front (by simp; omega) (by simp; omega) (List.cons.inj same).2
  obtain ⟨sameSecond, same⟩ := pad_front (by simp; omega) (by simp; omega) (List.cons.inj same).2
  obtain ⟨sameMicrosecond, rests⟩ := pad_front (by simp; omega) (by simp; omega)
    (List.cons.inj same).2
  subst sameYear sameMonth sameDay sameHour sameMinute sameSecond sameMicrosecond
  exact ⟨rfl, rests⟩

end Smo.Time
