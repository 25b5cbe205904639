import Mathlib.Algebra.Order.Floor.Ring
import Mathlib.Algebra.Order.Group.MinMax
import Mathlib.Tactic.Linarith
import Mathlib.Tactic.Ring

/-! A token bucket whose clock only moves forward: what stamps in any order let through, and
how long a refusal has to wait. A caller without a bucket has a full one. -/
namespace Smo.TokenBucket

variable {α : Type} [Field α] [LinearOrder α]

structure Bucket (α : Type) where
  tokens : α
  clock : α

section Definitions

variable (rate burst : α)

/-- What a bucket holds at a time, were its size no limit. -/
def Bucket.accrued (b : Bucket α) (now : α) : α := b.tokens + max 0 (now - b.clock) * rate

def available : Option (Bucket α) → α → α
  | none, _ => burst
  | some b, now => min burst (b.accrued rate now)

def allowed (held : Option (Bucket α)) (now : α) : Bool := 1 ≤ available rate burst held now

def take (held : Option (Bucket α)) (now : α) : Bucket α where
  tokens :=
    if 1 ≤ available rate burst held now then available rate burst held now - 1
    else available rate burst held now
  clock := held.elim now fun b => max b.clock now

/-- How many takes are let through. -/
def admitted (held : Option (Bucket α)) : List α → Nat
  | [] => 0
  | now :: later =>
    (if allowed rate burst held now then 1 else 0) + admitted (some (take rate burst held now)) later

/-- The whole seconds until there is a token. -/
def wait [FloorRing α] (tokens : α) : Int := max 1 ⌈(1 - tokens) / rate⌉

end Definitions

section Bounds

variable {rate burst : α} {b : Bucket α} {held : Option (Bucket α)} {now later earliest latest : α}
  {stamps : List α}

theorem available_of_full (full : burst ≤ b.accrued rate now) :
    available rate burst (some b) now = burst :=
  min_eq_left full

theorem take_of_full (full : burst ≤ b.accrued rate now) (order : b.clock ≤ now) :
    take rate burst (some b) now = take rate burst none now := by
  have same : available rate burst (some b) now = available rate burst none now :=
    available_of_full full
  simp [take, same, order]

theorem tokens_add (rate burst : α) (held : Option (Bucket α)) (now : α) :
    (take rate burst held now).tokens + (if allowed rate burst held now then 1 else 0) =
      available rate burst held now := by
  by_cases enough : 1 ≤ available rate burst held now <;> simp [take, allowed, enough]

variable [IsStrictOrderedRing α]

theorem Bucket.accrued_mono (b : Bucket α) (forward : 0 < rate) (order : now ≤ later) :
    b.accrued rate now ≤ b.accrued rate later := by
  have : max 0 (now - b.clock) ≤ max 0 (later - b.clock) := max_le_max_left _ (by linarith)
  unfold Bucket.accrued
  linarith [mul_le_mul_of_nonneg_right this forward.le]

theorem tokens_nonneg (nonneg : 0 ≤ available rate burst held now) :
    0 ≤ (take rate burst held now).tokens := by
  unfold take
  dsimp only
  split <;> linarith

theorem available_nonneg (forward : 0 < rate) (size : 1 ≤ burst) (nonneg : 0 ≤ b.tokens) :
    0 ≤ available rate burst (some b) now := by
  refine le_min (by linarith) ?_
  have := mul_nonneg (le_max_left 0 (now - b.clock)) forward.le
  unfold Bucket.accrued
  linarith

theorem available_le :
    available rate burst (some b) now ≤
      b.tokens + rate * ((take rate burst (some b) now).clock - b.clock) := by
  have moved : max 0 (now - b.clock) = max b.clock now - b.clock := by
    rw [← max_sub_sub_right, sub_self]
  refine (min_le_right _ _).trans (le_of_eq ?_)
  simp only [Bucket.accrued, take, Option.elim_some, moved]
  ring

theorem admitted_some_le (forward : 0 < rate) (size : 1 ≤ burst) (nonneg : 0 ≤ b.tokens)
    (before : ∀ now ∈ stamps, now ≤ latest) (clock : b.clock ≤ latest) :
    (admitted rate burst (some b) stamps : α) ≤ b.tokens + rate * (latest - b.clock) := by
  induction stamps generalizing b with
  | nil =>
    have := mul_nonneg forward.le (sub_nonneg.mpr clock)
    simp only [admitted, Nat.cast_zero]
    linarith
  | cons now later ih =>
    have here := @available_le _ _ _ rate burst b now _
    have split := tokens_add rate burst (some b) now
    have left := tokens_nonneg (@available_nonneg _ _ _ rate burst b now _ forward size nonneg)
    have rest := ih left (fun n mem => before n (List.mem_cons_of_mem _ mem))
      (max_le clock (before now List.mem_cons_self))
    simp only [admitted, Nat.cast_add, Nat.cast_ite, Nat.cast_one, Nat.cast_zero]
    linarith

theorem admitted_le (forward : 0 < rate) (size : 1 ≤ burst) (some_stamp : stamps ≠ [])
    (within : ∀ now ∈ stamps, earliest ≤ now ∧ now ≤ latest) :
    (admitted rate burst none stamps : α) ≤ burst + rate * (latest - earliest) := by
  cases stamps with
  | nil => exact absurd rfl some_stamp
  | cons now later =>
    obtain ⟨first, last⟩ := within now List.mem_cons_self
    have split := tokens_add rate burst none now
    have left : 0 ≤ (take rate burst none now).tokens :=
      tokens_nonneg (show 0 ≤ burst by linarith)
    have rest := admitted_some_le forward size left
      (fun n mem => (within n (List.mem_cons_of_mem _ mem)).2) last
    have span : rate * (latest - now) ≤ rate * (latest - earliest) :=
      mul_le_mul_of_nonneg_left (by linarith) forward.le
    simp only [admitted, Nat.cast_add, Nat.cast_ite, Nat.cast_one, Nat.cast_zero]
    simp only [available] at split
    have clock : (take rate burst none now).clock = now := rfl
    rw [clock] at rest
    linarith

theorem enough_after_wait [FloorRing α] (forward : 0 < rate) (tokens : α) :
    1 ≤ tokens + wait rate tokens * rate := by
  have ceil : (1 - tokens) / rate ≤ wait rate tokens :=
    (Int.le_ceil _).trans (Int.cast_le.mpr (le_max_right _ _))
  rw [div_le_iff₀ forward] at ceil
  linarith

theorem allowed_after_wait [FloorRing α] (forward : 0 < rate) (size : 1 ≤ burst)
    (past : b.clock ≤ now) :
    allowed rate burst (some b) (now + wait rate b.tokens) = true := by
  have enough := enough_after_wait forward b.tokens
  have waited : (wait rate b.tokens : α) ≤ max 0 (now + wait rate b.tokens - b.clock) :=
    le_max_of_le_right (by linarith)
  have accrued := mul_le_mul_of_nonneg_right waited forward.le
  refine decide_eq_true (le_min size ?_)
  unfold Bucket.accrued
  linarith

end Bounds

section Kept

variable {rate burst : α} {b : Bucket α} {kept held : Option (Bucket α)} {now later : α}

/-- What is kept of a bucket: all of it, or nothing once it is full. -/
inductive Kept (rate burst now : α) : Option (Bucket α) → Option (Bucket α) → Prop
  | whole {held : Option (Bucket α)} : Kept rate burst now held held
  | forgotten {b : Bucket α} (past : b.clock ≤ now) (full : burst ≤ b.accrued rate now) :
      Kept rate burst now none (some b)

theorem Kept.available_eq (kept_ : Kept rate burst now kept held) :
    available rate burst kept now = available rate burst held now := by
  cases kept_ with
  | whole => rfl
  | forgotten _ full => exact (available_of_full full).symm

theorem Kept.take_eq (kept_ : Kept rate burst now kept held) :
    take rate burst kept now = take rate burst held now := by
  cases kept_ with
  | whole => rfl
  | forgotten past full => exact (take_of_full full past).symm

theorem Kept.mem (k : Kept rate burst now kept held) (mem : b ∈ kept) : b ∈ held := by
  cases k with
  | whole => exact mem
  | forgotten => cases mem

theorem Kept.trans {was : Option (Bucket α)} (k : Kept rate burst now kept held)
    (k' : Kept rate burst now held was) : Kept rate burst now kept was := by
  cases k with
  | whole => exact k'
  | forgotten past full =>
    cases k' with
    | whole => exact .forgotten past full

theorem Kept.onwards [IsStrictOrderedRing α] (kept_ : Kept rate burst now kept held)
    (forward : 0 < rate) (order : now ≤ later) : Kept rate burst later kept held := by
  cases kept_ with
  | whole => exact .whole
  | forgotten past full =>
    exact .forgotten (past.trans order) (full.trans (Bucket.accrued_mono _ forward order))

end Kept

end Smo.TokenBucket
