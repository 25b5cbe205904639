import Mathlib.Data.List.Basic

/-! Patterns of texts and a backtracking matcher for them: the rests it leaves are exactly those
after a front that the pattern denotes. Nothing here names a program. -/
namespace Smo

/-- `one` and `many` stand for a character, or any number of them, that are not barred. -/
inductive Pattern
  | never
  | text (t : List Char)
  | one (barred : List Char)
  | many (barred : List Char)
  | seq (p q : Pattern)
  | alt (p q : Pattern)
  deriving DecidableEq

namespace Pattern

instance : Coe String Pattern := ⟨fun t => .text t.toList⟩

/-- One pattern after another. -/
def of : List Pattern → Pattern
  | [] => text []
  | [p] => p
  | p :: rest => seq p (of rest)

/-- `[^c]+` -/
def someExcept (c : Char) : Pattern := seq (one [c]) (many [c])

def oneOf : List Pattern → Pattern
  | [] => never
  | [p] => p
  | p :: rest => alt p (oneOf rest)

def maybe (p : Pattern) : Pattern := alt p (text [])

def Denotes : Pattern → List Char → Prop
  | never, _ => False
  | text t, s => s = t
  | one barred, s => ∃ c, s = [c] ∧ c ∉ barred
  | many barred, s => ∀ c ∈ s, c ∉ barred
  | seq p q, s => ∃ front back, s = front ++ back ∧ p.Denotes front ∧ q.Denotes back
  | alt p q, s => p.Denotes s ∨ q.Denotes s

/-- What is left of a text after any number of characters that are not barred. -/
def manyRests (barred : List Char) : List Char → List (List Char)
  | [] => [[]]
  | c :: s => (c :: s) :: if c ∈ barred then [] else manyRests barred s

/-- Everything that a match at the beginning of the text can leave of it. -/
def rests : Pattern → List Char → List (List Char)
  | never, _ => []
  | text t, s => if t.isPrefixOf s then [s.drop t.length] else []
  | one _, [] => []
  | one barred, c :: s => if c ∈ barred then [] else [s]
  | many barred, s => manyRests barred s
  | seq p q, s => (p.rests s).flatMap q.rests
  | alt p q, s => p.rests s ++ q.rests s

/-- `re.fullmatch`. -/
def fullmatch (p : Pattern) (s : List Char) : Bool := (p.rests s).contains []

/-- `re.match` of the pattern with a `$` behind it, which also stands before a last line break. -/
def matchesLine (p : Pattern) (s : List Char) : Bool :=
  (p.rests s).contains [] || (p.rests s).contains ['\n']

theorem mem_manyRests {barred s r : List Char} :
    r ∈ manyRests barred s ↔ ∃ front, s = front ++ r ∧ ∀ c ∈ front, c ∉ barred := by
  induction s with
  | nil =>
    rw [manyRests, List.mem_singleton]
    constructor
    · rintro rfl
      exact ⟨[], rfl, nofun⟩
    · rintro ⟨front, whole, -⟩
      exact (List.append_eq_nil_iff.mp whole.symm).2
  | cons c s ih =>
    rw [manyRests, List.mem_cons]
    constructor
    · rintro (rfl | later)
      · exact ⟨[], rfl, nofun⟩
      · split at later
        · cases later
        · next fine =>
          obtain ⟨front, rfl, all⟩ := ih.mp later
          exact ⟨c :: front, rfl, List.forall_mem_cons.mpr ⟨fine, all⟩⟩
    · rintro ⟨front, whole, all⟩
      cases front with
      | nil => exact .inl whole.symm
      | cons d front =>
        obtain ⟨rfl, rfl⟩ := List.cons.inj whole
        obtain ⟨fine, all⟩ := List.forall_mem_cons.mp all
        rw [if_neg fine]
        exact .inr (ih.mpr ⟨front, rfl, all⟩)

theorem mem_rests_iff {p : Pattern} {s r : List Char} :
    r ∈ p.rests s ↔ ∃ front, s = front ++ r ∧ p.Denotes front := by
  induction p generalizing s r with
  | never => simp [rests, Denotes]
  | text t =>
    simp only [rests, Denotes]
    constructor
    · intro has
      split at has
      · next starts =>
        obtain ⟨back, rfl⟩ := List.isPrefixOf_iff_prefix.mp starts
        rw [List.drop_left, List.mem_singleton] at has
        exact ⟨t, by rw [has], rfl⟩
      · cases has
    · rintro ⟨front, rfl, rfl⟩
      rw [if_pos (List.isPrefixOf_iff_prefix.mpr (List.prefix_append _ _)), List.drop_left]
      exact List.mem_singleton_self _
  | one barred =>
    simp only [Denotes]
    cases s with
    | nil => simp [rests]
    | cons c s =>
      simp only [rests]
      constructor
      · intro has
        split at has
        · cases has
        · next fine =>
          rw [List.mem_singleton] at has
          exact ⟨[c], by rw [has]; rfl, c, rfl, fine⟩
      · rintro ⟨_, whole, d, rfl, fine⟩
        obtain ⟨rfl, rfl⟩ := List.cons.inj whole
        rw [if_neg fine]
        exact List.mem_singleton_self _
  | many barred => exact mem_manyRests
  | seq p q ihp ihq =>
    simp only [rests, Denotes, List.mem_flatMap]
    constructor
    · rintro ⟨middle, first, second⟩
      obtain ⟨front, rfl, is⟩ := ihp.mp first
      obtain ⟨back, rfl, has⟩ := ihq.mp second
      exact ⟨front ++ back, (List.append_assoc ..).symm, front, back, rfl, is, has⟩
    · rintro ⟨_, rfl, front, back, rfl, is, has⟩
      exact ⟨back ++ r, ihp.mpr ⟨front, List.append_assoc .., is⟩, ihq.mpr ⟨back, rfl, has⟩⟩
  | alt p q ihp ihq =>
    simp only [rests, Denotes, List.mem_append, ihp, ihq]
    constructor
    · rintro (⟨front, whole, is⟩ | ⟨front, whole, is⟩)
      · exact ⟨front, whole, .inl is⟩
      · exact ⟨front, whole, .inr is⟩
    · rintro ⟨front, whole, is | is⟩
      · exact .inl ⟨front, whole, is⟩
      · exact .inr ⟨front, whole, is⟩

theorem fullmatch_iff {p : Pattern} {s : List Char} : p.fullmatch s = true ↔ p.Denotes s := by
  simp [fullmatch, mem_rests_iff]

theorem matchesLine_iff {p : Pattern} {s : List Char} :
    p.matchesLine s = true ↔ p.Denotes s ∨ ∃ line, s = line ++ ['\n'] ∧ p.Denotes line := by
  simp [matchesLine, mem_rests_iff]

end Pattern
end Smo
