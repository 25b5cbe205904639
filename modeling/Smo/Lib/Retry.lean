import Mathlib.Data.List.Basic

/-! An operation sent over a channel that loses requests and answers, and sent again until
an attempt is answered. An attempt whose answer was lost may have been carried out, so what
the last answer says is not yet what happened. -/
namespace Smo.Retry

/-- What becomes of one attempt: lost before it is carried out, carried out with its answer
lost, carried out and answered, or refused by something that does not carry it out. -/
inductive Course where
  | unreached | unanswered | answered | turnedAway
  deriving DecidableEq, Repr

/-- How an operation is sent: when it is too late for another attempt, after how many and
before which delay; the wait; the attempt; and which replies ask for another one. -/
structure Policy (σ ρ : Type) where
  late : Nat → Nat → σ → Bool
  wait : Nat → σ → σ
  send : σ → σ × ρ
  again : ρ → Bool

variable {σ ρ : Type}

namespace Policy

variable (policy : Policy σ ρ)

/-- The states in which an attempt is made. -/
def attempts : List Nat → Nat → σ → List σ
  | [], _, _ => []
  | delay :: delays, made, s =>
    if policy.late made delay s then []
    else policy.wait delay s ::
      if policy.again (policy.send (policy.wait delay s)).2 then
        attempts delays (made + 1) (policy.send (policy.wait delay s)).1
      else []

/-- The state at the end, and the last reply. -/
def retry : List Nat → Nat → σ → Option ρ → σ × Option ρ
  | [], _, s, last => (s, last)
  | delay :: delays, made, s, last =>
    if policy.late made delay s then (s, last)
    else if policy.again (policy.send (policy.wait delay s)).2 then
      retry delays (made + 1) (policy.send (policy.wait delay s)).1
        (some (policy.send (policy.wait delay s)).2)
    else
      ((policy.send (policy.wait delay s)).1, some (policy.send (policy.wait delay s)).2)

theorem retry_eq (delays : List Nat) (made : Nat) (s : σ) (last : Option ρ) :
    policy.retry delays made s last =
      match (policy.attempts delays made s).getLast? with
      | none => (s, last)
      | some b => ((policy.send b).1, some (policy.send b).2) := by
  induction delays generalizing made s last with
  | nil => rfl
  | cons delay delays ih =>
    unfold retry attempts
    by_cases late : policy.late made delay s
    · simp only [late, if_true, List.getLast?_nil]
    by_cases asks : policy.again (policy.send (policy.wait delay s)).2
    · simp only [late, asks, if_true, Bool.false_eq_true, if_false, ih, List.getLast?_cons]
      cases (policy.attempts delays (made + 1) (policy.send (policy.wait delay s)).1).getLast? <;>
        rfl
    · simp only [late, asks, Bool.false_eq_true, if_false, List.getLast?_singleton]

variable {delays : List Nat} {made : Nat}

theorem attempts_eq_nil {s : σ} (silent : (policy.retry delays made s none).2 = none) :
    policy.attempts delays made s = [] := by
  rw [retry_eq] at silent
  cases last : (policy.attempts delays made s).getLast? with
  | none => exact List.getLast?_eq_none_iff.1 last
  | some b =>
    rw [last] at silent
    cases silent

theorem again_of_earlier {s b : σ} {earlier : List σ}
    (eq : policy.attempts delays made s = earlier ++ [b]) :
    ∀ a ∈ earlier, policy.again (policy.send a).2 = true := by
  induction delays generalizing made s earlier with
  | nil => simp [attempts] at eq
  | cons delay delays ih =>
    unfold attempts at eq
    split at eq
    · simp at eq
    · split at eq
      · rename_i asks
        cases earlier with
        | nil => exact fun _ mem => absurd mem List.not_mem_nil
        | cons first earlier =>
          obtain ⟨rfl, rest⟩ := List.cons.inj eq
          intro a mem
          rcases List.mem_cons.1 mem with rfl | mem
          · exact asks
          · exact ih rest a mem
      · cases earlier with
        | nil => exact fun _ mem => absurd mem List.not_mem_nil
        | cons first earlier => simp at eq

/-- No attempt begins after `latest`, and each takes at most `timeout`. -/
theorem retry_by {clock : σ → Nat} {latest timeout : Nat} {s : σ} {last : Option ρ}
    (begins : ∀ made delay s, made ≠ 0 → policy.late made delay s = false →
      clock (policy.wait delay s) ≤ latest)
    (sends : ∀ s, clock (policy.send s).1 ≤ clock s + timeout)
    (first : made = 0 → ∀ delay ∈ delays.head?, clock (policy.wait delay s) ≤ latest)
    (here : clock s ≤ latest + timeout) :
    clock (policy.retry delays made s last).1 ≤ latest + timeout := by
  induction delays generalizing made s last with
  | nil => exact here
  | cons delay delays ih =>
    unfold retry
    split
    next => exact here
    next early =>
      have woke : clock (policy.wait delay s) ≤ latest := by
        by_cases isFirst : made = 0
        · exact first isFirst delay rfl
        · exact begins made delay s isFirst (Bool.eq_false_iff.2 early)
      have sent := Nat.le_trans (sends (policy.wait delay s)) (Nat.add_le_add_right woke timeout)
      split
      next => exact ih nofun sent
      next => exact sent

end Policy

section Performing

variable {C E : Type} (perform : C → Except E C)

/-- What an execution leaves: a refused one leaves everything as it was. -/
def left (c : C) : C :=
  match perform c with
  | .ok c' => c'
  | .error _ => c

variable {c : C}

theorem left_ok {c' : C} (ok : perform c = .ok c') : left perform c = c' := by
  simp only [left, ok]

theorem left_error {e : E} (error : perform c = .error e) : left perform c = c := by
  simp only [left, error]

/-- An operation that, once carried out, finds nothing more to do: done again it is refused
or changes nothing. -/
def Settles : Prop :=
  ∀ c c', perform c = .ok c' → left perform c' = c'

theorem Settles.left_left (settles : Settles perform) (c : C) :
    left perform (left perform c) = left perform c := by
  cases done : perform c with
  | error e => rw [left_error perform done, left_error perform done]
  | ok c' => rw [left_ok perform done, settles c c' done]

/-- What an attempt leaves and what is heard of it, from what became of it: whether another
attempt is due, and whether the operation is said to be done. -/
def Ends (course : Course) (before after : C) (again done : Bool) : Prop :=
  match course with
  | .unreached => after = before ∧ again = true ∧ done = false
  | .unanswered => after = left perform before ∧ again = true ∧ done = false
  | .answered => after = left perform before ∧ again = false ∧
      (done = true ↔ ∃ c, perform before = .ok c)
  | .turnedAway => after = before ∧ again = false ∧ done = false

variable (policy : Policy σ ρ) (held : σ → C) (course : σ → Course) (done : ρ → Bool)

/-- The attempts of a policy are attempts at the operation, on what a state holds. -/
structure Carries : Prop where
  wait : ∀ delay s, held (policy.wait delay s) = held s
  send : ∀ s, Ends perform (course s) (held s) (held (policy.send s).1)
    (policy.again (policy.send s).2) (done (policy.send s).2)

/-- An attempt that is refused for good. -/
def TurnsDown (s : σ) : Prop :=
  course s = .turnedAway ∨ course s = .answered ∧ ∃ e, perform (held s) = .error e

/-- An attempt that took effect, its answer lost. -/
def Unheard (s : σ) : Prop :=
  course s = .unanswered ∧ left perform (held s) ≠ held s

/-- An attempt whose effect went unheard is followed by one that is turned down. -/
def Spoiled (attempts : List σ) : Prop :=
  ∃ a b, [a, b].Sublist attempts ∧ Unheard perform held course a ∧
    TurnsDown perform held course b

variable {perform policy held course done}

namespace Carries

theorem unreached (carries : Carries perform policy held course done) {s : σ}
    (at_s : course s = .unreached) :
    held (policy.send s).1 = held s ∧ policy.again (policy.send s).2 = true ∧
      done (policy.send s).2 = false := by
  have ends := carries.send s
  rwa [at_s] at ends

theorem unanswered (carries : Carries perform policy held course done) {s : σ}
    (at_s : course s = .unanswered) :
    held (policy.send s).1 = left perform (held s) ∧ policy.again (policy.send s).2 = true ∧
      done (policy.send s).2 = false := by
  have ends := carries.send s
  rwa [at_s] at ends

theorem answered (carries : Carries perform policy held course done) {s : σ}
    (at_s : course s = .answered) :
    held (policy.send s).1 = left perform (held s) ∧ policy.again (policy.send s).2 = false ∧
      (done (policy.send s).2 = true ↔ ∃ c, perform (held s) = .ok c) := by
  have ends := carries.send s
  rwa [at_s] at ends

theorem turnedAway (carries : Carries perform policy held course done) {s : σ}
    (at_s : course s = .turnedAway) :
    held (policy.send s).1 = held s ∧ policy.again (policy.send s).2 = false ∧
      done (policy.send s).2 = false := by
  have ends := carries.send s
  rwa [at_s] at ends

theorem held_send (carries : Carries perform policy held course done) (s : σ) :
    held (policy.send s).1 = held s ∨ held (policy.send s).1 = left perform (held s) := by
  cases at_s : course s with
  | unreached => exact .inl (carries.unreached at_s).1
  | unanswered => exact .inr (carries.unanswered at_s).1
  | answered => exact .inr (carries.answered at_s).1
  | turnedAway => exact .inl (carries.turnedAway at_s).1

theorem turnsDown_iff (carries : Carries perform policy held course done) (s : σ) :
    TurnsDown perform held course s ↔
      done (policy.send s).2 = false ∧ policy.again (policy.send s).2 = false := by
  constructor
  · rintro (turned | ⟨answered, e, error⟩)
    · obtain ⟨_, asks, refused⟩ := carries.turnedAway turned
      exact ⟨refused, asks⟩
    · obtain ⟨_, asks, hears⟩ := carries.answered answered
      refine ⟨Bool.eq_false_iff.2 fun did => ?_, asks⟩
      obtain ⟨c, ok⟩ := hears.1 did
      rw [error] at ok
      cases ok
  · rintro ⟨refused, asks⟩
    cases at_s : course s with
    | unreached => rw [(carries.unreached at_s).2.1] at asks; cases asks
    | unanswered => rw [(carries.unanswered at_s).2.1] at asks; cases asks
    | turnedAway => exact .inl at_s
    | answered =>
      refine .inr ⟨at_s, ?_⟩
      cases result : perform (held s) with
      | error e => exact ⟨e, rfl⟩
      | ok c =>
        rw [(carries.answered at_s).2.2.2 ⟨c, result⟩] at refused
        cases refused

theorem held_of_turnsDown (carries : Carries perform policy held course done) {s : σ}
    (down : TurnsDown perform held course s) : held (policy.send s).1 = held s := by
  rcases down with turned | ⟨answered, e, error⟩
  · exact (carries.turnedAway turned).1
  · rw [(carries.answered answered).1, left_error perform error]

theorem lost_of_again (carries : Carries perform policy held course done) {s : σ}
    (asks : policy.again (policy.send s).2 = true) :
    course s = .unreached ∨ course s = .unanswered := by
  cases at_s : course s with
  | unreached => exact .inl rfl
  | unanswered => exact .inr rfl
  | answered => rw [(carries.answered at_s).2.1] at asks; cases asks
  | turnedAway => rw [(carries.turnedAway at_s).2.1] at asks; cases asks

theorem untouched_iff (carries : Carries perform policy held course done) (delays : List Nat)
    (made : Nat) (s : σ) :
    ((∃ reply, (policy.retry delays made s none).2 = some reply ∧ done reply = false ∧
        policy.again reply = false) →
      ∀ a ∈ policy.attempts delays made s, held (policy.send a).1 = held a) ↔
    ¬Spoiled perform held course (policy.attempts delays made s) := by
  rw [policy.retry_eq]
  rcases List.eq_nil_or_concat (policy.attempts delays made s) with none | ⟨earlier, b, eq⟩
  · rw [none]
    refine ⟨fun _ => ?_, fun _ _ a mem => absurd mem List.not_mem_nil⟩
    rintro ⟨_, _, sub, _⟩
    cases sub
  rw [List.concat_eq_append] at eq
  have asked := policy.again_of_earlier eq
  rw [eq, List.getLast?_concat]
  constructor
  · rintro untouched ⟨a, c, sub, ⟨unanswered, effect⟩, down⟩
    have final := (carries.turnsDown_iff c).1 down
    obtain ⟨front, back, same, inFront, inBack⟩ := List.sublist_append_iff.1 sub
    have fromEarlier : c ∉ earlier := fun mem => by
      rw [asked c mem] at final
      cases final.2
    have last : c = b := by
      have : c ∈ earlier ++ [b] := sub.subset (by simp)
      simpa [fromEarlier] using this
    subst last
    refine effect ?_
    rw [← (carries.unanswered unanswered).1]
    exact untouched ⟨_, rfl, final⟩ a (sub.subset (by simp))
  · rintro clean ⟨reply, heard, refused, asks⟩ a mem
    obtain rfl : (policy.send b).2 = reply := Option.some.inj heard
    have down := (carries.turnsDown_iff b).2 ⟨refused, asks⟩
    rcases List.mem_append.1 mem with before | last
    · rcases carries.lost_of_again (asked a before) with unreached | unanswered
      · exact (carries.unreached unreached).1
      · rw [(carries.unanswered unanswered).1]
        by_contra effect
        exact clean ⟨a, b, (List.singleton_sublist.2 before).append (List.Sublist.refl [b]),
          ⟨unanswered, effect⟩, down⟩
    · rw [List.mem_singleton.1 last]
      exact carries.held_of_turnsDown down

variable {delays : List Nat} {made : Nat}

theorem done_leaves (carries : Carries perform policy held course done) {s : σ} {reply : ρ}
    (heard : (policy.retry delays made s none).2 = some reply) (did : done reply = true) :
    ∃ b ∈ policy.attempts delays made s,
      held (policy.retry delays made s none).1 = left perform (held b) ∧
        perform (held b) = .ok (left perform (held b)) := by
  rw [policy.retry_eq] at heard ⊢
  cases last : (policy.attempts delays made s).getLast? with
  | none => simp [last] at heard
  | some b =>
    rw [last] at heard
    obtain rfl : (policy.send b).2 = reply := Option.some.inj heard
    have answered : course b = .answered := by
      cases at_b : course b with
      | unreached => cases (carries.unreached at_b).2.2.symm.trans did
      | unanswered => cases (carries.unanswered at_b).2.2.symm.trans did
      | answered => rfl
      | turnedAway => cases (carries.turnedAway at_b).2.2.symm.trans did
    obtain ⟨leaves, _, hears⟩ := carries.answered answered
    obtain ⟨c, ok⟩ := hears.1 did
    exact ⟨b, List.mem_of_getLast? last, leaves, by rw [left_ok perform ok, ok]⟩

theorem held_attempts (carries : Carries perform policy held course done)
    (settles : Settles perform) {s : σ} : ∀ a ∈ policy.attempts delays made s,
      held a = held s ∨ held a = left perform (held s) := by
  induction delays generalizing made s with
  | nil => exact fun _ mem => absurd mem List.not_mem_nil
  | cons delay delays ih =>
    intro a mem
    unfold Policy.attempts at mem
    split at mem
    · exact absurd mem List.not_mem_nil
    rcases List.mem_cons.1 mem with rfl | mem
    · exact .inl (carries.wait delay s)
    split at mem
    · rcases carries.held_send (policy.wait delay s) with same | changed
      · rw [carries.wait] at same
        rw [← same]
        exact ih a mem
      · rw [carries.wait] at changed
        rcases ih a mem with here | here
        · exact .inr (here.trans changed)
        · rw [changed, settles.left_left] at here
          exact .inr here
    · exact absurd mem List.not_mem_nil

theorem held_after (carries : Carries perform policy held course done) (settles : Settles perform)
    {s a b : σ} (sub : [a, b].Sublist (policy.attempts delays made s))
    (carried : course a = .unanswered) : held b = left perform (held a) := by
  induction delays generalizing made s with
  | nil => cases sub
  | cons delay delays ih =>
    unfold Policy.attempts at sub
    split at sub
    · cases sub
    · cases sub with
      | cons _ sub =>
        split at sub
        · exact ih sub
        · cases sub
      | cons_cons _ sub =>
        split at sub
        · have mem := List.singleton_sublist.1 sub
          have leaves := (carries.unanswered carried).1
          rcases carries.held_attempts settles b mem with here | here
          · exact here.trans leaves
          · rw [here, leaves, settles.left_left]
        · cases sub

theorem done_once (carries : Carries perform policy held course done) (settles : Settles perform)
    {s : σ} {reply : ρ} (heard : (policy.retry delays made s none).2 = some reply)
    (did : done reply = true) :
    perform (held s) = .ok (held (policy.retry delays made s none).1) := by
  obtain ⟨b, mem, final, ok⟩ := carries.done_leaves heard did
  rw [final]
  rcases carries.held_attempts settles b mem with here | here
  · rw [← here]
    exact ok
  · cases first : perform (held s) with
    | error e =>
      rw [left_error perform first] at here
      rw [here, first] at ok
      cases ok
    | ok c =>
      rw [left_ok perform first] at here
      have settled := settles _ _ first
      rw [← here, left_ok perform ok] at settled
      rw [settled, here]

end Carries

/-- An operation that finds its own work acceptable: it can be done again. -/
def Repeats (perform : C → Except E C) : Prop :=
  ∀ c c', perform c = .ok c' → perform c' = .ok c'

/-- An operation that is refused once it has been done. -/
def Once (perform : C → Except E C) : Prop :=
  ∀ c c', perform c = .ok c' → ∃ e, perform c' = .error e

theorem Repeats.settles (repeats : Repeats perform) : Settles perform :=
  fun c c' ok => left_ok perform (repeats c c' ok)

theorem Once.settles (once : Once perform) : Settles perform := by
  intro c c' ok
  obtain ⟨e, error⟩ := once c c' ok
  exact left_error perform error

theorem Unheard.ok {s : σ} (unheard : Unheard perform held course s) :
    perform (held s) = .ok (left perform (held s)) := by
  cases result : perform (held s) with
  | ok c => rw [left_ok perform result]
  | error e => exact absurd (left_error perform result) unheard.2

namespace Carries

theorem spoiled_iff_of_repeats (carries : Carries perform policy held course done)
    (repeats : Repeats perform) (delays : List Nat) (made : Nat) (s : σ) :
    Spoiled perform held course (policy.attempts delays made s) ↔
      ∃ a b, [a, b].Sublist (policy.attempts delays made s) ∧
        Unheard perform held course a ∧ course b = .turnedAway := by
  constructor
  · rintro ⟨a, b, sub, unheard, turned | ⟨_, e, error⟩⟩
    · exact ⟨a, b, sub, unheard, turned⟩
    · rw [carries.held_after repeats.settles sub unheard.1,
        repeats _ _ unheard.ok] at error
      cases error
  · rintro ⟨a, b, sub, unheard, turned⟩
    exact ⟨a, b, sub, unheard, .inl turned⟩

theorem spoiled_iff_of_once (carries : Carries perform policy held course done)
    (once : Once perform) (delays : List Nat) (made : Nat) (s : σ) :
    Spoiled perform held course (policy.attempts delays made s) ↔
      ∃ a b, [a, b].Sublist (policy.attempts delays made s) ∧
        Unheard perform held course a ∧ (course b = .turnedAway ∨ course b = .answered) := by
  constructor
  · rintro ⟨a, b, sub, unheard, turned | ⟨answered, _⟩⟩
    · exact ⟨a, b, sub, unheard, .inl turned⟩
    · exact ⟨a, b, sub, unheard, .inr answered⟩
  · rintro ⟨a, b, sub, unheard, turned | answered⟩
    · exact ⟨a, b, sub, unheard, .inl turned⟩
    · refine ⟨a, b, sub, unheard, .inr ⟨answered, ?_⟩⟩
      rw [carries.held_after once.settles sub unheard.1]
      exact once _ _ unheard.ok

end Carries

end Performing

end Smo.Retry
