import Smo.GuiBff.Lockout

/-! How many guesses the count of failed sign-ins lets through in a run. -/
namespace Smo.GuiBff.Lockout

open Runs (Run)

section Windows

variable {failure : Option LoginFailure} {row : LoginFailure} {now : Nat} {guesses : List Nat}

def LoginFailure.window (row : LoginFailure) (guess : Nat) : Bool :=
  row.firstFailedAt ≤ guess && guess < row.firstFailedAt + lockout

def Open (failure : Option LoginFailure) (now : Nat) : Prop :=
  ∀ row, failure = some row → row.count < maxLoginFailures ∨ row.firstFailedAt + lockout ≤ now

theorem loginLocked_open : loginLocked failure now = false ↔ Open failure now := by
  cases failure with
  | none => simp [loginLocked, Open]
  | some row =>
    simp only [loginLocked, Option.any_some, Bool.and_eq_false_iff, decide_eq_false_iff_not,
      Nat.not_le, Nat.not_lt]
    exact ⟨fun is row' same => Option.some.inj same ▸ is, fun isOpen => isOpen row rfl⟩

theorem Open.later {since : Nat} (isOpen : Open failure since) (le : since ≤ now) :
    Open failure now :=
  fun row is => (isOpen row is).imp_right fun passed => Nat.le_trans passed le

def Settled (failure : Option LoginFailure) (guesses : List Nat) : Prop :=
  match failure with
  | none => guesses = []
  | some row => row.count ≤ maxLoginFailures ∧ (∀ guess ∈ guesses, guess < row.firstFailedAt + lockout) ∧
      (guesses.filter row.window).length ≤ row.count

theorem one_le : 1 ≤ maxLoginFailures := by decide

theorem settled_fewer (settled : Settled failure (guesses ++ [now])) : failure = none ∨
    Settled failure guesses := by
  cases failure with
  | none => exact .inl rfl
  | some row =>
    obtain ⟨few, before, counted⟩ := settled
    refine .inr ⟨few, fun guess mem => before guess (List.mem_append_left _ mem), ?_⟩
    rw [List.filter_append, List.length_append] at counted
    omega

theorem settled_counted (settled : Settled (some row) guesses) (isOpen : Open (some row) now) :
    Settled (some (if row.firstFailedAt + lockout ≤ now then ⟨1, now⟩
      else ⟨row.count + 1, row.firstFailedAt⟩)) (guesses ++ [now]) := by
  obtain ⟨few, before, counted⟩ := settled
  split_ifs with passed
  · have earlier : guesses.filter (LoginFailure.window ⟨1, now⟩) = [] := by
      rw [List.filter_eq_nil_iff]
      intro guess mem
      have less := before guess mem
      simp only [LoginFailure.window, Bool.and_eq_true, decide_eq_true_eq]
      omega
    refine ⟨one_le, fun guess mem => ?_, ?_⟩
    · have positive : 0 < lockout := by decide
      rcases List.mem_append.mp mem with was | is
      · have less := before guess was
        dsimp only
        omega
      · rw [List.mem_singleton.mp is]
        dsimp only
        omega
    · rw [List.filter_append, earlier]
      exact List.length_filter_le _ _
  · have below : row.count < maxLoginFailures := (isOpen row rfl).resolve_right passed
    refine ⟨below, fun guess mem => ?_, ?_⟩
    · rcases List.mem_append.mp mem with was | is
      · exact before guess was
      · rw [List.mem_singleton.mp is]
        exact Nat.not_le.mp passed
    · have one : ([now].filter (LoginFailure.window ⟨row.count + 1, row.firstFailedAt⟩)).length ≤ 1 :=
        List.length_filter_le _ _
      rw [List.filter_append, List.length_append]
      exact Nat.add_le_add counted one

theorem settled_inserted (settled : Settled none guesses) :
    Settled (some ⟨1, now⟩) (guesses ++ [now]) := by
  have none_ : guesses = [] := settled
  subst none_
  have positive : 0 < lockout := by decide
  refine ⟨one_le, fun guess mem => ?_, List.length_filter_le _ _⟩
  rw [List.mem_singleton.mp mem]
  dsimp only
  omega

theorem window_bounded (settled : Settled (some row) guesses) (isOpen : Open (some row) now) :
    ((guesses ++ [now]).filter row.window).length ≤ maxLoginFailures := by
  obtain ⟨few, _, counted⟩ := settled
  rw [List.filter_append, List.length_append]
  rcases isOpen row rfl with below | passed
  · have one : ([now].filter row.window).length ≤ 1 := List.length_filter_le _ _
    omega
  · have outside : [now].filter row.window = [] := by
      simp [LoginFailure.window, passed]
    rw [outside]
    simp only [List.length_nil]
    omega

end Windows

section Steps

variable {s s' : State} {a : Act} {i : Nat} {old stage : Stage}

/-- The guesses are settled but for the one failure that may be waiting to be counted. -/
inductive Waiting (s : State) : Prop
  | nobody (none_ : ∀ (i : Nat) stage, s.attempts[i]? = some stage → stage.pending = false)
      (settled : Settled s.failure s.guesses)
  | one (i now : Nat) (guesses : List Nat)
      (there : s.attempts[i]? = some (.counting now 3) ∨
        s.attempts[i]? = some (.inserting now 3) ∧ s.failure = none)
      (alone : ∀ (j : Nat) stage, s.attempts[j]? = some stage → stage.pending = true → j = i)
      (made : s.guesses = guesses ++ [now] ∨ s.guesses = guesses)
      (settled : Settled s.failure guesses) (isOpen : Open s.failure now)

structure Sound (s : State) : Prop where
  seen : ∀ (i : Nat) stage seen, s.attempts[i]? = some stage → stage.seen? = some seen → Open seen s.clock
  plain : ∀ i : Nat, s.attempts[i]? = some (.completing true) → s.enrolled = false
  counted : ∀ i : Nat, s.attempts[i]? ≠ some .raised
  waiting : Waiting s

structure Quiet (s : State) (old stage : Stage) : Prop where
  seen : ∀ seen, stage.seen? = some seen → old.seen? = some seen ∨ Open seen s.clock
  plain : stage = .completing true → s.enrolled = false
  still : old.pending = false
  idle : stage.pending = false
  answers : stage ≠ .raised

theorem Sound.moved (sound : Sound s) (found : s.attempts[i]? = some old) (quiet : Quiet s old stage) :
    Sound (s.at_ i stage) := by
  have cases_ (j : Nat) (other : Stage) (is : (s.at_ i stage).attempts[j]? = some other) :
      j = i ∧ other = stage ∨ j ≠ i ∧ s.attempts[j]? = some other := Table.set_cases is
  refine ⟨fun j other seen is sees => ?_, fun j is => ?_, fun j is => ?_, ?_⟩
  · rcases cases_ j other is with ⟨_, rfl⟩ | ⟨_, was⟩
    · exact (quiet.seen seen sees).elim (sound.seen i old seen found) id
    · exact sound.seen j other seen was sees
  · rcases cases_ j _ is with ⟨_, same⟩ | ⟨_, was⟩
    · exact quiet.plain same.symm
    · exact sound.plain j was
  · rcases cases_ j _ is with ⟨_, same⟩ | ⟨_, was⟩
    · exact quiet.answers same.symm
    · exact sound.counted j was
  · cases sound.waiting with
    | nobody none_ settled =>
      refine .nobody (fun j other is => ?_) settled
      rcases cases_ j other is with ⟨_, rfl⟩ | ⟨_, was⟩
      · exact quiet.idle
      · exact none_ j other was
    | one k now guesses there alone made settled isOpen =>
      have apart : k ≠ i := by
        rintro rfl
        have still := quiet.still
        rcases there with is | ⟨is, _⟩ <;>
        · rw [found] at is
          cases is
          cases still
      refine .one k now guesses ?_ (fun j other is pends => ?_) made settled isOpen
      · exact there.imp (fun is => (List.getElem?_set_ne apart.symm).trans is)
          fun both => ⟨(List.getElem?_set_ne apart.symm).trans both.1, both.2⟩
      · rcases cases_ j other is with ⟨_, rfl⟩ | ⟨_, was⟩
        · rw [quiet.idle] at pends
          cases pends
        · exact alone j other was pends

theorem Waiting.of_pending (waiting : Waiting s) (found : s.attempts[i]? = some old)
    (pends : old.pending = true) : ∃ now guesses,
      (old = .counting now 3 ∨ old = .inserting now 3 ∧ s.failure = none) ∧
      (∀ (j : Nat) stage, s.attempts[j]? = some stage → stage.pending = true → j = i) ∧
      (s.guesses = guesses ++ [now] ∨ s.guesses = guesses) ∧ Settled s.failure guesses ∧
      Open s.failure now := by
  cases waiting with
  | nobody none_ settled =>
    rw [none_ i old found] at pends
    cases pends
  | one k now guesses there alone made settled isOpen =>
    obtain rfl := alone i old found pends
    refine ⟨now, guesses, ?_, alone, made, settled, isOpen⟩
    rw [found] at there
    exact there.imp Option.some.inj fun both => ⟨Option.some.inj both.1, both.2⟩

theorem Sound.recorded (sound : Sound s)
    (alone : ∀ (j : Nat) stage, s.attempts[j]? = some stage → stage.pending = true → j = i)
    {failure : Option LoginFailure} (settled : Settled failure s.guesses) :
    Sound { s.at_ i .answered with failure := failure } := by
  have cases_ (j : Nat) (other : Stage) (is : (s.at_ i .answered).attempts[j]? = some other) :
      j = i ∧ other = .answered ∨ j ≠ i ∧ s.attempts[j]? = some other := Table.set_cases is
  refine ⟨fun j other seen is sees => ?_, fun j is => ?_, fun j is => ?_,
    .nobody (fun j other is => ?_) settled⟩
  · rcases cases_ j other is with ⟨_, rfl⟩ | ⟨_, was⟩
    · cases sees
    · exact sound.seen j other seen was sees
  · rcases cases_ j _ is with ⟨_, same⟩ | ⟨_, was⟩
    · cases same
    · exact sound.plain j was
  · rcases cases_ j _ is with ⟨_, same⟩ | ⟨_, was⟩
    · cases same
    · exact sound.counted j was
  · rcases cases_ j other is with ⟨_, rfl⟩ | ⟨apart, was⟩
    · rfl
    · cases pends : other.pending with
      | false => rfl
      | true => exact absurd (alone j other was pends) apart

theorem onRight_quiet (right : old.onRight = some stage) : Quiet s old stage := by
  cases old with
  | allowed kind seen =>
    cases kind <;> cases right <;> exact ⟨by simp [Stage.seen?], by simp, rfl, rfl, by simp⟩
  | coding seen =>
    cases right
    exact ⟨by simp [Stage.seen?], by simp, rfl, rfl, by simp⟩
  | _ => cases right

theorem drops_quiet (drops : old.drops = true) : Quiet s old .answered := by
  refine ⟨by simp [Stage.seen?], by simp, ?_, rfl, by simp⟩
  cases old <;> first | rfl | cases drops

theorem Sound.update (sound : Sound s) {now tries : Nat}
    (found : s.attempts[i]? = some (.counting now tries)) :
    tries ≠ 0 ∧ Sound (s.counted i now tries) := by
  obtain ⟨now', guesses, is, alone, made, settled, isOpen⟩ := sound.waiting.of_pending found rfl
  obtain ⟨rfl, rfl⟩ : now' = now ∧ tries = 3 := by
    rcases is with is | ⟨is, _⟩
    · cases is
      exact ⟨rfl, rfl⟩
    · cases is
  refine ⟨by decide, ?_⟩
  unfold State.counted
  cases kept : s.failure with
  | some row =>
    rw [kept] at settled isOpen
    have more := settled_counted settled isOpen
    have now_ : Settled (some (if row.firstFailedAt + lockout ≤ now' then ⟨1, now'⟩
        else ⟨row.count + 1, row.firstFailedAt⟩)) s.guesses := by
      rcases made with with_ | without
      · rw [with_]
        exact more
      · rw [without]
        exact (settled_fewer more).resolve_left (by simp)
    have recorded := sound.recorded alone now_
    dsimp only
    split_ifs at recorded ⊢ with passed
    · exact recorded
    · exact recorded
  | none =>
    have cases_ (j : Nat) (other : Stage)
        (is : (s.at_ i (.inserting now' 3)).attempts[j]? = some other) :
        j = i ∧ other = .inserting now' 3 ∨ j ≠ i ∧ s.attempts[j]? = some other := Table.set_cases is
    have there : (s.at_ i (.inserting now' 3)).attempts[i]? = some (.inserting now' 3) :=
      List.getElem?_set_self (List.getElem?_eq_some_iff.mp found).1
    refine ⟨fun j other seen is sees => ?_, fun j is => ?_, fun j is => ?_,
      .one i now' guesses (.inr ⟨there, kept⟩) (fun j other is pends => ?_) made settled isOpen⟩
    · rcases cases_ j other is with ⟨_, rfl⟩ | ⟨_, was⟩
      · cases sees
      · exact sound.seen j other seen was sees
    · rcases cases_ j _ is with ⟨_, same⟩ | ⟨_, was⟩
      · cases same
      · exact sound.plain j was
    · rcases cases_ j _ is with ⟨_, same⟩ | ⟨_, was⟩
      · cases same
      · exact sound.counted j was
    · rcases cases_ j other is with ⟨same, _⟩ | ⟨_, was⟩
      · exact same
      · exact alone j other was pends

theorem Waiting.same (waiting : Waiting s) (attempts : s'.attempts = s.attempts)
    (failure : s'.failure = s.failure) (guesses : s'.guesses = s.guesses) : Waiting s' := by
  cases waiting with
  | nobody none_ settled =>
    refine .nobody ?_ ?_
    · rwa [attempts]
    · rwa [failure, guesses]
  | one i now made there alone with_ settled isOpen =>
    refine .one i now made ?_ ?_ ?_ ?_ ?_
    · rwa [attempts, failure]
    · rwa [attempts]
    · rwa [guesses]
    · rwa [failure]
    · rwa [failure]

theorem Sound.arrive (sound : Sound s) (kind : Kind) :
    Sound { s with attempts := s.attempts ++ [.arrived kind] } := by
  have cases_ (j : Nat) (other : Stage) (is : (s.attempts ++ [.arrived kind])[j]? = some other) :
      other = .arrived kind ∨ s.attempts[j]? = some other :=
    (Table.append_cases is).imp_left And.right
  have kept {i : Nat} {stage : Stage} (is : s.attempts[i]? = some stage) :
      (s.attempts ++ [.arrived kind])[i]? = some stage := by
    rw [List.getElem?_append_left (List.getElem?_eq_some_iff.mp is).1]
    exact is
  refine ⟨fun j other seen is sees => ?_, fun j is => ?_, fun j is => ?_, ?_⟩
  · rcases cases_ j other is with rfl | was
    · cases sees
    · exact sound.seen j other seen was sees
  · rcases cases_ j _ is with same | was
    · cases same
    · exact sound.plain j was
  · rcases cases_ j _ is with same | was
    · cases same
    · exact sound.counted j was
  · cases sound.waiting with
    | nobody none_ settled =>
      refine .nobody (fun j other is => ?_) settled
      rcases cases_ j other is with rfl | was
      · rfl
      · exact none_ j other was
    | one k now guesses there alone made settled isOpen =>
      refine .one k now guesses ?_ (fun j other is pends => ?_) made settled isOpen
      · exact there.imp kept fun both => ⟨kept both.1, both.2⟩
      · rcases cases_ j other is with rfl | was
        · cases pends
        · exact alone j other was pends

theorem Sound.guessed (sound : Sound s) (found : s.attempts[i]? = some old)
    (current : old.seen? = some s.failure)
    (nobody : ∀ (j : Nat) stage, s.attempts[j]? = some stage → stage.pending = false) :
    Sound { s.at_ i (.counting s.clock 3) with guesses := s.guesses ++ [s.clock] } := by
  have cases_ (j : Nat) (other : Stage)
      (is : (s.at_ i (.counting s.clock 3)).attempts[j]? = some other) :
      j = i ∧ other = .counting s.clock 3 ∨ j ≠ i ∧ s.attempts[j]? = some other := Table.set_cases is
  have settled : Settled s.failure s.guesses := by
    cases sound.waiting with
    | nobody none_ settled => exact settled
    | one k now guesses there alone made settled isOpen =>
      rcases there with is | ⟨is, _⟩
      · cases nobody k _ is
      · cases nobody k _ is
  have there : (s.at_ i (.counting s.clock 3)).attempts[i]? = some (.counting s.clock 3) :=
    List.getElem?_set_self (List.getElem?_eq_some_iff.mp found).1
  refine ⟨fun j other seen is sees => ?_, fun j is => ?_, fun j is => ?_,
    .one i s.clock s.guesses (.inl there) (fun j other is pends => ?_) (.inl rfl) settled
      (sound.seen i old s.failure found current)⟩
  · rcases cases_ j other is with ⟨_, rfl⟩ | ⟨_, was⟩
    · cases sees
    · exact sound.seen j other seen was sees
  · rcases cases_ j _ is with ⟨_, same⟩ | ⟨_, was⟩
    · cases same
    · exact sound.plain j was
  · rcases cases_ j _ is with ⟨_, same⟩ | ⟨_, was⟩
    · cases same
    · exact sound.counted j was
  · rcases cases_ j other is with ⟨same, _⟩ | ⟨_, was⟩
    · exact same
    · rw [nobody j other was] at pends
      cases pends

theorem Sound.cleared (sound : Sound s) : Sound { s with failure := none, guesses := [] } := by
  refine ⟨sound.seen, sound.plain, sound.counted, ?_⟩
  cases sound.waiting with
  | nobody none_ settled => exact .nobody none_ rfl
  | one k now guesses there alone made settled isOpen =>
    exact .one k now [] (there.imp_right fun both => ⟨both.1, rfl⟩) alone (.inr rfl) rfl nofun

theorem Sound.act (sound : Sound s) (inTime : s.lapses a = false) (step : State.Step s a s') :
    Sound s' := by
  unfold State.Step State.act at step
  cases a with
  | tick micros =>
    cases step
    exact ⟨fun i stage seen is sees => (sound.seen i stage seen is sees).later (Nat.le_add_right _ _),
      sound.plain, sound.counted, sound.waiting.same rfl rfl rfl⟩
  | arrive kind =>
    cases step
    exact sound.arrive kind
  | check i =>
    dsimp only at step
    split at step
    next kind found =>
      cases step
      refine sound.moved found ⟨fun seen sees => ?_, ?_, rfl, ?_, ?_⟩
      · split_ifs at sees with locked
        · cases sees
        · cases sees
          exact .inr (loginLocked_open.mp (Bool.eq_false_iff.mpr locked))
      · split_ifs <;> simp
      · split_ifs <;> rfl
      · split_ifs <;> simp
    next => cases step
  | evaluate i right =>
    dsimp only at step
    split at step
    next next_ is =>
      obtain ⟨old, found, onRight⟩ := Option.bind_eq_some_iff.mp is
      cases right with
      | true =>
        cases step
        exact sound.moved found (onRight_quiet onRight)
      | false =>
        cases step
        simp only [State.lapses, found, Option.bind_some, Bool.or_eq_false_iff,
          decide_eq_false_iff_not, not_not] at inTime
        refine sound.guessed found inTime.1 fun j stage there => ?_
        have nobody := List.any_eq_false.mp inTime.2 stage (List.mem_of_getElem? there)
        simpa using nobody
    next => cases step
  | readEnrolled i =>
    dsimp only at step
    split at step
    next kind seen found =>
      cases step
      refine sound.moved found ⟨fun seen' sees => ?_, ?_, rfl, ?_, ?_⟩
      · split_ifs at sees
        · cases sees
          exact .inl rfl
        · cases sees
        · cases sees
      · split_ifs with enrolled
        · simp
        · simp
        · exact fun _ => Bool.eq_false_iff.mpr enrolled
      · split_ifs <;> rfl
      · split_ifs <;> simp
    next => cases step
  | update i =>
    dsimp only at step
    split at step
    next now tries found =>
      obtain ⟨some_, kept⟩ := sound.update found
      rw [if_neg some_, Option.some.injEq] at step
      exact step ▸ kept
    next => cases step
  | insert i =>
    dsimp only at step
    split at step
    next now tries found =>
      obtain ⟨now', guesses, is, alone, made, settled, isOpen⟩ := sound.waiting.of_pending found rfl
      obtain ⟨same, none_⟩ : now' = now ∧ s.failure = none := by
        rcases is with is | ⟨is, none_⟩
        · cases is
        · cases is
          exact ⟨rfl, none_⟩
      subst same
      rw [none_] at step settled
      cases step
      refine sound.recorded alone ?_
      have empty : guesses = [] := settled
      rcases made with with_ | without
      · rw [with_]
        exact settled_inserted settled
      · rw [without, empty]
        exact ⟨one_le, nofun, Nat.zero_le _⟩
    next => cases step
  | confirm i =>
    dsimp only at step
    split at step
    next found =>
      cases step
      have quiet : Quiet s .confirming (.completing false) :=
        ⟨by simp [Stage.seen?], by simp, rfl, rfl, by simp⟩
      have moved := sound.moved found quiet
      refine ⟨moved.seen, fun j is => ?_, moved.counted, moved.waiting.same rfl rfl rfl⟩
      rcases Table.set_cases is with ⟨_, same⟩ | ⟨_, was⟩
      · cases same
      · have never := List.any_eq_false.mp inTime _ (List.mem_of_getElem? was)
        simp at never
    next => cases step
  | complete i =>
    dsimp only at step
    split at step
    next byPassword found =>
      cases step
      exact (sound.moved found (drops_quiet rfl)).cleared
    next => cases step
  | drop i =>
    dsimp only at step
    split at step
    next stage found =>
      split_ifs at step with drops
      cases step
      exact sound.moved found (drops_quiet drops)
    next => cases step
  | resetTotp =>
    cases step
    exact ⟨sound.seen, fun _ _ => rfl, sound.counted, sound.waiting.same rfl rfl rfl⟩

end Steps

section Runs_

variable {s : State} {trace : List (Runs.Step State Act)}

def State.waiting (s : State) : Nat := (s.attempts.filter Stage.pending).length

structure BudgetKept (trace : List (Runs.Step State Act)) (s : State) : Prop where
  budget : ∀ row, s.failure = some row → (s.guesses.filter row.window).length ≤ maxLoginFailures
  locked : ∀ t ∈ trace, ∀ i right, t.label = .evaluate i right →
    loginLocked t.before.failure t.before.clock = false
  counted : (∀ row, s.failure = some row →
      (s.guesses.filter row.window).length ≤ row.count + s.waiting) ∧
    (s.failure = none → s.guesses.length ≤ s.waiting) ∧ ∀ i : Nat, s.attempts[i]? ≠ some .raised
  password : ∀ t ∈ trace, ∀ i, t.label = .complete i →
    t.before.attempts[i]? = some (.completing true) → t.before.enrolled = false

theorem waits_one {i : Nat} {stage : Stage} (there : s.attempts[i]? = some stage)
    (pends : stage.pending = true) : 1 ≤ s.waiting :=
  List.length_pos_of_mem (List.mem_filter.mpr ⟨List.mem_of_getElem? there, pends⟩)

theorem sound_empty : Sound {} :=
  ⟨by simp, by simp, by simp, .nobody (by simp) rfl⟩

theorem Sound.within (sound : Sound s) {row : LoginFailure} (is : s.failure = some row) :
    (s.guesses.filter row.window).length ≤ maxLoginFailures ∧
      (s.guesses.filter row.window).length ≤ row.count + s.waiting := by
  cases sound.waiting with
  | nobody none_ settled =>
    rw [is] at settled
    obtain ⟨few, _, counted⟩ := settled
    exact ⟨Nat.le_trans counted few, Nat.le_trans counted (Nat.le_add_right _ _)⟩
  | one i now guesses there alone made settled isOpen =>
    rw [is] at settled isOpen
    have bound := window_bounded settled isOpen
    obtain ⟨few, _, counted⟩ := settled
    have waits : 1 ≤ s.waiting :=
      there.elim (fun is => waits_one is rfl) fun both => waits_one both.1 rfl
    rcases made with with_ | without
    · have one : ([now].filter row.window).length ≤ 1 := List.length_filter_le _ _
      rw [with_]
      refine ⟨bound, ?_⟩
      rw [List.filter_append, List.length_append]
      omega
    · rw [without]
      exact ⟨Nat.le_trans counted few, Nat.le_trans counted (Nat.le_add_right _ _)⟩

theorem Sound.uncounted (sound : Sound s) (none_ : s.failure = none) : s.guesses.length ≤ s.waiting := by
  cases sound.waiting with
  | nobody _ settled =>
    rw [none_] at settled
    have empty : s.guesses = [] := settled
    rw [empty]
    exact Nat.zero_le _
  | one i now guesses there alone made settled isOpen =>
    rw [none_] at settled
    have empty : guesses = [] := settled
    have waits : 1 ≤ s.waiting :=
      there.elim (fun is => waits_one is rfl) fun both => waits_one both.1 rfl
    rcases made with with_ | without
    · rw [with_, empty]
      exact waits
    · rw [without, empty]
      exact Nat.zero_le _

/-- The budget of guesses is kept when no password or code is evaluated after the row has changed since
the lock check or while a failure is still to be counted, and no code is set up while a password alone
completes a sign-in. -/
theorem guesses_bounded (run : Run State.Step {} trace s)
    (inTime : ∀ t ∈ trace, t.before.lapses t.label = false) : BudgetKept trace s := by
  have keeps : ∀ s a s', Sound s → s.lapses a = false → State.Step s a s' → Sound s' :=
    fun s a s' sound first step => sound.act first step
  have sound := run.invariant_of_guarded Sound (fun s a => s.lapses a = false) sound_empty keeps inTime
  refine ⟨fun row is => (sound.within is).1, ?_,
    ⟨fun row is => (sound.within is).2, sound.uncounted, sound.counted⟩, ?_⟩
  · refine run.transitions_of_guarded Sound (fun s a => s.lapses a = false) sound_empty keeps _
      (fun s a s' sound first step i right is => ?_) inTime
    dsimp only at is
    subst is
    simp only [State.lapses, Bool.or_eq_false_iff, decide_eq_false_iff_not, not_not] at first
    obtain ⟨old, found, seen⟩ := Option.bind_eq_some_iff.mp first.1
    exact loginLocked_open.mpr (sound.seen i old s.failure found seen)
  · refine run.transitions_of_guarded Sound (fun s a => s.lapses a = false) sound_empty keeps _
      (fun s a s' sound first step i is found => ?_) inTime
    exact sound.plain i found

end Runs_

section Sample

def next : State → Act → State := Runs.nextOf State.act

/-- One attempt that fails, from its arrival to its count into a row that is there. -/
def fails (i : Nat) : List Act := [.arrive .signIn, .check i, .evaluate i false, .update i]

/-- Five wrong passwords one after the other, and a sixth sign-in that is refused. -/
def inTurn : List Act :=
  fails 0 ++ [.insert 0] ++ fails 1 ++ fails 2 ++ fails 3 ++ fails 4 ++ [.arrive .signIn, .check 5]

theorem inTurn_kept : BudgetKept (Runs.stepsOf next {} inTurn) (inTurn.foldl next {}) :=
  guesses_bounded (Runs.run_enabled (by decide +kernel)) (by decide +kernel)

def atOnce : List Act :=
  List.replicate 6 (.arrive .signIn) ++ (List.range 6).map .check ++
    (List.range 6).map (.evaluate · false) ++ [.update 0, .insert 0]

theorem six_guesses : ¬∀ (s : State) (trace : List (Runs.Step State Act)),
    Run State.Step {} trace s → BudgetKept trace s := by
  intro always
  have kept := always _ _ (@Runs.run_enabled _ _ ({} : State) State.act atOnce (by decide +kernel))
  have row : (atOnce.foldl next {}).failure = some ⟨1, 0⟩ := by decide +kernel
  have many : ((atOnce.foldl next {}).guesses.filter (LoginFailure.window ⟨1, 0⟩)).length = 6 := by
    decide +kernel
  have few := kept.budget ⟨1, 0⟩ row
  have limit : maxLoginFailures = 5 := rfl
  change ((atOnce.foldl next {}).guesses.filter _).length ≤ _ at few
  omega

end Sample

end Smo.GuiBff.Lockout
