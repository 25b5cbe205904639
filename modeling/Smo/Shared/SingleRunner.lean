import Smo.Lib.Runs
import Smo.Lib.Table
import Mathlib.Algebra.Order.Group.Abs
import Mathlib.Algebra.Order.Group.Int

/-! A periodic task on one replica at a time (`shared/smo_shared/single_runner.py`): the claim in
the `periodic_run` row and the advisory lock, while any number of calls for one task interleave
and processes die. Times are microseconds since 1970. -/
namespace Smo.SingleRunner

open Runs (Run)
open Table (mem_set_cases set_cases)

/-- `_NEVER`: the task has not run, or its claim was given back. -/
def never : Int := 0

/-- A call's reading of the clock. That its update matched the row, and that it gave the claim
back, is history that the code does not keep. -/
structure Claim where
  claimedAt : Int
  took : Bool
  gaveBack : Bool

def Claim.stands (claim : Claim) : Prop := claim.took ∧ claim.gaveBack = false

instance (claim : Claim) : Decidable claim.stands := inferInstanceAs (Decidable (_ ∧ _))

section Claims

variable {interval : Int} {row : Option Int} {claims : List Claim} {i : Nat} {claim : Claim}

/-- What the row and the claims of all calls have to do with each other: the row is the newest
claim that was taken, if that stands, claims that stand are an interval apart, and once the row
is no longer a standing claim a later one was taken an interval after it. -/
structure Times (interval : Int) (row : Option Int) (claims : List Claim) : Prop where
  positive : ∀ c ∈ claims, c.took → 0 < interval
  newest : ∀ r, row = some r → r = never ∨
    (∃ c ∈ claims, c.stands ∧ c.claimedAt = r) ∧ ∀ c ∈ claims, c.took → c.claimedAt ≤ r
  apart : ∀ (i j : Nat) (a b : Claim), claims[i]? = some a → claims[j]? = some b → i ≠ j → a.stands → b.stands →
    a.claimedAt + interval ≤ b.claimedAt ∨ b.claimedAt + interval ≤ a.claimedAt
  passed : ∀ c ∈ claims, c.stands → row = some c.claimedAt ∨
    ∃ d ∈ claims, d.took ∧ c.claimedAt + interval ≤ d.claimedAt

theorem Times.append (times : Times interval row claims) (reading : Int) :
    Times interval row (claims ++ [⟨reading, false, false⟩]) where
  positive c mem took := by
    rcases List.mem_append.mp mem with old | new
    · exact times.positive c old took
    · rw [List.mem_singleton.mp new] at took
      cases took
  newest r is := by
    rcases times.newest r is with early | ⟨⟨c, mem, stands, rfl⟩, newest⟩
    · exact .inl early
    · refine .inr ⟨⟨c, List.mem_append_left _ mem, stands, rfl⟩, fun d mem took => ?_⟩
      rcases List.mem_append.mp mem with old | new
      · exact newest d old took
      · rw [List.mem_singleton.mp new] at took
        cases took
  apart i j a b first second differ stands stands' := by
    have old : ∀ {k : Nat} {c : Claim}, (claims ++ [⟨reading, false, false⟩])[k]? = some c → c.stands →
        claims[k]? = some c := by
      intro k c at_ stands
      rw [List.getElem?_append] at at_
      split at at_
      · exact at_
      · rw [List.mem_singleton.mp (List.mem_of_getElem? at_)] at stands
        cases stands.1
    exact times.apart i j a b (old first stands) (old second stands') differ stands stands'
  passed c mem stands := by
    rcases List.mem_append.mp mem with old | new
    · refine (times.passed c old stands).imp_right fun ⟨d, mem, later⟩ => ?_
      exact ⟨d, List.mem_append_left _ mem, later⟩
    · rw [List.mem_singleton.mp new] at stands
      cases stands.1

theorem Times.take (times : Times interval row claims) (found : claims[i]? = some claim)
    (kept : claim.gaveBack = false) (positive : 0 < interval)
    (due : ∃ r, row = some r ∧ r ≤ claim.claimedAt - interval)
    (ordered : ∀ c ∈ claims, c.took → c.claimedAt ≤ claim.claimedAt) :
    Times interval (some claim.claimedAt) (claims.set i { claim with took := true }) := by
  have here : i < claims.length := (List.getElem?_eq_some_iff.mp found).1
  have mine : { claim with took := true } ∈ claims.set i { claim with took := true } :=
    List.mem_of_getElem? (by rw [List.getElem?_set_self here])
  -- A standing claim is either the row, which is due, or an interval before a claim taken before.
  have after : ∀ c ∈ claims, c.stands → c.claimedAt + interval ≤ claim.claimedAt := by
    intro c mem stands
    obtain ⟨r, rfl, le⟩ := due
    rcases times.passed c mem stands with same | ⟨d, memd, took, later⟩
    · have := Option.some.inj same
      omega
    · have := ordered d memd took
      omega
  constructor
  · exact fun _ _ _ => positive
  · rintro r ⟨⟩
    refine .inr ⟨⟨_, mine, ⟨rfl, kept⟩, rfl⟩, fun c mem took => ?_⟩
    rcases mem_set_cases mem with rfl | ⟨j, -, at_⟩
    · exact le_refl _
    · exact ordered c (List.mem_of_getElem? at_) took
  · intro j k a b first second differ stands stands'
    rw [List.getElem?_set] at first second
    split at first <;> split at second
    · omega
    · cases first
      exact .inr (after b (List.mem_of_getElem? second) stands')
    · cases second
      exact .inl (after a (List.mem_of_getElem? first) stands)
    · exact times.apart j k a b first second differ stands stands'
  · intro c mem stands
    rcases mem_set_cases mem with rfl | ⟨j, -, at_⟩
    · exact .inl rfl
    · exact .inr ⟨_, mine, rfl, after c (List.mem_of_getElem? at_) stands⟩

theorem Times.back (times : Times interval row claims) (found : claims[i]? = some claim)
    (stands : claim.stands) :
    Times interval (if row = some claim.claimedAt then some never else row)
      (claims.set i { claim with gaveBack := true }) := by
  have here : i < claims.length := (List.getElem?_eq_some_iff.mp found).1
  have kept : ∀ {c}, c ∈ claims → ∃ d ∈ claims.set i { claim with gaveBack := true },
      d.took = c.took ∧ d.claimedAt = c.claimedAt := by
    intro c mem
    obtain ⟨j, at_⟩ := List.mem_iff_getElem?.mp mem
    by_cases same : j = i
    · subst same
      cases found.symm.trans at_
      exact ⟨{ claim with gaveBack := true },
        List.mem_of_getElem? (List.getElem?_set_self here), rfl, rfl⟩
    · have : (claims.set i { claim with gaveBack := true })[j]? = some c := by
        rw [List.getElem?_set_ne (fun is => same is.symm), at_]
      exact ⟨c, List.mem_of_getElem? this, rfl, rfl⟩
  have was : ∀ {c}, c ∈ claims.set i { claim with gaveBack := true } → c.took →
      ∃ d ∈ claims, d.took ∧ d.claimedAt = c.claimedAt := by
    intro c mem took
    rcases mem_set_cases mem with rfl | ⟨j, -, at_⟩
    · exact ⟨claim, List.mem_of_getElem? found, stands.1, rfl⟩
    · exact ⟨c, List.mem_of_getElem? at_, took, rfl⟩
  constructor
  · intro c mem took
    obtain ⟨d, memd, took, -⟩ := was mem took
    exact times.positive d memd took
  · intro r is
    split at is
    · exact .inl (Option.some.inj is).symm
    · next other =>
      rcases times.newest r is with early | ⟨⟨c, mem, cStands, rfl⟩, newest⟩
      · exact .inl early
      · obtain ⟨j, at_⟩ := List.mem_iff_getElem?.mp mem
        have differ : i ≠ j := by
          rintro rfl
          cases found.symm.trans at_
          exact other is
        have still : (claims.set i { claim with gaveBack := true })[j]? = some c := by
          rw [List.getElem?_set_ne differ, at_]
        refine .inr ⟨⟨c, List.mem_of_getElem? still, cStands, rfl⟩, fun e mem took => ?_⟩
        obtain ⟨d, memd, took, same⟩ := was mem took
        exact same ▸ newest d memd took
  · intro j k a b first second differ aStands bStands
    rw [List.getElem?_set] at first second
    split at first
    · cases first
      cases aStands.2
    · split at second
      · cases second
        cases bStands.2
      · exact times.apart j k a b first second differ aStands bStands
  · intro c mem cStands
    rcases mem_set_cases mem with rfl | ⟨j, differ, at_⟩
    · cases cStands.2
    · rcases times.passed c (List.mem_of_getElem? at_) cStands with same | ⟨d, memd, took, later⟩
      · have distinct := times.apart j i c claim at_ found differ cStands stands
        have positive := times.positive c (List.mem_of_getElem? at_) cStands.1
        rw [if_neg (by rw [same]; intro equal; have := Option.some.inj equal; omega)]
        exact .inl same
      · obtain ⟨e, meme, sameTook, sameAt⟩ := kept memd
        exact .inr ⟨e, meme, sameTook ▸ took, sameAt ▸ later⟩

end Claims

/-- Where a call of `run_once_per_interval` stands. -/
inductive Point
  | reading
  | inserted
  | claimed
  | held
  | refused
  | released
  | ended
  | dead
  deriving DecidableEq

/-- What became of the task's function in a call; one that its process did not survive failed. -/
inductive Fn
  | notCalled
  | running
  | returned
  | failed
  deriving DecidableEq

structure Call where
  claim : Claim
  point : Point := .reading
  fn : Fn := .notCalled

/-- What the replicas share: `last_run_at` of the row, if there is one, and the call whose
session holds the advisory lock. -/
structure Shared where
  lastRunAt : Option Int := none
  lock : Option Nat := none

structure State where
  shared : Shared := {}
  calls : List Call := []
  lastStarted : Option Nat := none

/-- `call` reads the clock of some replica. -/
inductive Act
  | call (reading : Int)
  | insert (i : Nat)
  | update (i : Nat)
  | tryLock (i : Nat)
  | lockFails (i : Nat)
  | returns (i : Nat)
  | raises (i : Nat)
  | unlock (i : Nat)
  | giveBack (i : Nat)
  | dies (i : Nat)

def Act.number : Act → Option Nat
  | .call _ => none
  | .insert i | .update i | .tryLock i | .lockFails i | .returns i | .raises i | .unlock i
  | .giveBack i | .dies i => some i

def Shared.due (shared : Shared) (interval reading : Int) : Bool :=
  shared.lastRunAt.any (· ≤ reading - interval)

/-- `_give_back`: only a claim that still stands is reset. -/
def Shared.giveBack (shared : Shared) (claimedAt : Int) : Shared :=
  if shared.lastRunAt = some claimedAt then { shared with lastRunAt := some never } else shared

def Shared.free (shared : Shared) (i : Nat) : Shared :=
  if shared.lock = some i then { shared with lock := none } else shared

def move (interval : Int) (shared : Shared) (call : Call) : Act → Option (Shared × Call)
  | .insert _ =>
    if call.point = .reading then
      some ({ shared with lastRunAt := some (shared.lastRunAt.getD never) },
        { call with point := .inserted })
    else none
  | .update _ =>
    if call.point = .inserted then
      if shared.due interval call.claim.claimedAt then
        some ({ shared with lastRunAt := some call.claim.claimedAt },
          { call with point := .claimed, claim.took := true })
      else some (shared, { call with point := .ended })
    else none
  | .tryLock i =>
    if call.point = .claimed then
      if shared.lock = none then
        some ({ shared with lock := some i }, { call with point := .held, fn := .running })
      else some (shared, { call with point := .refused })
    else none
  | .lockFails _ =>
    if call.point = .claimed then some (shared, { call with point := .released }) else none
  | .returns _ =>
    if call.point = .held ∧ call.fn = .running then some (shared, { call with fn := .returned })
    else none
  | .raises _ =>
    if call.point = .held ∧ call.fn = .running then some (shared, { call with fn := .failed })
    else none
  | .unlock i =>
    if call.point = .held ∧ call.fn = .returned then
      some (shared.free i, { call with point := .ended })
    else if call.point = .held ∧ call.fn = .failed then
      some (shared.free i, { call with point := .released })
    else none
  | .giveBack _ =>
    if call.point = .refused ∨ call.point = .released then
      some (shared.giveBack call.claim.claimedAt, { call with point := .ended, claim.gaveBack := true })
    else none
  | .dies i =>
    if call.point = .ended ∨ call.point = .dead then none
    else
      some (shared.free i,
        { call with point := .dead, fn := if call.fn = .running then .failed else call.fn })
  | .call _ => none

/-- The last call that started the function, after an act of call `i`. -/
def started (s : State) (i : Nat) : Act → Call → Option Nat
  | .tryLock _, call => if call.fn = .running then some i else s.lastStarted
  | _, _ => s.lastStarted

def act (interval : Int) (s : State) (label : Act) : Option State :=
  match label with
  | .call reading => some { s with calls := s.calls ++ [{ claim := ⟨reading, false, false⟩ }] }
  | _ => do
    let i ← label.number
    let call ← s.calls[i]?
    let (shared, next) ← move interval s.shared call label
    some { shared, calls := s.calls.set i next, lastStarted := started s i label next }

def Step (interval : Int) (s : State) (label : Act) (s' : State) : Prop :=
  act interval s label = some s'

def Point.inside : Point → Bool
  | .claimed | .held | .refused | .released => true
  | .reading | .inserted | .ended | .dead => false

section Calls

variable {interval : Int} {shared shared' : Shared} {call next : Call} {label : Act} {i : Nat}

structure Call.Ok (call : Call) : Prop where
  running : call.fn = .running → call.point = .held
  held : call.point = .held → call.fn ≠ .notCalled
  before : call.point = .claimed ∨ call.point = .refused → call.fn = .notCalled
  released : call.point = .released → call.fn ≠ .returned
  early : call.point = .reading ∨ call.point = .inserted →
    call.fn = .notCalled ∧ call.claim.gaveBack = false
  inside : call.point.inside → call.claim.stands
  called : call.fn ≠ .notCalled → call.claim.took
  returned : call.fn = .returned → call.claim.stands
  stands : call.claim.stands → call.point.inside ∨ call.fn = .returned ∨ call.point = .dead

theorem move_ok (ok : call.Ok) (moved : move interval shared call label = some (shared', next)) :
    next.Ok := by
  obtain ⟨running, held, before, released, early, inside, called, returned, stands⟩ := ok
  cases label with
  | call => cases moved
  | insert _ =>
    simp only [move, Option.ite_none_right_eq_some] at moved
    obtain ⟨is, ⟨⟩⟩ := moved
    constructor <;> simp_all [Point.inside]
  | update _ =>
    simp only [move, Option.ite_none_right_eq_some] at moved
    obtain ⟨is, moved⟩ := moved
    split at moved <;> cases moved
    all_goals constructor <;> simp_all [Point.inside, Claim.stands]
  | tryLock _ =>
    simp only [move, Option.ite_none_right_eq_some] at moved
    obtain ⟨is, moved⟩ := moved
    split at moved <;> cases moved
    all_goals constructor <;> simp_all [Point.inside, Claim.stands]
  | lockFails _ | returns _ | raises _ =>
    simp only [move, Option.ite_none_right_eq_some] at moved
    obtain ⟨is, ⟨⟩⟩ := moved
    constructor <;> simp_all [Point.inside, Claim.stands]
  | unlock _ =>
    simp only [move] at moved
    split at moved
    · cases moved
      constructor <;> simp_all [Point.inside, Claim.stands]
    · split at moved <;> cases moved
      constructor <;> simp_all [Point.inside, Claim.stands]
  | giveBack _ =>
    simp only [move, Option.ite_none_right_eq_some] at moved
    obtain ⟨is, ⟨⟩⟩ := moved
    rcases is with is | is
    all_goals constructor <;> simp_all [Point.inside, Claim.stands]
  | dies _ =>
    simp only [move, Option.ite_none_left_eq_some] at moved
    obtain ⟨is, ⟨⟩⟩ := moved
    by_cases was : call.fn = .running
    all_goals constructor <;> simp_all [Point.inside, Claim.stands]

theorem move_claim (of : label.number = some i)
    (moved : move interval shared call label = some (shared', next)) :
    (next.claim = call.claim ∧ (shared'.lastRunAt = shared.lastRunAt ∨
      (shared.lastRunAt = none ∧ shared'.lastRunAt = some never))) ∨
    (label = .update i ∧ call.point = .inserted ∧ shared.due interval call.claim.claimedAt ∧
      shared'.lastRunAt = some call.claim.claimedAt ∧
      next.claim = { call.claim with took := true }) ∨
    ((call.point = .refused ∨ call.point = .released) ∧
      shared'.lastRunAt = (if shared.lastRunAt = some call.claim.claimedAt then some never
        else shared.lastRunAt) ∧ next.claim = { call.claim with gaveBack := true }) := by
  have free : ∀ j, (shared.free j).lastRunAt = shared.lastRunAt := by
    intro j
    unfold Shared.free
    split <;> rfl
  cases label with
  | call => cases moved
  | insert _ =>
    simp only [move, Option.ite_none_right_eq_some] at moved
    obtain ⟨is, ⟨⟩⟩ := moved
    refine .inl ⟨rfl, ?_⟩
    cases shared.lastRunAt with
    | none => exact .inr ⟨rfl, rfl⟩
    | some r => exact .inl rfl
  | update _ =>
    simp only [move, Option.ite_none_right_eq_some] at moved
    obtain ⟨is, moved⟩ := moved
    cases of
    split at moved <;> cases moved
    · next due => exact .inr (.inl ⟨rfl, is, due, rfl, rfl⟩)
    · exact .inl ⟨rfl, .inl rfl⟩
  | tryLock _ =>
    simp only [move, Option.ite_none_right_eq_some] at moved
    obtain ⟨is, moved⟩ := moved
    split at moved <;> cases moved
    all_goals exact .inl ⟨rfl, .inl rfl⟩
  | lockFails _ | returns _ | raises _ =>
    simp only [move, Option.ite_none_right_eq_some] at moved
    obtain ⟨is, ⟨⟩⟩ := moved
    exact .inl ⟨rfl, .inl rfl⟩
  | unlock j =>
    simp only [move] at moved
    split at moved
    · cases moved
      exact .inl ⟨rfl, .inl (free j)⟩
    · split at moved <;> cases moved
      exact .inl ⟨rfl, .inl (free j)⟩
  | giveBack _ =>
    simp only [move, Option.ite_none_right_eq_some] at moved
    obtain ⟨is, ⟨⟩⟩ := moved
    refine .inr (.inr ⟨is, ?_, rfl⟩)
    unfold Shared.giveBack
    split <;> rfl
  | dies j =>
    simp only [move, Option.ite_none_left_eq_some] at moved
    obtain ⟨is, ⟨⟩⟩ := moved
    exact .inl ⟨rfl, .inl (free j)⟩

theorem move_row (moved : move interval shared call label = some (shared', next)) :
    (shared.lastRunAt ≠ none ∨ next.point = .inserted) → shared'.lastRunAt ≠ none := by
  have free : ∀ j, (shared.free j).lastRunAt = shared.lastRunAt := by
    intro j
    unfold Shared.free
    split <;> rfl
  cases label with
  | call => cases moved
  | insert _ =>
    simp only [move, Option.ite_none_right_eq_some] at moved
    obtain ⟨is, ⟨⟩⟩ := moved
    exact fun _ => Option.some_ne_none _
  | update _ =>
    simp only [move, Option.ite_none_right_eq_some] at moved
    obtain ⟨is, moved⟩ := moved
    split at moved <;> cases moved <;> simp
  | tryLock _ =>
    simp only [move, Option.ite_none_right_eq_some] at moved
    obtain ⟨is, moved⟩ := moved
    split at moved <;> cases moved <;> simp
  | lockFails _ | returns _ | raises _ =>
    simp only [move, Option.ite_none_right_eq_some] at moved
    obtain ⟨is, ⟨⟩⟩ := moved
    simp [is]
  | unlock j =>
    simp only [move] at moved
    split at moved
    · cases moved
      simp [free]
    · split at moved <;> cases moved
      simp [free]
  | giveBack _ =>
    simp only [move, Option.ite_none_right_eq_some] at moved
    obtain ⟨is, ⟨⟩⟩ := moved
    unfold Shared.giveBack
    split <;> simp
  | dies j =>
    simp only [move, Option.ite_none_left_eq_some] at moved
    obtain ⟨is, ⟨⟩⟩ := moved
    simp [free]

theorem move_lock (of : label.number = some i) (owner : shared.lock = some i ↔ call.point = .held)
    (moved : move interval shared call label = some (shared', next)) :
    (shared'.lock = some i ↔ next.point = .held) ∧
      ∀ j, j ≠ i → (shared'.lock = some j ↔ shared.lock = some j) := by
  have freed : ((shared.free i).lock = some i ↔ False) ∧
      ∀ j, j ≠ i → ((shared.free i).lock = some j ↔ shared.lock = some j) := by
    unfold Shared.free
    split
    · next mine => simp [mine, eq_comm]
    · next other => simp [other]
  cases label <;> cases of
  case insert =>
    simp only [move, Option.ite_none_right_eq_some] at moved
    obtain ⟨is, ⟨⟩⟩ := moved
    simp [owner, is]
  case update =>
    simp only [move, Option.ite_none_right_eq_some] at moved
    obtain ⟨is, moved⟩ := moved
    split at moved <;> cases moved <;> simp [owner, is]
  case tryLock =>
    simp only [move, Option.ite_none_right_eq_some] at moved
    obtain ⟨is, moved⟩ := moved
    split at moved <;> cases moved
    · next open_ => simp [open_, eq_comm]
    · simp [owner, is]
  case lockFails =>
    simp only [move, Option.ite_none_right_eq_some] at moved
    obtain ⟨is, ⟨⟩⟩ := moved
    simp [owner, is]
  case returns | raises =>
    simp only [move, Option.ite_none_right_eq_some] at moved
    obtain ⟨is, ⟨⟩⟩ := moved
    simp [owner, is]
  case unlock =>
    simp only [move] at moved
    split at moved
    · cases moved
      simpa using freed
    · split at moved <;> cases moved
      simpa using freed
  case giveBack =>
    simp only [move, Option.ite_none_right_eq_some] at moved
    obtain ⟨is, ⟨⟩⟩ := moved
    have same : (shared.giveBack call.claim.claimedAt).lock = shared.lock := by
      unfold Shared.giveBack
      split <;> rfl
    rcases is with is | is <;> simp [same, owner, is]
  case dies =>
    simp only [move, Option.ite_none_left_eq_some] at moved
    obtain ⟨is, ⟨⟩⟩ := moved
    simpa using freed

theorem move_fn (ok : call.Ok) (of : label.number = some i)
    (moved : move interval shared call label = some (shared', next)) :
    (label = .tryLock i ∧ call.point = .claimed ∧ shared.lock = none ∧ next.fn = .running) ∨
    (∀ s, started s i label next = s.lastStarted) ∧
      (next.fn = call.fn ∨ call.fn = .running ∧ (next.fn = .returned ∨ next.fn = .failed)) := by
  cases label <;> cases of
  case insert =>
    simp only [move, Option.ite_none_right_eq_some] at moved
    obtain ⟨is, ⟨⟩⟩ := moved
    exact .inr ⟨fun _ => rfl, .inl rfl⟩
  case update =>
    simp only [move, Option.ite_none_right_eq_some] at moved
    obtain ⟨is, moved⟩ := moved
    split at moved <;> cases moved <;> exact .inr ⟨fun _ => rfl, .inl rfl⟩
  case tryLock =>
    simp only [move, Option.ite_none_right_eq_some] at moved
    obtain ⟨is, moved⟩ := moved
    split at moved <;> cases moved
    · next open_ => exact .inl ⟨rfl, is, open_, rfl⟩
    · have notCalled := ok.before (.inl is)
      exact .inr ⟨fun s => by simp [started, notCalled], .inl rfl⟩
  case lockFails =>
    simp only [move, Option.ite_none_right_eq_some] at moved
    obtain ⟨is, ⟨⟩⟩ := moved
    exact .inr ⟨fun _ => rfl, .inl rfl⟩
  case returns =>
    simp only [move, Option.ite_none_right_eq_some] at moved
    obtain ⟨is, ⟨⟩⟩ := moved
    exact .inr ⟨fun _ => rfl, .inr ⟨is.2, .inl rfl⟩⟩
  case raises =>
    simp only [move, Option.ite_none_right_eq_some] at moved
    obtain ⟨is, ⟨⟩⟩ := moved
    exact .inr ⟨fun _ => rfl, .inr ⟨is.2, .inr rfl⟩⟩
  case unlock =>
    simp only [move] at moved
    split at moved
    · cases moved
      exact .inr ⟨fun _ => rfl, .inl rfl⟩
    · split at moved <;> cases moved
      exact .inr ⟨fun _ => rfl, .inl rfl⟩
  case giveBack =>
    simp only [move, Option.ite_none_right_eq_some] at moved
    obtain ⟨is, ⟨⟩⟩ := moved
    exact .inr ⟨fun _ => rfl, .inl rfl⟩
  case dies =>
    simp only [move, Option.ite_none_left_eq_some] at moved
    obtain ⟨is, ⟨⟩⟩ := moved
    refine .inr ⟨fun _ => rfl, ?_⟩
    by_cases was : call.fn = .running
    · simp [was]
    · simp [was]

end Calls

section Claim

def Quiet (s : State) : Prop := ∀ call ∈ s.calls, call.point.inside = false

def Idle (s : State) : Prop := ∀ call ∈ s.calls, call.fn ≠ .running

def Unfinished (s : State) : Prop :=
  ∃ i ∈ s.lastStarted, ∃ call ∈ s.calls[i]?, call.fn ≠ .returned

/-- No two runs overlap, completed ones have claims an interval apart, and while no run is in
progress and the last one did not complete the next call takes the claim; a call that asks for
the lock while no other is between its claim and its end runs the function. -/
structure Periodic (interval : Int) (trace : List (Runs.Step State Act)) (s : State) : Prop where
  alone : ∀ (i j : Nat) (a b : Call), s.calls[i]? = some a → s.calls[j]? = some b →
    a.fn = .running → b.fn = .running → i = j
  apart : ∀ (i j : Nat) (a b : Call), s.calls[i]? = some a → s.calls[j]? = some b → i ≠ j →
    a.fn = .returned → b.fn = .returned → interval ≤ |a.claim.claimedAt - b.claim.claimedAt|
  claims : ∀ t ∈ trace, ∀ i, t.label = .update i → Idle t.before → Unfinished t.before →
    ∃ call, t.after.calls[i]? = some call ∧ call.point = .claimed
  runs : ∀ t ∈ trace, ∀ i, t.label = .tryLock i →
    (∀ (j : Nat) call, t.before.calls[j]? = some call → j ≠ i → call.point.inside = false) →
    ∃ call, t.after.calls[i]? = some call ∧ call.fn = .running

/-- When a claim is made: the interval is positive and fits into the time since 1970; if the claim
is taken, its reading of the clock is no earlier than those of the claims before it; its reading
is an interval after the claim of every process that died in a call without completing the run;
and if no run is in progress and the last one did not complete, no call is between its claim and
its end. When a call gets the lock, no run with a later claim has completed. -/
def Timely (interval : Int) (s : State) : Act → Prop
  | .update i => ∀ call ∈ s.calls[i]?, 0 < interval ∧ interval ≤ call.claim.claimedAt ∧
      (s.shared.due interval call.claim.claimedAt →
        ∀ other ∈ s.calls, other.claim.took → other.claim.claimedAt ≤ call.claim.claimedAt) ∧
      (∀ other ∈ s.calls, other.claim.took → other.point = .dead → other.fn ≠ .returned →
        other.claim.claimedAt + interval ≤ call.claim.claimedAt) ∧
      (Idle s → Unfinished s → Quiet s)
  | .tryLock i => ∀ call ∈ s.calls[i]?, s.shared.lock = none →
      ∀ other ∈ s.calls, other.fn = .returned → other.claim.claimedAt ≤ call.claim.claimedAt
  | _ => True

instance (s : State) : Decidable (Quiet s) :=
  inferInstanceAs (Decidable (∀ call ∈ s.calls, call.point.inside = false))

instance (s : State) : Decidable (Idle s) :=
  inferInstanceAs (Decidable (∀ call ∈ s.calls, call.fn ≠ .running))

instance (s : State) : Decidable (Unfinished s) :=
  inferInstanceAs (Decidable (∃ i ∈ s.lastStarted, ∃ call ∈ s.calls[i]?, call.fn ≠ .returned))

instance (interval : Int) (s : State) : (label : Act) → Decidable (Timely interval s label)
  | .update i => inferInstanceAs (Decidable (∀ call ∈ s.calls[i]?, _ ∧ _))
  | .tryLock i => inferInstanceAs (Decidable (∀ call ∈ s.calls[i]?, _ → _))
  | .call _ | .insert _ | .lockFails _ | .returns _ | .raises _ | .unlock _ | .giveBack _
  | .dies _ => isTrue trivial

end Claim

section Invariant

variable {interval : Int} {s s' : State} {label : Act} {i : Nat}

theorem act_number (taken : Step interval s label s') (of : label.number = some i) :
    ∃ call shared next, s.calls[i]? = some call ∧
      move interval s.shared call label = some (shared, next) ∧
      s' = { shared, calls := s.calls.set i next, lastStarted := started s i label next } := by
  unfold Step act at taken
  cases label <;> cases of
  all_goals
    simp only [Act.number, Option.bind_eq_bind, Option.bind_some, Option.bind_eq_some_iff] at taken
    obtain ⟨call, found, ⟨shared, next⟩, moved, after⟩ := taken
    exact ⟨call, shared, next, found, moved, (Option.some.inj after).symm⟩

/-- The last call that started the function: its claim is an interval after that of every other
completed run, and it is the one that runs. -/
structure Last (interval : Int) (s : State) : Prop where
  started : ∀ i, s.lastStarted = some i → ∃ call, s.calls[i]? = some call ∧
    call.fn ≠ .notCalled ∧ ∀ (j : Nat) other, j ≠ i → s.calls[j]? = some other →
      other.fn = .returned → other.claim.claimedAt + interval ≤ call.claim.claimedAt
  running : ∀ (i : Nat) call, s.calls[i]? = some call → call.fn = .running →
    s.lastStarted = some i

structure Sound (interval : Int) (s : State) : Prop where
  calls : ∀ call ∈ s.calls, call.Ok
  created : ∀ call ∈ s.calls, call.point = .inserted → s.shared.lastRunAt ≠ none
  lock : ∀ i, s.shared.lock = some i ↔ ∃ call, s.calls[i]? = some call ∧ call.point = .held
  times : Times interval s.shared.lastRunAt (s.calls.map Call.claim)
  last : Last interval s

theorem Sound.start (interval : Int) : Sound interval {} where
  calls := nofun
  created := nofun
  lock i := by simp
  times := ⟨nofun, nofun, fun i j a b first => by simp at first, nofun⟩
  last := ⟨nofun, fun i call at_ => by simp at at_⟩

theorem Times.same {claims : List Claim} {claim : Claim} {row row' : Option Int}
    (times : Times interval row claims) (found : claims[i]? = some claim)
    (kept : row' = row ∨ (row = none ∧ row' = some never)) :
    Times interval row' (claims.set i claim) := by
  have unchanged : claims.set i claim = claims := by
    obtain ⟨here, is⟩ := List.getElem?_eq_some_iff.mp found
    rw [← is, List.set_getElem_self]
  rw [unchanged]
  rcases kept with rfl | ⟨rfl, rfl⟩
  · exact times
  · refine ⟨times.positive, fun r is => .inl (Option.some.inj is).symm, times.apart, ?_⟩
    intro c mem stands
    rcases times.passed c mem stands with none | later
    · cases none
    · exact .inr later

theorem Sound.move_times {call next : Call} {shared : Shared} (sound : Sound interval s)
    (timely : Timely interval s label) (of : label.number = some i) (found : s.calls[i]? = some call)
    (moved : move interval s.shared call label = some (shared, next)) :
    Times interval shared.lastRunAt ((s.calls.set i next).map Call.claim) := by
  have ok := sound.calls call (List.mem_of_getElem? found)
  have claimed : (s.calls.map Call.claim)[i]? = some call.claim := by
    rw [List.getElem?_map, found]
    rfl
  rw [List.map_set]
  rcases move_claim of moved with ⟨same, kept⟩ | ⟨rfl, is, due, row, took⟩ | ⟨is, row, gave⟩
  · rw [same]
    exact sound.times.same claimed kept
  · obtain ⟨positive, -, ordered, -⟩ := timely call found
    rw [row, took]
    refine sound.times.take claimed (ok.early (.inr is)).2 positive ?_ ?_
    · obtain ⟨r, is, le⟩ := (Option.any_eq_true _ _).mp due
      exact ⟨r, is, of_decide_eq_true le⟩
    · intro c mem took
      obtain ⟨other, among, rfl⟩ := List.mem_map.mp mem
      exact ordered due other among took
  · rw [row, gave]
    refine sound.times.back claimed (ok.inside ?_)
    rcases is with is | is <;> rw [is] <;> rfl

theorem Sound.move_last {call next : Call} {shared : Shared} (sound : Sound interval s)
    (timely : Timely interval s label) (of : label.number = some i) (found : s.calls[i]? = some call)
    (moved : move interval s.shared call label = some (shared, next)) :
    Last interval
      { shared, calls := s.calls.set i next, lastStarted := started s i label next } := by
  have here : i < s.calls.length := (List.getElem?_eq_some_iff.mp found).1
  have mine : (s.calls.set i next)[i]? = some next := List.getElem?_set_self here
  have others : ∀ j, j ≠ i → (s.calls.set i next)[j]? = s.calls[j]? :=
    fun j differs => List.getElem?_set_ne differs.symm
  have ok := sound.calls call (List.mem_of_getElem? found)
  have reading : next.claim.claimedAt = call.claim.claimedAt := by
    rcases move_claim of moved with ⟨same, -⟩ | ⟨-, -, -, -, same⟩ | ⟨-, -, same⟩ <;> rw [same]
  rcases move_fn ok of moved with ⟨rfl, is, open_, runs⟩ | ⟨same, fn⟩
  · -- The call starts the function: completed runs have no later claims, so earlier ones.
    have stands := ok.inside (by rw [is]; rfl)
    constructor
    · intro k started_
      simp only [started, runs, if_true, Option.some.injEq] at started_
      subst started_
      refine ⟨next, mine, by rw [runs]; exact nofun, fun j other differs at_ done => ?_⟩
      rw [others j differs] at at_
      have le := timely call found open_ other (List.mem_of_getElem? at_) done
      have otherOk := sound.calls other (List.mem_of_getElem? at_)
      have apart := sound.times.apart i j call.claim other.claim (by rw [List.getElem?_map, found]; rfl)
        (by rw [List.getElem?_map, at_]; rfl) differs.symm stands (otherOk.returned done)
      omega
    · intro j other at_ running
      by_cases differs : j = i
      · subst differs
        simp [started, runs]
      · rw [others j differs] at at_
        have held := (sound.calls other (List.mem_of_getElem? at_)).running running
        have owner := (sound.lock j).mpr ⟨other, at_, held⟩
        rw [open_] at owner
        cases owner
  · rw [same s]
    constructor
    · intro k started_
      obtain ⟨starter, at_, called, first⟩ := sound.last.started k started_
      have newer : ∀ (j : Nat) other, j ≠ k → (s.calls.set i next)[j]? = some other →
          other.fn = .returned → other.claim.claimedAt + interval ≤ starter.claim.claimedAt := by
        intro j other differs otherAt done
        by_cases its : j = i
        · subst its
          cases mine.symm.trans otherAt
          rcases fn with kept | ⟨running, -⟩
          · rw [reading]
            exact first j call differs found (kept ▸ done)
          · have := sound.last.running j call found running
            exact absurd (Option.some.inj (this.symm.trans started_)) differs
        · rw [others j its] at otherAt
          exact first j other differs otherAt done
      by_cases its : k = i
      · subst its
        cases found.symm.trans at_
        refine ⟨next, mine, ?_, reading ▸ newer⟩
        rcases fn with kept | ⟨-, ended | ended⟩
        · rw [kept]
          exact called
        · rw [ended]
          exact nofun
        · rw [ended]
          exact nofun
      · exact ⟨starter, (others k its).trans at_, called, newer⟩
    · intro j other at_ running
      by_cases its : j = i
      · subst its
        cases mine.symm.trans at_
        rcases fn with kept | ⟨-, ended | ended⟩
        · exact sound.last.running j call found (kept ▸ running)
        · cases running.symm.trans ended
        · cases running.symm.trans ended
      · rw [others j its] at at_
        exact sound.last.running j other at_ running

theorem Sound.move_held {call next : Call} {shared : Shared} (sound : Sound interval s)
    (of : label.number = some i) (found : s.calls[i]? = some call)
    (moved : move interval s.shared call label = some (shared, next)) (j : Nat) :
    shared.lock = some j ↔ ∃ other, (s.calls.set i next)[j]? = some other ∧ other.point = .held := by
  have here : i < s.calls.length := (List.getElem?_eq_some_iff.mp found).1
  have owner : s.shared.lock = some i ↔ call.point = .held := by
    rw [sound.lock i, found]
    simp
  obtain ⟨own, other⟩ := move_lock of owner moved
  by_cases its : j = i
  · subst its
    rw [own, List.getElem?_set_self here]
    simp
  · rw [other j its, sound.lock j, List.getElem?_set_ne (fun same => its same.symm)]

theorem Sound.arrive (sound : Sound interval s) (reading : Int) :
    Sound interval { s with calls := s.calls ++ [{ claim := ⟨reading, false, false⟩ }] } := by
  have old : ∀ {k : Nat} {call}, (s.calls ++ [{ claim := ⟨reading, false, false⟩ }])[k]? = some call →
      s.calls[k]? = some call ∨ call = { claim := ⟨reading, false, false⟩ } := by
    intro k call at_
    rw [List.getElem?_append] at at_
    split at at_
    · exact .inl at_
    · exact .inr (List.mem_singleton.mp (List.mem_of_getElem? at_))
  have kept : ∀ {k : Nat} {call}, s.calls[k]? = some call →
      (s.calls ++ [{ claim := ⟨reading, false, false⟩ }])[k]? = some call := by
    intro k call at_
    rw [List.getElem?_append_left (List.getElem?_eq_some_iff.mp at_).1, at_]
  constructor
  · intro call mem
    rcases List.mem_append.mp mem with was | new
    · exact sound.calls call was
    · rw [List.mem_singleton.mp new]
      constructor <;> simp [Point.inside, Claim.stands]
  · intro call mem is
    rcases List.mem_append.mp mem with was | new
    · exact sound.created call was is
    · rw [List.mem_singleton.mp new] at is
      cases is
  · intro i
    rw [sound.lock i]
    constructor
    · rintro ⟨call, at_, held⟩
      exact ⟨call, kept at_, held⟩
    · rintro ⟨call, at_, held⟩
      rcases old at_ with was | rfl
      · exact ⟨call, was, held⟩
      · cases held
  · rw [List.map_append]
    exact sound.times.append reading
  · constructor
    · intro i started_
      obtain ⟨call, at_, called, first⟩ := sound.last.started i started_
      refine ⟨call, kept at_, called, fun j other differs otherAt done => ?_⟩
      rcases old otherAt with was | rfl
      · exact first j other differs was done
      · cases done
    · intro i call at_ running
      rcases old at_ with was | rfl
      · exact sound.last.running i call was running
      · cases running

theorem Sound.step (sound : Sound interval s) (timely : Timely interval s label)
    (taken : Step interval s label s') : Sound interval s' := by
  rcases Option.eq_none_or_eq_some label.number with none | ⟨i, of⟩
  · cases label <;> cases none
    cases taken
    exact sound.arrive _
  · obtain ⟨call, shared, next, found, moved, rfl⟩ := act_number taken of
    have stays := move_row moved
    refine ⟨fun other mem => ?_, fun other mem is => ?_, sound.move_held of found moved,
      sound.move_times timely of found moved, sound.move_last timely of found moved⟩
    · rcases mem_set_cases mem with rfl | ⟨j, -, at_⟩
      · exact move_ok (sound.calls call (List.mem_of_getElem? found)) moved
      · exact sound.calls other (List.mem_of_getElem? at_)
    · rcases mem_set_cases mem with rfl | ⟨j, -, at_⟩
      · exact stays (.inr is)
      · exact stays (.inl (sound.created other (List.mem_of_getElem? at_) is))

theorem Sound.due {call : Call} (sound : Sound interval s) (timely : Timely interval s (.update i))
    (found : s.calls[i]? = some call) (is : call.point = .inserted) (idle : Idle s)
    (unfinished : Unfinished s) : s.shared.due interval call.claim.claimedAt = true := by
  obtain ⟨positive, fits, -, died, quiet⟩ := timely call found
  obtain ⟨r, row⟩ := Option.ne_none_iff_exists'.mp
    (sound.created call (List.mem_of_getElem? found) is)
  have old : r ≤ call.claim.claimedAt - interval := by
    rcases sound.times.newest r row with rfl | ⟨⟨c, mem, stands, rfl⟩, newest⟩
    · simp only [never]
      omega
    · obtain ⟨owner, among, rfl⟩ := List.mem_map.mp mem
      have ended := quiet idle unfinished owner among
      by_cases done : owner.fn = .returned
      · -- A completed run whose claim is the row would be later than the last run.
        obtain ⟨k, last, starter, at_, failed⟩ := unfinished
        obtain ⟨starter', at', called, first⟩ := sound.last.started k last
        cases at_.symm.trans at'
        obtain ⟨j, ownerAt⟩ := List.mem_iff_getElem?.mp among
        have differs : j ≠ k := by
          rintro rfl
          cases ownerAt.symm.trans at_
          exact failed done
        have earlier := first j owner differs ownerAt done
        have took := (sound.calls starter (List.mem_of_getElem? at_)).called called
        have le := newest starter.claim (List.mem_map_of_mem (List.mem_of_getElem? at_)) took
        omega
      · rcases (sound.calls owner among).stands stands with inside | returned | dead
        · rw [ended] at inside
          cases inside
        · exact absurd returned done
        · have := died owner among stands.1 dead done
          omega
  simpa [Shared.due, row] using old

theorem Sound.claims (sound : Sound interval s) (timely : Timely interval s (.update i))
    (taken : Step interval s (.update i) s') (idle : Idle s) (unfinished : Unfinished s) :
    ∃ call, s'.calls[i]? = some call ∧ call.point = .claimed := by
  obtain ⟨call, shared, next, found, moved, rfl⟩ := act_number taken rfl
  have here : i < s.calls.length := (List.getElem?_eq_some_iff.mp found).1
  simp only [move, Option.ite_none_right_eq_some] at moved
  obtain ⟨is, moved⟩ := moved
  rw [if_pos (sound.due timely found is idle unfinished)] at moved
  cases moved
  exact ⟨_, List.getElem?_set_self here, rfl⟩

theorem Sound.runs (sound : Sound interval s) (taken : Step interval s (.tryLock i) s')
    (only : ∀ (j : Nat) call, s.calls[j]? = some call → j ≠ i → call.point.inside = false) :
    ∃ call, s'.calls[i]? = some call ∧ call.fn = .running := by
  obtain ⟨call, shared, next, found, moved, rfl⟩ := act_number taken rfl
  have here : i < s.calls.length := (List.getElem?_eq_some_iff.mp found).1
  simp only [move, Option.ite_none_right_eq_some] at moved
  obtain ⟨is, moved⟩ := moved
  have free : s.shared.lock = none := by
    rcases Option.eq_none_or_eq_some s.shared.lock with none | ⟨j, owner⟩
    · exact none
    · obtain ⟨other, at_, held⟩ := (sound.lock j).mp owner
      have differs : j ≠ i := by
        rintro rfl
        cases found.symm.trans at_
        cases is.symm.trans held
      have outside := only j other at_ differs
      rw [held] at outside
      cases outside
  rw [if_pos free] at moved
  cases moved
  exact ⟨_, List.getElem?_set_self here, rfl⟩

theorem Sound.alone (sound : Sound interval s) {j : Nat} {a b : Call} (first : s.calls[i]? = some a)
    (second : s.calls[j]? = some b) (runs : a.fn = .running) (runs' : b.fn = .running) : i = j := by
  have held := (sound.calls a (List.mem_of_getElem? first)).running runs
  have held' := (sound.calls b (List.mem_of_getElem? second)).running runs'
  have owner := (sound.lock i).mpr ⟨a, first, held⟩
  have owner' := (sound.lock j).mpr ⟨b, second, held'⟩
  exact Option.some.inj (owner.symm.trans owner')

theorem Sound.apart (sound : Sound interval s) {j : Nat} {a b : Call} (first : s.calls[i]? = some a)
    (second : s.calls[j]? = some b) (differ : i ≠ j) (done : a.fn = .returned)
    (done' : b.fn = .returned) : interval ≤ |a.claim.claimedAt - b.claim.claimedAt| := by
  have stands := (sound.calls a (List.mem_of_getElem? first)).returned done
  have stands' := (sound.calls b (List.mem_of_getElem? second)).returned done'
  have apart := sound.times.apart i j a.claim b.claim (by rw [List.getElem?_map, first]; rfl)
    (by rw [List.getElem?_map, second]; rfl) differ stands stands'
  rw [le_abs]
  omega

end Invariant

/-- In every run whose steps are timely the task runs once per interval and recovers. -/
theorem periodic {interval : Int} {trace : List (Runs.Step State Act)} {s : State}
    (run : Run (Step interval) {} trace s)
    (timely : ∀ t ∈ trace, Timely interval t.before t.label) : Periodic interval trace s := by
  have sound : Sound interval s := run.invariant_of_guarded (Sound interval) (Timely interval)
    (Sound.start interval) (fun _ _ _ => Sound.step) timely
  have reached : ∀ t ∈ trace, Sound interval t.before ∧ Timely interval t.before t.label ∧
      Step interval t.before t.label t.after := by
    refine run.transitions_of_guarded (Sound interval) (Timely interval) (Sound.start interval)
      (fun _ _ _ => Sound.step) _ (fun s label s' sound inTime taken => ?_) timely
    exact ⟨sound, inTime, taken⟩
  constructor
  · exact fun i j a b first second => sound.alone first second
  · exact fun i j a b first second => sound.apart first second
  · intro t mem i is idle unfinished
    obtain ⟨sound, inTime, taken⟩ := reached t mem
    rw [is] at inTime taken
    exact sound.claims inTime taken idle unfinished
  · intro t mem i is only
    obtain ⟨sound, -, taken⟩ := reached t mem
    rw [is] at taken
    exact sound.runs taken only

/-- A run that fails, and its retry by another replica 5 seconds later, once every 900 seconds. -/
def retried : List Act :=
  [.call 1700000000000000, .insert 0, .update 0, .tryLock 0, .raises 0, .unlock 0, .giveBack 0,
   .call 1700000005000000, .insert 1, .update 1, .tryLock 1, .returns 1, .unlock 1]

theorem retried_periodic : Periodic 900000000
    (Runs.stepsOf (Runs.nextOf (act 900000000)) {} retried)
    (retried.foldl (Runs.nextOf (act 900000000)) {}) :=
  periodic (Runs.run_enabled (by decide)) (by decide)

/-- A process that dies during its run, and a call of another replica 5 seconds later. -/
def crashed : List Act :=
  [.call 1700000000000000, .insert 0, .update 0, .tryLock 0, .dies 0,
   .call 1700000005000000, .insert 1, .update 1]

/-- The claim of a process that died stands: the next call does not run the task. -/
theorem crashed_not_retried : ¬ ∀ (interval : Int) (trace : List (Runs.Step State Act)) (s : State),
    Run (Step interval) {} trace s → Periodic interval trace s := by
  intro periodic
  have run := periodic 900000000 _ _ (@Runs.run_enabled _ _ ({} : State) (act 900000000) crashed (by decide))
  obtain ⟨call, at_, claimed⟩ := run.claims _ (List.getLast_mem (by decide)) 1 rfl (by decide) (by decide)
  cases at_
  cases claimed

end Smo.SingleRunner
