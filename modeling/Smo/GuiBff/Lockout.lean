import Smo.Lib.Runs
import Smo.Lib.Table

/-! The failed sign-ins of one user name (`gui-bff/app/db.py` and `main.py`): the lock check, the
evaluation of a password or a code and the count of a failure are transactions of their own, from any
number of instances at once. -/
namespace Smo.GuiBff.Lockout

def maxLoginFailures : Nat := 5

/-- `LOCKOUT_SECONDS`, in microseconds. -/
def lockout : Nat := 300000000

structure LoginFailure where
  count : Nat
  firstFailedAt : Nat
  deriving DecidableEq

def loginLocked (failure : Option LoginFailure) (now : Nat) : Bool :=
  failure.any fun row => maxLoginFailures ≤ row.count && now < row.firstFailedAt + lockout

/-- A password sign-in or its second step, a token grant, or a code typed in a session. -/
inductive Kind
  | signIn
  | secondStep
  | grant
  | confirm
  | regenerate
  deriving DecidableEq

/-- How far an attempt is; `seen` is the row its lock check read. -/
inductive Stage
  | arrived (kind : Kind)
  | allowed (kind : Kind) (seen : Option LoginFailure)
  | factor (kind : Kind) (seen : Option LoginFailure)
  | coding (seen : Option LoginFailure)
  | counting (now tries : Nat)
  | inserting (now tries : Nat)
  | confirming
  | completing (byPassword : Bool)
  | answered
  | raised
  deriving DecidableEq

/-- `guesses` has when each wrong password or code was evaluated since the row was last cleared; the
service keeps none of it. -/
structure State where
  clock : Nat := 0
  failure : Option LoginFailure := none
  enrolled : Bool := false
  attempts : List Stage := []
  guesses : List Nat := []

/-- `drop` ends an attempt for another reason: the mode of signing in, the key of the codes, a code that
was not sent, or a challenge that was spent. -/
inductive Act
  | tick (micros : Nat)
  | arrive (kind : Kind)
  | check (i : Nat)
  | evaluate (i : Nat) (right : Bool)
  | readEnrolled (i : Nat)
  | update (i : Nat)
  | insert (i : Nat)
  | confirm (i : Nat)
  | complete (i : Nat)
  | drop (i : Nat)
  | resetTotp

namespace Stage

def onRight : Stage → Option Stage
  | .allowed .signIn seen => some (.factor .signIn seen)
  | .allowed .grant seen => some (.factor .grant seen)
  | .allowed .secondStep _ => some (.completing false)
  | .allowed .confirm _ => some .confirming
  | .allowed .regenerate _ => some .answered
  | .coding _ => some (.completing false)
  | _ => none

def drops : Stage → Bool
  | .allowed _ _ | .factor _ _ | .coding _ | .confirming | .completing _ => true
  | _ => false

def seen? : Stage → Option (Option LoginFailure)
  | .allowed _ seen | .factor _ seen | .coding seen => some seen
  | _ => none

def pending : Stage → Bool
  | .counting _ _ | .inserting _ _ => true
  | _ => false

end Stage

namespace State

variable (s : State)

def at_ (i : Nat) (stage : Stage) : State := { s with attempts := s.attempts.set i stage }

/-- `record_login_failure` counts into the row, or finds none. -/
def counted (i now tries : Nat) : State :=
  match s.failure with
  | some row =>
    if row.firstFailedAt + lockout ≤ now then { s.at_ i .answered with failure := some ⟨1, now⟩ }
    else { s.at_ i .answered with failure := some ⟨row.count + 1, row.firstFailedAt⟩ }
  | none => s.at_ i (.inserting now tries)

def act (a : Act) : Option State :=
  match a with
  | .tick micros => some { s with clock := s.clock + micros }
  | .arrive kind => some { s with attempts := s.attempts ++ [.arrived kind] }
  | .check i =>
    match s.attempts[i]? with
    | some (.arrived kind) =>
      some (s.at_ i (if loginLocked s.failure s.clock then .answered else .allowed kind s.failure))
    | _ => none
  | .evaluate i right =>
    match (s.attempts[i]?).bind Stage.onRight with
    | some next =>
      if right then some (s.at_ i next)
      else some { s.at_ i (.counting s.clock 3) with guesses := s.guesses ++ [s.clock] }
    | none => none
  | .readEnrolled i =>
    match s.attempts[i]? with
    | some (.factor kind seen) =>
      some (s.at_ i
        (if s.enrolled then (if kind = .grant then .coding seen else .answered)
        else .completing true))
    | _ => none
  | .update i =>
    match s.attempts[i]? with
    | some (.counting now tries) =>
      if tries = 0 then some (s.at_ i .raised) else some (s.counted i now tries)
    | _ => none
  | .insert i =>
    match s.attempts[i]? with
    | some (.inserting now tries) =>
      match s.failure with
      | none => some { s.at_ i .answered with failure := some ⟨1, now⟩ }
      | some _ => some (s.at_ i (.counting now (tries - 1)))
    | _ => none
  | .confirm i =>
    match s.attempts[i]? with
    | some .confirming => some { s.at_ i (.completing false) with enrolled := true }
    | _ => none
  | .complete i =>
    match s.attempts[i]? with
    | some (.completing _) => some { s.at_ i .answered with failure := none, guesses := [] }
    | _ => none
  | .drop i =>
    match s.attempts[i]? with
    | some stage => if stage.drops then some (s.at_ i .answered) else none
    | none => none
  | .resetTotp => some { s with enrolled := false }

def Step (s : State) (a : Act) (s' : State) : Prop := s.act a = some s'

/-- A password or a code is evaluated after the row has changed since the lock check, or while a failure
is still to be counted; a code is set up while a password alone completes a sign-in. -/
def lapses : Act → Bool
  | .evaluate i _ =>
    ((s.attempts[i]?).bind Stage.seen?) ≠ some s.failure || s.attempts.any Stage.pending
  | .confirm _ => s.attempts.any (· = .completing true)
  | _ => false

end State

end Smo.GuiBff.Lockout
