/-! The transition tables the services' lifecycles are made of
(`smo_shared/statemachine.py`). -/
namespace Smo

structure Transition (S E : Type) where
  fromState : S
  event : E
  toState : S

/-- The exception of `fire` when no transition fits. -/
structure IllegalTransition (S E : Type) where
  state : S
  event : E
  deriving DecidableEq, Repr

structure StateMachine (S E : Type) where
  transitions : List (Transition S E) := []

namespace StateMachine

variable {S E : Type}

def add (fsm : StateMachine S E) (fromState : S) (event : E) (toState : S) : StateMachine S E :=
  ⟨fsm.transitions ++ [⟨fromState, event, toState⟩]⟩

def fire [DecidableEq S] [DecidableEq E] (fsm : StateMachine S E) (currentState : S) (event : E) :
    Except (IllegalTransition S E) S :=
  match fsm.transitions.find? fun t => t.fromState = currentState ∧ t.event = event with
  | some t => .ok t.toState
  | none => .error ⟨currentState, event⟩

end StateMachine
end Smo
