import Smo.Shared.StateMachine

/-! The two lifecycles of a model's row, its certification path and its serving runtime, and the
states of an inference job (`aimgf/app/statemachine.py`). -/
namespace Smo.Aimgf

inductive ModelLifecycleState
  | registered | training | trained | validating | validated | emulating | emulated
  | pendingApproval | approved | certified | promoted | deprecated | retired | failed
  deriving DecidableEq, Repr

namespace ModelLifecycleState

def value : ModelLifecycleState → String
  | registered => "REGISTERED"
  | training => "TRAINING"
  | trained => "TRAINED"
  | validating => "VALIDATING"
  | validated => "VALIDATED"
  | emulating => "EMULATING"
  | emulated => "EMULATED"
  | pendingApproval => "PENDING_APPROVAL"
  | approved => "APPROVED"
  | certified => "CERTIFIED"
  | promoted => "PROMOTED"
  | deprecated => "DEPRECATED"
  | retired => "RETIRED"
  | failed => "FAILED"

/-- `TRAINABLE_STATES`. -/
def trainable : ModelLifecycleState → Bool
  | registered | certified | promoted | failed | training => true
  | _ => false

/-- `END_OF_LIFE_STATES`. -/
def endOfLife : ModelLifecycleState → Bool
  | deprecated | retired => true
  | _ => false

def cleared (state : ModelLifecycleState) : Bool := state = certified ∨ state = promoted

end ModelLifecycleState

inductive ModelLifecycleEvent
  | createTraining | trainingComplete | trainingFailed | approveTraining
  | createValidation | validationComplete | validationFailed | approveValidation
  | createEmulation | emulationComplete | emulationFailed
  | submitForApproval | approve | reject | certify | promote | rollback | deprecate | retire
  deriving DecidableEq, Repr

namespace ModelLifecycleEvent

def value : ModelLifecycleEvent → String
  | createTraining => "CREATE_TRAINING"
  | trainingComplete => "TRAINING_COMPLETE"
  | trainingFailed => "TRAINING_FAILED"
  | approveTraining => "APPROVE_TRAINING"
  | createValidation => "CREATE_VALIDATION"
  | validationComplete => "VALIDATION_COMPLETE"
  | validationFailed => "VALIDATION_FAILED"
  | approveValidation => "APPROVE_VALIDATION"
  | createEmulation => "CREATE_EMULATION"
  | emulationComplete => "EMULATION_COMPLETE"
  | emulationFailed => "EMULATION_FAILED"
  | submitForApproval => "SUBMIT_FOR_APPROVAL"
  | approve => "APPROVE"
  | reject => "REJECT"
  | certify => "CERTIFY"
  | promote => "PROMOTE"
  | rollback => "ROLLBACK"
  | .deprecate => "DEPRECATE"
  | retire => "RETIRE"

/-- `GOVERNANCE_EVENTS`: a certification record is written for them. -/
def governance : ModelLifecycleEvent → Bool
  | submitForApproval | approve | reject | certify | promote | rollback | approveTraining
  | approveValidation => true
  | _ => false

/-- `ADVANCEABLE_EVENTS`. -/
def advanceable (event : ModelLifecycleEvent) : Bool :=
  event.governance || event = .deprecate || event = .retire

end ModelLifecycleEvent

def modelLifecycleFsm : StateMachine ModelLifecycleState ModelLifecycleEvent :=
  (({} : StateMachine ModelLifecycleState ModelLifecycleEvent)
    |>.add .registered .createTraining .training
    |>.add .training .trainingComplete .trained
    |>.add .training .trainingFailed .failed
    |>.add .trained .approveTraining .trained
    |>.add .trained .createValidation .validating
    |>.add .validating .validationComplete .validated
    |>.add .validating .validationFailed .failed
    |>.add .validated .approveValidation .validated
    |>.add .validated .createEmulation .emulating
    |>.add .emulating .emulationComplete .emulated
    |>.add .emulating .emulationFailed .failed
    |>.add .emulated .submitForApproval .pendingApproval
    |>.add .pendingApproval .approve .approved
    |>.add .pendingApproval .reject .failed
    |>.add .approved .certify .certified
    |>.add .certified .promote .promoted
    |>.add .certified .deprecate .deprecated
    |>.add .certified .createTraining .training
    |>.add .promoted .rollback .certified
    |>.add .promoted .deprecate .deprecated
    |>.add .promoted .createTraining .training
    |>.add .deprecated .retire .retired
    |>.add .failed .retire .retired
    |>.add .failed .createTraining .training)

inductive RuntimeLifecycleState
  | notDeployed | deploymentRequested | deployed | activating | active | scaling | terminating
  | terminated
  deriving DecidableEq, Repr

def RuntimeLifecycleState.value : RuntimeLifecycleState → String
  | notDeployed => "NOT_DEPLOYED"
  | deploymentRequested => "DEPLOYMENT_REQUESTED"
  | deployed => "DEPLOYED"
  | activating => "ACTIVATING"
  | active => "ACTIVE"
  | scaling => "SCALING"
  | terminating => "TERMINATING"
  | terminated => "TERMINATED"

/-- `_TERMINABLE_RUNTIME_STATES`. -/
def RuntimeLifecycleState.terminable : RuntimeLifecycleState → Bool
  | deploymentRequested | deployed | active => true
  | _ => false

inductive RuntimeLifecycleEvent
  | requestDeployment | deploymentComplete | activate | activationComplete | requestScale
  | scaleComplete | requestTermination | terminationComplete
  deriving DecidableEq, Repr

def RuntimeLifecycleEvent.value : RuntimeLifecycleEvent → String
  | requestDeployment => "REQUEST_DEPLOYMENT"
  | deploymentComplete => "DEPLOYMENT_COMPLETE"
  | activate => "ACTIVATE"
  | activationComplete => "ACTIVATION_COMPLETE"
  | requestScale => "REQUEST_SCALE"
  | scaleComplete => "SCALE_COMPLETE"
  | requestTermination => "REQUEST_TERMINATION"
  | terminationComplete => "TERMINATION_COMPLETE"

def runtimeLifecycleFsm : StateMachine RuntimeLifecycleState RuntimeLifecycleEvent :=
  (({} : StateMachine RuntimeLifecycleState RuntimeLifecycleEvent)
    |>.add .notDeployed .requestDeployment .deploymentRequested
    |>.add .deploymentRequested .deploymentComplete .deployed
    |>.add .deployed .activate .activating
    |>.add .activating .activationComplete .active
    |>.add .active .requestScale .scaling
    |>.add .scaling .scaleComplete .active
    |>.add .deploymentRequested .requestTermination .terminating
    |>.add .deployed .requestTermination .terminating
    |>.add .active .requestTermination .terminating
    |>.add .terminating .terminationComplete .terminated)

section Edges

variable {state next : ModelLifecycleState} {event : ModelLifecycleEvent}

theorem edge_of_fire {S E : Type} [DecidableEq S] [DecidableEq E] {fsm : StateMachine S E}
    {state next : S} {event : E} (fired : fsm.fire state event = .ok next) :
    (⟨state, event, next⟩ : Transition S E) ∈ fsm.transitions := by
  unfold StateMachine.fire at fired
  split at fired
  · next edge found =>
    cases fired
    obtain ⟨rfl, rfl⟩ : edge.fromState = state ∧ edge.event = event := by
      simpa using List.find?_some found
    exact List.mem_of_find?_eq_some found
  · cases fired

theorem training_edges : ∀ edge ∈ modelLifecycleFsm.transitions,
    (edge.toState = .training ↔ edge.event = .createTraining) ∧
    (edge.fromState = .training ↔
      edge.event = .trainingComplete ∨ edge.event = .trainingFailed) := by
  decide

theorem training_of_fire (fired : modelLifecycleFsm.fire state event = .ok next) :
    (next = .training ↔ event = .createTraining) ∧
    (state = .training ↔ event = .trainingComplete ∨ event = .trainingFailed) :=
  training_edges _ (edge_of_fire fired)

theorem end_edges : ∀ edge ∈ modelLifecycleFsm.transitions, edge.fromState ≠ .retired ∧
    (edge.fromState = .deprecated → edge.event = .retire) ∧
    (edge.toState = .retired ↔ edge.event = .retire) := by
  decide

theorem end_of_fire (fired : modelLifecycleFsm.fire state event = .ok next) :
    state ≠ .retired ∧ (state = .deprecated → event = .retire) ∧ (next = .retired ↔ event = .retire) :=
  end_edges _ (edge_of_fire fired)

def RuntimeLifecycleEvent.target : RuntimeLifecycleEvent → RuntimeLifecycleState
  | requestDeployment => .deploymentRequested
  | deploymentComplete => .deployed
  | activate => .activating
  | activationComplete | scaleComplete => .active
  | requestScale => .scaling
  | requestTermination => .terminating
  | terminationComplete => .terminated

def RuntimeLifecycleEvent.leaves : RuntimeLifecycleEvent → RuntimeLifecycleState → Bool
  | requestDeployment, state => state = .notDeployed
  | deploymentComplete, state => state = .deploymentRequested
  | activate, state => state = .deployed
  | activationComplete, state => state = .activating
  | requestScale, state => state = .active
  | scaleComplete, state => state = .scaling
  | requestTermination, state => state.terminable
  | terminationComplete, state => state = .terminating

theorem runtime_edges : ∀ edge ∈ runtimeLifecycleFsm.transitions,
    edge.event.leaves edge.fromState = true ∧ edge.toState = edge.event.target := by
  decide

theorem runtime_of_fire {state next : RuntimeLifecycleState} {event : RuntimeLifecycleEvent}
    (fired : runtimeLifecycleFsm.fire state event = .ok next) :
    event.leaves state = true ∧ next = event.target :=
  runtime_edges _ (edge_of_fire fired)

end Edges

end Smo.Aimgf
