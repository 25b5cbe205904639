import Mathlib.Data.List.Basic
import Smo.Shared.StateMachine

/-! The lifecycles of RAN NF OAM (`app/statemachine.py`): config jobs, software
management jobs and software campaigns. -/
namespace Smo.RanNfOam

inductive JobState where
  | pending | pendingApproval | scheduled | processing | halted | completed | partialSuccess
  | failed | rejected
  deriving DecidableEq, Repr

inductive JobEvent where
  | precheckPass | precheckFail | aggregateAllApplied | aggregateAllRejected | aggregateMixed
  | halt | resume | requestApproval | approve | approveForWindow | start | reject
  deriving DecidableEq, Repr

def JobState.text : JobState → String
  | pending => "PENDING"
  | pendingApproval => "PENDING_APPROVAL"
  | scheduled => "SCHEDULED"
  | processing => "PROCESSING"
  | halted => "HALTED"
  | completed => "COMPLETED"
  | partialSuccess => "PARTIAL_SUCCESS"
  | failed => "FAILED"
  | rejected => "REJECTED"

def JobEvent.text : JobEvent → String
  | precheckPass => "PRECHECK_PASS"
  | precheckFail => "PRECHECK_FAIL"
  | aggregateAllApplied => "AGGREGATE_ALL_APPLIED"
  | aggregateAllRejected => "AGGREGATE_ALL_REJECTED"
  | aggregateMixed => "AGGREGATE_MIXED"
  | halt => "HALT"
  | resume => "RESUME"
  | requestApproval => "REQUEST_APPROVAL"
  | approve => "APPROVE"
  | approveForWindow => "APPROVE_FOR_WINDOW"
  | start => "START"
  | reject => "REJECT"

inductive SubChangeStatus where
  | pending | applied | rejected | reverted
  deriving DecidableEq, Repr

def aggregateEvent (statuses : List SubChangeStatus) : JobEvent :=
  let applied := statuses.countP (· = .applied)
  let rejected := statuses.countP (· = .rejected)
  if applied ≠ 0 ∧ rejected ≠ 0 then .aggregateMixed
  else if applied ≠ 0 ∧ rejected = 0 then .aggregateAllApplied
  else .aggregateAllRejected

def writeConfigJobFsm : StateMachine JobState JobEvent :=
  StateMachine.mk []
    |>.add .pending .precheckPass .processing
    |>.add .pending .precheckFail .failed
    |>.add .pending .requestApproval .pendingApproval
    |>.add .pendingApproval .approve .processing
    |>.add .pendingApproval .approveForWindow .scheduled
    |>.add .pendingApproval .reject .rejected
    |>.add .scheduled .start .processing
    |>.add .scheduled .reject .rejected
    |>.add .processing .aggregateAllApplied .completed
    |>.add .processing .aggregateAllRejected .failed
    |>.add .processing .aggregateMixed .partialSuccess
    |>.add .processing .halt .halted
    |>.add .halted .resume .processing
    |>.add .halted .aggregateAllApplied .completed
    |>.add .halted .aggregateAllRejected .failed
    |>.add .halted .aggregateMixed .partialSuccess

inductive SwmState where
  | pending | inProgress | completed | failed
  deriving DecidableEq, Repr

inductive SwmPhase where
  | download | install | activate
  deriving DecidableEq, Repr

inductive SwmEvent where
  | start | downloadOk | installOk | activateOk | phaseFailed
  deriving DecidableEq, Repr

def softwareManagementFsm : StateMachine SwmState SwmEvent :=
  StateMachine.mk []
    |>.add .pending .start .inProgress
    |>.add .inProgress .downloadOk .inProgress
    |>.add .inProgress .installOk .inProgress
    |>.add .inProgress .activateOk .completed
    |>.add .inProgress .phaseFailed .failed

def phaseOrder : SwmEvent → Option SwmPhase
  | .downloadOk => some .install
  | .installOk => some .activate
  | _ => none

inductive CampaignState where
  | pending | running | halted | completed | aborted | rollingBack | rolledBack | rollbackFailed
  deriving DecidableEq, Repr

inductive CampaignEvent where
  | start | halt | resume | finish | abort | rollback | rollbackDone | rollbackFailed
  deriving DecidableEq, Repr

def CampaignState.text : CampaignState → String
  | pending => "PENDING"
  | running => "RUNNING"
  | halted => "HALTED"
  | completed => "COMPLETED"
  | aborted => "ABORTED"
  | rollingBack => "ROLLING_BACK"
  | rolledBack => "ROLLED_BACK"
  | rollbackFailed => "ROLLBACK_FAILED"

def CampaignEvent.text : CampaignEvent → String
  | start => "START"
  | halt => "HALT"
  | resume => "RESUME"
  | finish => "FINISH"
  | abort => "ABORT"
  | rollback => "ROLLBACK"
  | rollbackDone => "ROLLBACK_DONE"
  | rollbackFailed => "ROLLBACK_FAILED"

def campaignFsm : StateMachine CampaignState CampaignEvent :=
  StateMachine.mk []
    |>.add .pending .start .running
    |>.add .running .halt .halted
    |>.add .running .finish .completed
    |>.add .halted .resume .running
    |>.add .halted .abort .aborted
    |>.add .running .rollback .rollingBack
    |>.add .halted .rollback .rollingBack
    |>.add .completed .rollback .rollingBack
    |>.add .aborted .rollback .rollingBack
    |>.add .rollbackFailed .rollback .rollingBack
    |>.add .rollingBack .rollbackDone .rolledBack
    |>.add .rollingBack .rollbackFailed .rollbackFailed

theorem swm_fire_ok {state state' : SwmState} {event : SwmEvent}
    (h : softwareManagementFsm.fire state event = .ok state') :
    (state = .pending ∧ event = .start ∧ state' = .inProgress) ∨ state = .inProgress := by
  revert h
  cases state <;> cases event <;> cases state' <;> decide

variable {state state' : CampaignState}

theorem campaign_fire_halt (h : campaignFsm.fire state .halt = .ok state') :
    state = .running ∧ state' = .halted := by
  revert h
  cases state <;> cases state' <;> decide

theorem campaign_fire_finish (h : campaignFsm.fire state .finish = .ok state') :
    state = .running ∧ state' = .completed := by
  revert h
  cases state <;> cases state' <;> decide

theorem campaign_fire_rollback (h : campaignFsm.fire state .rollback = .ok state') :
    state' = .rollingBack ∧ state ∈ [.running, .halted, .completed, .aborted, .rollbackFailed] := by
  revert h
  cases state <;> cases state' <;> decide

theorem campaign_fire_rollbackDone (h : campaignFsm.fire state .rollbackDone = .ok state') :
    state = .rollingBack ∧ state' = .rolledBack := by
  revert h
  cases state <;> cases state' <;> decide

theorem campaign_fire_rollbackFailed (h : campaignFsm.fire state .rollbackFailed = .ok state') :
    state = .rollingBack ∧ state' = .rollbackFailed := by
  revert h
  cases state <;> cases state' <;> decide

end Smo.RanNfOam
