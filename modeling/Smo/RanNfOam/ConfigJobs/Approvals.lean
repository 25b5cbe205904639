import Smo.RanNfOam.ConfigJobs.Routes

/-! The routes of the rApp approvals and of the kill switch, and the world the routes of the
config jobs act on. -/
namespace Smo.RanNfOam.ConfigJobs

open Transaction

section Routes

variable {σ : Type} (o1 : O1Clients σ) (site : Site) (now : Time)

def approvalOr404 (approvalId : Nat) : Db σ RAppActionApproval := do
  let store ← database
  match store.approval? approvalId with
  | none => raiseProblem .approvalNotFound s!"no approval request {approvalId}"
  | some row => return row

def ApprovalStatus.text : ApprovalStatus → String
  | .pending => "PENDING"
  | .approved => "APPROVED"
  | .rejected => "REJECTED"
  | .expired => "EXPIRED"
  | .refused => "REFUSED"

def systemDecider : String := "system:timeout"

def lapsed (row : RAppActionApproval) : Option RAppActionApproval :=
  if row.status ≠ .pending ∨ now < row.expiresAt then none
  else some { row with
    status := if row.onTimeout = .reject then .rejected else .expired
    decidedBy := some systemDecider, decidedAt := some now
    decisionReason := some s!"nobody decided before {row.expiresAt}" }

def lapseIfDue (row : RAppActionApproval) : Db σ Bool :=
  match lapsed now row with
  | none => return false
  | some row => do
    update (·.putApproval row)
    commit
    return true

def decidesOwn (request : Request) (row : RAppActionApproval) (name : String) : Bool :=
  name = row.invokerId || name = row.requestedBy || request.invokerId = some row.invokerId ||
    (row.requiredApprovals > 1 &&
      (samePerson site name row.invokerId || samePerson site name row.requestedBy))

/-- `_decidable`, with the verified decider. -/
def decidable (request : Request) (approvalId : Nat) (body : ApprovalDecisionRequest) :
    Db σ (RAppActionApproval × String) :=
  if request.role = .rapp then
    raiseProblem .roleNotPermitted "an rApp cannot decide an approval request"
  else do
    let name ← decider site request body.decidedBy
    let row ← approvalOr404 approvalId
    if decidesOwn site request row name then
      raiseProblem .approvalSelfDecision "the requester of an action cannot decide it"
    else do
      let _ ← lapseIfDue now row
      let row ← approvalOr404 approvalId
      if row.status = .pending then return (row, name)
      else
        let why := match row.decisionReason with
          | none => ""
          | some reason => if reason = "" then "" else s!" ({reason})"
        raiseProblem .approvalNotPending s!"the request is {row.status.text}{why}"

def alreadyGiven (row : RAppActionApproval) (name : String) : Bool :=
  row.approvals.any fun vote => samePerson site vote.decidedBy name

/-- `_close_refused`. -/
def closeRefused (approvalId : Nat) (name : String) (reason : Option String) (problem : Problem) :
    Db σ Unit := do
  let row ← approvalOr404 approvalId
  if row.status ≠ .pending then return ()
  else do
    update (·.putApproval { row with
      status := .refused, refusalCode := some problem.error.code
      decidedBy := some name, decidedAt := some now, decisionReason := reason
      approvals :=
        if row.requiredApprovals > 1 && !alreadyGiven site row name then
          row.approvals ++ [⟨name, now, reason⟩]
        else row.approvals })
    commit

def runApproved (row : RAppActionApproval) (name : String) (reason : Option String) :
    Db σ Written := do
  refuseIfKilled now (some row.invokerId) (some row.requestedBy)
  enforceRappLimit site now (some row.invokerId) row.requestedBy
  enforceScope site now row.requesterScope (some row.invokerId) row.requestedBy
    (row.request.changes.map (·.managedElementRef))
  enforceChangeLimits site now row.request (some row.invokerId)
  let decided := { row with
    decidedBy := some name, decidedAt := some now, decisionReason := reason }
  update (·.putApproval decided)
  executeWrite o1 site now row.request
    { invoker := some row.invokerId, approval := some decided }

/-- `except HTTPException`: the session goes on from what it has come to. -/
def exceptProblem {α : Type} (x : Db σ α) (handle : Problem → Db σ α) : Db σ α := fun s =>
  match x s with
  | .error (.problem problem) s => handle problem s
  | other => other

/-- `approve_action`. -/
def approveAction (request : Request) (approvalId : Nat) (body : ApprovalDecisionRequest) :
    Db σ Unit := do
  let (row, name) ← decidable site now request approvalId body
  let voted := { row with approvals := row.approvals ++ [⟨name, now, body.reason⟩] }
  if row.requiredApprovals > 1 ∧ alreadyGiven site row name then
    raiseProblem .approvalAlreadyGiven
      s!"{name} has already approved this request: a different person must give the other approval"
  else if row.requiredApprovals > 1 ∧ row.approvals.length + 1 < row.requiredApprovals then do
    update (·.putApproval voted)
    commit
  else do
    let row := if row.requiredApprovals > 1 then voted else row
    update (·.putApproval row)
    let _ ← exceptProblem (runApproved o1 site now row name body.reason) fun problem => do
      rollback
      closeRefused site now approvalId name body.reason problem
      throw (.problem problem)
    return ()

/-- `reject_action`. -/
def rejectAction (request : Request) (approvalId : Nat) (body : ApprovalDecisionRequest) :
    Db σ Unit := do
  let (row, name) ← decidable site now request approvalId body
  update (·.putApproval { row with
    status := .rejected, decidedBy := some name, decidedAt := some now
    decisionReason := body.reason })
  commit

/-- `read_approval`. -/
def readApproval (request : Request) (approvalId : Nat) : Db σ RAppActionApproval := do
  let row ← approvalOr404 approvalId
  if request.ownJobsOnly ∧ some row.invokerId ≠ request.invokerId then
    raiseProblem .approvalNotFound s!"no approval request {approvalId}"
  else do
    let _ ← lapseIfDue now row
    approvalOr404 approvalId

def approvalSweepBatch : Nat := 100

def lapseEach : List Nat → Db σ Unit
  | [] => return ()
  | approvalId :: rest => do
    let store ← database
    match store.approval? approvalId with
    | none => lapseEach rest
    | some row => do
      let _ ← lapseIfDue now row
      lapseEach rest

/-- `lapse_due_approvals`. -/
def lapseDueApprovals : Db σ Unit := do
  let store ← database
  let due := store.approvals.filter fun row => row.status = .pending && row.expiresAt ≤ now
  let oldest := (due.insertionSort fun a b => a.expiresAt ≤ b.expiresAt).take approvalSweepBatch
  lapseEach now (oldest.map (·.approvalId))

/-- `kill_rapp`. -/
def killRapp (invokerId requestedBy : String) (reason : Option String) : Db σ Unit := do
  update fun store =>
    match store.killOf invokerId with
    | none => { store with kills := store.kills ++ [⟨invokerId, requestedBy, reason, now⟩] }
    | some _ => { store with kills := store.kills.map fun row =>
        if row.invokerId = invokerId then { row with reason, killedBy := requestedBy } else row }
  commit

/-- `lift_rapp_kill`. -/
def liftRappKill (invokerId : String) : Db σ Unit := do
  let store ← database
  match store.killOf invokerId with
  | none => raiseProblem .rappKillNotFound s!"{invokerId} is not stopped"
  | some _ => do
    update fun store => { store with kills := store.kills.filter (·.invokerId ≠ invokerId) }
    commit

end Routes

inductive Operation (σ : Type) where
  | write (request : Request) (body : WriteConfigRequest)
  | goOn (request : Request) (jobId : Nat) (body : WaveActionRequest)
  | halt (request : Request) (jobId : Nat) (body : WaveActionRequest)
  | abort (request : Request) (jobId : Nat) (body : WaveActionRequest)
  | approve (request : Request) (jobId : Nat) (body : ApprovalDecisionRequest)
  | reject (request : Request) (jobId : Nat) (body : ApprovalDecisionRequest)
  | rollback (request : Request) (jobId : Nat) (body : RollbackRequest)
  | kpiCheck (request : Request) (jobId : Nat) (body : KpiCheckRequest)
  | advanceDue
  | approveAction (request : Request) (approvalId : Nat) (body : ApprovalDecisionRequest)
  | rejectAction (request : Request) (approvalId : Nat) (body : ApprovalDecisionRequest)
  | readApproval (request : Request) (approvalId : Nat)
  | lapseDue
  | kill (invokerId requestedBy : String) (reason : Option String)
  | liftKill (invokerId : String)
  | surroundings (site : Site) (network : σ) (elapsed : Time)

structure World (σ : Type) where
  store : Store := {}
  wire : Wire σ
  site : Site := {}
  now : Time := 0

namespace World

variable {σ : Type}

def route (o1 : O1Clients σ) (site : Site) (now : Time) : Operation σ → Db σ Unit
  | .write request body => discard (writeConfigurationChanges o1 site now request body)
  | .goOn request jobId body => discard (continueConfigurationJob o1 site now request jobId body)
  | .halt request jobId body => discard (haltConfigurationJob site now request jobId body)
  | .abort request jobId body => discard (abortConfigurationJob site now request jobId body)
  | .approve request jobId body =>
    discard (approveConfigurationJob o1 site now request jobId body)
  | .reject request jobId body => discard (rejectConfigurationJob site now request jobId body)
  | .rollback request jobId body =>
    discard (rollbackConfigurationJob o1 site now request jobId body)
  | .kpiCheck request jobId body => checkConfigurationJobKpi o1 site now request jobId body
  | .advanceDue => discard (ConfigJobs.advanceDue o1 site now)
  | .approveAction request approvalId body =>
    ConfigJobs.approveAction o1 site now request approvalId body
  | .rejectAction request approvalId body =>
    ConfigJobs.rejectAction site now request approvalId body
  | .readApproval request approvalId =>
    discard (ConfigJobs.readApproval now request approvalId)
  | .lapseDue => lapseDueApprovals now
  | .kill invokerId requestedBy reason => killRapp now invokerId requestedBy reason
  | .liftKill invokerId => liftRappKill invokerId
  | .surroundings _ _ _ => return ()

/-- One request after the other, each a transaction of its own; the settings and the
network change, and time goes by, between them. `str.casefold` stays what it is. -/
def perform (o1 : O1Clients σ) (world : World σ) (operation : Operation σ) : World σ :=
  match operation with
  | .surroundings site network elapsed =>
    { world with
      site := { site with casefold := world.site.casefold }
      wire := { world.wire with network }, now := world.now + elapsed }
  | operation =>
    let ended := run (route o1 world.site world.now operation) world.store world.wire
    { world with store := ended.2.1, wire := ended.2.2 }

def Step (o1 : O1Clients σ) (world : World σ) (operation : Operation σ) (world' : World σ) :
    Prop :=
  world' = world.perform o1 operation

end World

end Smo.RanNfOam.ConfigJobs
