import Smo.Lib.Versioned
import Smo.RanNfOam.Lifecycle.Operations

/-! Campaign operations as database sessions that interleave. A session loads a campaign
with its row version, works on what it loaded, and commits only when no other session
has written the campaign since; after its commit it reloads each campaign it goes on
to. The sweep reads its list of due campaigns once and resumes and commits one after the
other. A request is taken here from where it has found its campaign. -/
namespace Smo.RanNfOam.Lifecycle

open Versioned (Row)

/-- A campaign in a sweep's list, with what the session holds of its row: nothing, once a
commit has expired it. -/
structure Taken where
  id : Nat
  copy : Option (Row SoftwareCampaign)

def Taken.expire (taken : Taken) : Taken := { taken with copy := none }

/-- The requests on one campaign; `progress` follows a job's report. -/
inductive Request where
  | continue_ (body : CampaignAction)
  | halt (body : CampaignAction)
  | abort (body : CampaignAction)
  | rollback (body : CampaignAction)
  | progress

def Request.run (w : Surroundings) (id : Nat) (s : CampaignRows) :
    Request → Except Raised CampaignRows
  | .continue_ body => continueCampaign w s id body
  | .halt body => haltCampaign w s id body
  | .abort body => abortCampaign w s id body
  | .rollback body => rollbackCampaign w s id body
  | .progress => Lifecycle.progress w s

/-- A sweep first resumes the due campaigns (`last` is the one it has just resumed, whose
row it reads again for its answer), then lets the running ones catch up. -/
inductive Session where
  | request (id : Nat) (copy : Row SoftwareCampaign) (request : Request)
  | resuming (due : List Taken) (last : Option Taken)
  | catchingUp (running : List Taken)
  | ended

structure Race where
  store : CampaignStore
  version : Nat → Nat := fun _ => 1
  sessions : List Session := []

inductive Act where
  | create (scope : Option Scope) (body : CampaignRequest)
  | report (campaign job : Nat) (succeeded : Bool)
  | surroundings (registry : Registry) (busyElsewhere : List String) (alarms : List Alarm)
      (now : Time)
  | request (campaign : Nat) (request : Request)
  | finish (session : Nat)
  | sweep
  | take (session : Nat)
  | resume (session : Nat)
  | summarise (session : Nat)
  | turn (session : Nat)
  | catchUp (session : Nat)
  | crash (session : Nat)

namespace Race

def current (s : Race) (id : Nat) : Option (Row SoftwareCampaign) :=
  s.store.campaigns[id]?.map fun rows => ⟨rows.c, s.version id⟩

def rows (s : Race) (id : Nat) (copy : Row SoftwareCampaign) : CampaignRows :=
  ⟨copy.value, (s.store.campaigns[id]?.map (·.jobs)).getD []⟩

def setSession (s : Race) (i : Nat) (session : Session) : Race :=
  { s with sessions := s.sessions.set i session }

/-- Commits the rows; `none` is a stale row version. Rows without a change are not
written. -/
def commit (s : Race) (id : Nat) (copy : Row SoftwareCampaign) (rows : CampaignRows) :
    Option Race :=
  if rows = s.rows id copy then some s
  else if s.version id = copy.version then
    some { s with
      store := s.store.put id rows
      version := fun other => if other = id then copy.version + 1 else s.version other }
  else none

def load (s : Race) (taken : Taken) : Taken :=
  { taken with copy := taken.copy.or (s.current taken.id) }

def beginRequest (s : Race) (id : Nat) (request : Request) : Race :=
  match s.current id with
  | none => s
  | some copy => { s with sessions := s.sessions ++ [.request id copy request] }

def finishRequest (s : Race) (i : Nat) : Race :=
  match s.sessions[i]? with
  | some (.request id copy request) =>
    match request.run s.store.surroundings id (s.rows id copy) with
    | .ok rows => ((s.commit id copy rows).getD s).setSession i .ended
    | .error _ => s.setSession i .ended
  | _ => s

def beginSweep (s : Race) : Race :=
  let due := s.store.dueIds.map fun id => s.load ⟨id, none⟩
  { s with sessions := s.sessions ++ [.resuming due none] }

def takeNext (s : Race) (i : Nat) : Race :=
  match s.sessions[i]? with
  | some (.resuming (first :: rest) last) =>
    s.setSession i (.resuming (s.load first :: rest) last)
  | some (.catchingUp (first :: rest)) => s.setSession i (.catchingUp (s.load first :: rest))
  | _ => s

/-- `_resume` and the commit after it; when either raises, the sweep is at its end. -/
def resumeNext (s : Race) (i : Nat) : Race :=
  match s.sessions[i]? with
  | some (.resuming (⟨id, some copy⟩ :: rest) _) =>
    match Lifecycle.resume s.store.surroundings (s.rows id copy) (some "sweep") with
    | .error _ => s.setSession i .ended
    | .ok rows =>
      match s.commit id copy rows with
      | none => s.setSession i .ended
      | some s => s.setSession i (.resuming (rest.map Taken.expire) (some ⟨id, none⟩))
  | _ => s

def summariseLast (s : Race) (i : Nat) : Race :=
  match s.sessions[i]? with
  | some (.resuming due (some last)) => s.setSession i (.resuming due (some (s.load last)))
  | _ => s

/-- The query for the running campaigns; a row the session still holds is not replaced. -/
def turnToRunning (s : Race) (i : Nat) : Race :=
  match s.sessions[i]? with
  | some (.resuming [] last) =>
    let ids := s.store.idsWhere fun rows => rows.c.status = .running ∨ rows.c.status = .rollingBack
    let running := ids.map fun id =>
      s.load ⟨id, (last.filter (·.id = id)).bind (·.copy)⟩
    s.setSession i (.catchingUp running)
  | _ => s

/-- Only a campaign that moved is committed; a stale row version is caught and the sweep
goes on with the next. -/
def catchUpNext (s : Race) (i : Nat) : Race :=
  match s.sessions[i]? with
  | some (.catchingUp (⟨id, some copy⟩ :: rest)) =>
    match CampaignStore.expireAndProgress s.store.surroundings (s.rows id copy) with
    | .error _ => s.setSession i .ended
    | .ok rows =>
      if CampaignStore.moved copy.value rows.c then
        ((s.commit id copy rows).getD s).setSession i (.catchingUp (rest.map Taken.expire))
      else s.setSession i (.catchingUp rest)
  | _ => s

def reported (s : Race) (campaign job : Nat) (succeeded : Bool) : Race :=
  match s.store.campaigns[campaign]? with
  | none => s
  | some rows =>
    match reportJob rows job succeeded with
    | .ok rows => { s with store := s.store.put campaign rows }
    | .error _ => s

def act (s : Race) : Act → Race
  | .create scope body =>
    { s with store := (s.store.createSoftwareCampaign scope body).toOption.getD s.store }
  | .report campaign job succeeded => s.reported campaign job succeeded
  | .surroundings registry busyElsewhere alarms now =>
    { s with store := { s.store with registry, busyElsewhere, alarms, now } }
  | .request campaign request => s.beginRequest campaign request
  | .finish session => s.finishRequest session
  | .sweep => s.beginSweep
  | .take session => s.takeNext session
  | .resume session => s.resumeNext session
  | .summarise session => s.summariseLast session
  | .turn session => s.turnToRunning session
  | .catchUp session => s.catchUpNext session
  | .crash session => s.setSession session .ended

def Step (s : Race) (act : Act) (s' : Race) : Prop :=
  (∀ scope body, act = .create scope body → body.Valid) ∧ s' = s.act act

end Race

end Smo.RanNfOam.Lifecycle
