import Mathlib.Data.List.Sort
import Mathlib.Data.String.Basic
import Smo.Lib.Runs
import Smo.Lib.Table
import Smo.Shared.StateMachine

/-! Onboarding of one element (`ran-nf-oam/app/lifecycle.py`): a template is selected, an apply commits
APPLYING, reads the template again and writes it as a config job, and ends in ONBOARDED or FAILED. The
row is versioned: a commit of what was loaded at another version fails. -/
namespace Smo.RanNfOam.Onboarding

inductive OnboardingState
  | discovered
  | noTemplate
  | templateSelected
  | applying
  | onboarded
  | failed
  deriving DecidableEq

inductive OnboardingEvent
  | templateMatched
  | noMatch
  | apply
  | applied
  | applyFailed
  deriving DecidableEq

/-- `build_onboarding_fsm` -/
def onboardingFsm : StateMachine OnboardingState OnboardingEvent where
  transitions :=
    ([.discovered, .noTemplate, .templateSelected, .onboarded, .failed].map
      (⟨·, .templateMatched, .templateSelected⟩)) ++
    ([.discovered, .noTemplate, .templateSelected, .onboarded, .failed].map
      (⟨·, .noMatch, .noTemplate⟩)) ++
    ([.templateSelected, .onboarded, .failed].map (⟨·, .apply, .applying⟩)) ++
    [⟨.applying, .applied, .onboarded⟩, ⟨.applying, .applyFailed, .failed⟩]

def fire (state : OnboardingState) (event : OnboardingEvent) : Option OnboardingState :=
  (onboardingFsm.fire state event).toOption

inductive SoftwareCheck
  | notChecked
  | match'
  | mismatch
  deriving DecidableEq

structure Template where
  name : String
  entityType : String
  vendorName : Option String := none
  softwareBaseline : Option String := none
  requireBaseline : Bool := false
  autoApply : Bool := false
  enabled : Bool := true
  deriving DecidableEq

/-- The element's row; `version` is the column that each commit of it raises. -/
structure ElementOnboarding where
  status : OnboardingState := .discovered
  templateName : Option String := none
  softwareVersion : Option String := none
  softwareBaseline : Option String := none
  softwareCheck : SoftwareCheck := .notChecked
  configJobId : Option Nat := none
  version : Nat := 0
  deriving DecidableEq

/-- A config job of an apply, and how it ended: COMPLETED or not. `entry` is history: the transition
into APPLYING that it was started for. -/
structure Job where
  entry : Nat
  completed : Option Bool := none
  deriving DecidableEq

/-- What `_execute_write` does: it refuses or raises before a job ends, or a job ends. -/
inductive Outcome
  | refused
  | ended (completed : Bool)
  deriving DecidableEq

/-- A select names a template or matches one; an apply is asked for, or is a first heartbeat's. -/
inductive Request
  | register (softwareVersion : Option String)
  | select (name softwareVersion : Option String)
  | apply (softwareVersion : Option String)
  | heartbeat
  deriving DecidableEq

/-- How far a call is. From `applying` on the row is in APPLYING for it. -/
inductive Stage
  | begun (request : Request)
  | loaded (request : Request) (row : Option ElementOnboarding)
  | applying (name : String) (entry : Nat)
  | reloaded (template : Template) (entry : Nat)
  | running (job entry : Nat)
  | failing (entry : Nat)
  | ended
  deriving DecidableEq

def Stage.active : Stage → Bool
  | .applying _ _ | .reloaded _ _ | .running _ _ | .failing _ => true
  | _ => false

/-- The element, its row, the templates, the calls and the jobs; `entries` counts the transitions into
APPLYING. -/
structure State where
  entityType : String
  vendorName : Option String := none
  row : Option ElementOnboarding := none
  templates : List Template := []
  calls : List Stage := []
  jobs : List Job := []
  entries : Nat := 0
  deriving DecidableEq

inductive Act
  | arrive (request : Request)
  | putTemplate (template : Template)
  | deleteTemplate (name : String)
  | load (i : Nat)
  | commit (i : Nat)
  | reload (i : Nat)
  | write (i : Nat)
  | finish (i : Nat) (outcome : Outcome)
  | fail (i : Nat)
  deriving DecidableEq

namespace State

def template (s : State) (name : String) : Option Template := Table.get Template.name s.templates name

def call (s : State) (i : Nat) (stage : Stage) : State := { s with calls := s.calls.set i stage }

def fitsBefore (t t' : Template) : Prop :=
  t.vendorName.isNone < t'.vendorName.isNone ∨
    t.vendorName.isNone = t'.vendorName.isNone ∧ t.name ≤ t'.name

instance : DecidableRel fitsBefore := fun _ _ => inferInstanceAs (Decidable (_ ∨ _))

/-- `_matching_template` -/
def matchingTemplate (s : State) : Option Template :=
  let fits := s.templates.filter fun t =>
    t.enabled && t.entityType = s.entityType && (t.vendorName.isNone || t.vendorName = s.vendorName)
  (fits.insertionSort fitsBefore).head?

end State

/-- `_check_baseline` -/
def checkBaseline (row : ElementOnboarding) (template : Option Template) (version : Option String) :
    ElementOnboarding :=
  let softwareVersion := version.or row.softwareVersion
  let softwareBaseline := template.bind Template.softwareBaseline
  { row with
    softwareVersion
    softwareBaseline
    softwareCheck :=
      if softwareBaseline.isNone || softwareVersion.isNone then .notChecked
      else if softwareBaseline = softwareVersion then .match'
      else .mismatch }

namespace State

/-- The template of a select: the named one, which has to be of the element's type, or the best match.
The outer `none` is a refusal. -/
def chosen (s : State) : Option String → Option (Option Template)
  | none => some s.matchingTemplate
  | some name =>
    match s.template name with
    | none => none
    | some t => if t.entityType = s.entityType then some (some t) else none

/-- `_select` -/
def selected (s : State) (row : ElementOnboarding) (name version : Option String) :
    Option ElementOnboarding := do
  let template ← s.chosen name
  let status ← fire row.status (if template.isSome then .templateMatched else .noMatch)
  return checkBaseline { row with status, templateName := template.map Template.name, configJobId := none }
    template version

/-- The row that an apply commits, with the template it found; `none` is a refusal. -/
def applied (s : State) (row : ElementOnboarding) (version : Option String) :
    Option (Template × ElementOnboarding) := do
  let status ← fire row.status .apply
  let template ← row.templateName.bind s.template
  return (template, checkBaseline { row with status, configJobId := none } (some template) version)

/-- `on_first_heartbeat` goes on. -/
def autoApplies (s : State) (row : ElementOnboarding) : Bool :=
  row.status = .templateSelected &&
    (row.templateName.bind s.template).any fun t => t.autoApply && t.enabled

def store (s : State) (row : ElementOnboarding) : State :=
  { s with row := some { row with version := row.version + 1 } }

def current (s : State) (loaded : ElementOnboarding) : Bool := s.row.any (·.version = loaded.version)

def commitApply (s : State) (i : Nat) (loaded : ElementOnboarding) (version : Option String) : State :=
  match s.applied loaded version with
  | none => s.call i .ended
  | some (template, row) =>
    if s.current loaded then
      { (s.store row).call i (.applying template.name s.entries) with entries := s.entries + 1 }
    else s.call i .ended

/-- The commit of a select or a registration; a new row collides with one that is there. -/
def commitSelect (s : State) (i : Nat) (loaded : Option ElementOnboarding) (name version : Option String) :
    State :=
  match s.selected (loaded.getD {}) name version with
  | none => s.call i .ended
  | some row =>
    if (if loaded.isSome then s.current row else s.row.isNone) then (s.store row).call i .ended
    else s.call i .ended

def act (s : State) : Act → Option State
  | .arrive request => some { s with calls := s.calls ++ [.begun request] }
  | .putTemplate t => some { s with templates := s.templates.filter (·.name ≠ t.name) ++ [t] }
  | .deleteTemplate name => some { s with templates := s.templates.filter (·.name ≠ name) }
  | .load i =>
    match s.calls[i]? with
    | some (.begun request) => some (s.call i (.loaded request s.row))
    | _ => none
  | .commit i =>
    match s.calls[i]? with
    | some (.loaded (.register version) none) =>
      if s.templates.any Template.enabled then some (s.commitSelect i none none version)
      else some (s.call i .ended)
    | some (.loaded (.select name version) loaded) => some (s.commitSelect i loaded name version)
    | some (.loaded (.apply version) (some loaded)) => some (s.commitApply i loaded version)
    | some (.loaded .heartbeat (some loaded)) =>
      if s.autoApplies loaded then some (s.commitApply i loaded none) else some (s.call i .ended)
    | some (.loaded _ _) => some (s.call i .ended)
    | _ => none
  | .reload i =>
    match s.calls[i]? with
    | some (.applying name entry) =>
      match s.template name with
      | some template => some (s.call i (.reloaded template entry))
      | none => some (s.call i .ended)
    | _ => none
  | .write i =>
    match s.calls[i]?, s.row with
    | some (.reloaded template entry), some row =>
      if template.requireBaseline && row.softwareCheck ≠ .match' then some (s.call i (.failing entry))
      else some { s.call i (.running s.jobs.length entry) with jobs := s.jobs ++ [{ entry }] }
    | _, _ => none
  | .finish i outcome =>
    match s.calls[i]?, s.row with
    | some (.running job entry), some row =>
      match outcome with
      | .refused => some (s.call i (.failing entry))
      | .ended completed =>
        let s := { s with jobs := s.jobs.set job { entry, completed := some completed } }
        let row := { row with configJobId := some job }
        if completed then
          (fire row.status .applied).map fun status => (s.store { row with status }).call i .ended
        else some ((s.store row).call i (.failing entry))
    | _, _ => none
  | .fail i =>
    match s.calls[i]?, s.row with
    | some (.failing _), some row =>
      (fire row.status .applyFailed).map fun status => (s.store { row with status }).call i .ended
    | _, _ => none

def Step (s : State) (label : Act) (s' : State) : Prop := s.act label = some s'

/-- The template was deleted between the commit of APPLYING and the read that follows it. -/
def lapses (s : State) : Act → Bool
  | .reload i =>
    match s.calls[i]? with
    | some (.applying name _) => (s.template name).isNone
    | _ => false
  | _ => false

end State

end Smo.RanNfOam.Onboarding
