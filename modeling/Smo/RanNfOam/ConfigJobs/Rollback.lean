import Smo.RanNfOam.ConfigJobs.Waves

/-! The undo of a job from its snapshots, and what was changed since the job wrote it. -/
namespace Smo.RanNfOam.ConfigJobs

abbrev Target := String × Option String

/-- What each target should hold now, `none` for an object that was deleted. -/
abbrev Expected := List (Target × Option Attributes)

/-- `expected[target] = values`. -/
def expect (expected : Expected) (target : Target) (values : Option Attributes) : Expected :=
  if (expected.lookup target).isSome then
    expected.map fun (known, old) => (known, if known = target then values else old)
  else expected ++ [(target, values)]

/-- `{**(expected.get(target) or {}), **after}`. -/
def laidOver (expected : Expected) (target : Target) (after : Attributes) : Option Attributes :=
  some (merged (((expected.lookup target).getD none).getD []) after)

/-- The changes that undo a job, what each target should hold now, and what makes the undo
impossible. -/
structure Plan where
  undo : List Change := []
  expected : Expected := []
  problems : List String := []
  deriving DecidableEq, Repr

def Plan.problem (plan : Plan) (text : String) : Plan :=
  { plan with problems := plan.problems ++ [text] }

/-- The loop of `_rollback_plan`, one snapshot after the other. -/
def undoSnapshot (plan : Plan) (row : WriteConfigSubChange) (snapshot : CMSnapshot) : Plan :=
  let function := row.managedFunctionRef.filter (· ≠ "")
  let target := (row.managedElementRef, row.managedFunctionRef)
  let after := snapshot.after.getD []
  if snapshot.operation = "merge" ∨ snapshot.operation = "replace" then
    match snapshot.before with
    | none =>
      let why := snapshot.beforeError.getD "not recorded"
      plan.problem s!"{row.label}: no before image ({why})"
    | some before =>
      let absent := (after.map (·.1)).filter fun name => valueOf before name = .null
      if absent ≠ [] then
        let shown := ", ".intercalate (absent.insertionSort (· ≤ ·))
        plan.problem s!"{row.label}: {shown} had no value before the write, which cannot be restored"
      else
        { plan with
          undo := ⟨row.managedElementRef, function,
            after.map fun (name, _) => (name, valueOf before name), "merge"⟩ :: plan.undo
          expected := expect plan.expected target (laidOver plan.expected target after) }
  else if snapshot.operation = "create" then
    { plan with
      undo := ⟨row.managedElementRef, function, [], "delete"⟩ :: plan.undo
      expected := expect plan.expected target (laidOver plan.expected target after) }
  else if snapshot.operation = "delete" ∨ snapshot.operation = "remove" then
    match snapshot.before with
    | none => plan.problem s!"{row.label}: the deleted object's values were not recorded"
    | some [] => plan.problem s!"{row.label}: the deleted object's values were not recorded"
    | some before =>
      { plan with
        undo := ⟨row.managedElementRef, function, before, "create"⟩ :: plan.undo
        expected := expect plan.expected target none }
  else plan.problem s!"{row.label}: no way to undo a '{snapshot.operation}' write"

/-- The applied sub-changes that have a snapshot, of the elements asked for, in the order
their snapshots were taken: wave after wave. -/
def undoable (jr : JobRows) (elements : Option (List String)) :
    List (WriteConfigSubChange × CMSnapshot) :=
  let applied := jr.rows.filter fun row =>
    row.status = .applied && elements.all (·.contains row.managedElementRef)
  (applied.insertionSort (·.wave ≤ ·.wave)).filterMap
    fun row => row.snapshot.map fun snapshot => (row, snapshot)

def rollbackPlan (jr : JobRows) (elements : Option (List String) := none) : Plan :=
  match undoable jr elements with
  | [] => { problems := ["the job applied nothing that has a snapshot (nothing was applied, snapshots are off, or they were purged)"] }
  | rows => rows.foldl (fun plan entry => undoSnapshot plan entry.1 entry.2) {}

structure Difference where
  managedElementRef : String
  managedFunctionRef : Option String
  attributeName : Option String
  expected : String
  actual : String
  deriving DecidableEq, Repr

section Reading

variable {σ : Type} (o1 : O1Clients σ) (site : Site) (network : σ)

def unread (target : Target) (want : Option Attributes) : Difference :=
  ⟨target.1, target.2, none, (want.map reprOf).getD "None", "None"⟩

def differences (target : Target) (want : Option Attributes) : List Difference :=
  match (site.registry.get? target.1).bind fun me => me.endpoint.map fun endpoint => (me, endpoint) with
  | none => [unread target want]
  | some (me, endpoint) =>
    if o1Client me.o1Protocol = none then [unread target want]
    else
      match o1.sendGet network me endpoint ⟨target.1, target.2, [], "merge"⟩, want with
      | .values current, some values =>
        (values.filter fun (name, value) => (valueOf current name).str ≠ value.str).map
          fun (name, value) => ⟨target.1, target.2, some name, value.repr, (valueOf current name).repr⟩
      | .values [], none => []
      | .values current, none => [⟨target.1, target.2, none, "None", reprOf current⟩]
      | _, _ => [unread target want]

/-- `_changed_since`. -/
def changedSince (expected : Expected) : List Difference :=
  expected.flatMap fun (target, want) => differences o1 site network target want

end Reading

end Smo.RanNfOam.ConfigJobs
