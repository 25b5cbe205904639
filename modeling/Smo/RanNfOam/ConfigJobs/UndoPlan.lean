import Smo.RanNfOam.ConfigJobs.Objects

/-! The undo of a job over the objects it wrote: when its snapshots allow one, and what
applying the undo leaves of each object. -/
namespace Smo.RanNfOam.ConfigObjects

open EditConfig ConfigJobs

def prints (protocol : String) (object : Option Texts) (name : String) : String :=
  (valueOf (readAttributes protocol (object.getD [])) name).str

def Shows (protocol : String) (object : Option Texts) (name text : String) : Prop :=
  held object name = some text ∧ ¬(protocol = "NETCONF" ∧ text = "")

namespace Applied

variable (site : Site) (entry : Applied)

abbrev operation : Operation := entry.sub.operation

abbrev attributes : Attributes := entry.sub.row.attributeChanges

abbrev protocol : String := protocolOf site entry.sub.target

def Removes : Prop := entry.operation = .delete ∨ entry.operation = .remove

instance : Decidable entry.Removes := inferInstanceAs (Decidable (_ ∨ _))

/-- The object of the change could not be read, or what the undo of the change would write
was not there. -/
def Unrecorded : Prop :=
  match entry.operation with
  | .merge | .replace =>
    (entry.read = none ∧ entry.protocol site ≠ "NETCONF") ∨
      ∃ name ∈ entry.sub.names, ¬∃ text, Shows (entry.protocol site) entry.read name text
  | .create => False
  | .delete | .remove =>
    (entry.read = none ∧ entry.protocol site ≠ "NETCONF") ∨
      entry.attributes = [] ∧ entry.read.getD [] = []

def before : Attributes :=
  imageOf entry.sub (readAttributes (entry.protocol site) (entry.read.getD []))

def restored : Attributes :=
  entry.attributes.map fun (name, _) => (name, valueOf (entry.before site) name)

def undo : Change :=
  let function := entry.sub.row.managedFunctionRef.filter (· ≠ "")
  match entry.operation with
  | .merge | .replace => ⟨entry.sub.row.managedElementRef, function, entry.restored site, "merge"⟩
  | .create => ⟨entry.sub.row.managedElementRef, function, [], "delete"⟩
  | .delete | .remove => ⟨entry.sub.row.managedElementRef, function, entry.before site, "create"⟩

def expects (expected : Expected) : Expected :=
  expect expected entry.sub.target
    (if entry.Removes then none else laidOver expected entry.sub.target entry.attributes)

end Applied

section Reading

variable {protocol : String} {object : Option Texts} {name text : String}

theorem lookup_readAttributes (object : Texts) :
    (readAttributes protocol object).lookup name = (object.lookup name).map (readText protocol) := by
  induction object with
  | nil => rfl
  | cons entry rest ih =>
    obtain ⟨known, text⟩ := entry
    simp only [readAttributes, List.map_cons, List.lookup_cons]
    cases name == known
    · exact ih
    · rfl

theorem valueOf_read : valueOf (readAttributes protocol (object.getD [])) name =
    ((held object name).map (readText protocol)).getD .null := by
  unfold valueOf
  rw [lookup_readAttributes]
  cases object <;> rfl

theorem readText_null : readText protocol text = .null ↔ protocol = "NETCONF" ∧ text = "" := by
  unfold readText
  split <;> simp [*]

theorem valueOf_shows (shows_ : Shows protocol object name text) :
    valueOf (readAttributes protocol (object.getD [])) name = .text text := by
  rw [valueOf_read, shows_.1, Option.map_some, Option.getD_some]
  unfold readText
  rw [if_neg shows_.2]

theorem valueOf_null : valueOf (readAttributes protocol (object.getD [])) name = .null ↔
    ¬∃ text, Shows protocol object name text := by
  constructor
  · rintro null ⟨text, shows_⟩
    rw [valueOf_shows shows_] at null
    cases null
  · intro unseen
    rw [valueOf_read]
    cases has : held object name with
    | none => rfl
    | some text =>
      refine readText_null.mpr (Classical.byContradiction fun legible => unseen ⟨text, has, legible⟩)

theorem readText_str : (readText protocol text).str = text ↔ ¬(protocol = "NETCONF" ∧ text = "") := by
  unfold readText
  split
  · next empty =>
    rw [empty.2]
    simp [Value.str, empty.1]
  · next legible => simp [Value.str, legible]

theorem lookup_named (attributes : Attributes) (value : String → Value) :
    (attributes.map fun (name, _) => (name, value name)).lookup name =
      if name ∈ attributes.map (·.1) then some (value name) else none := by
  induction attributes with
  | nil => rfl
  | cons entry rest ih =>
    obtain ⟨known, old⟩ := entry
    simp only [List.map_cons, List.lookup_cons, List.mem_cons]
    by_cases same : name = known
    · simp [same]
    · have other : (name == known) = false := by simpa using same
      rw [other]
      simp only [ih, same, false_or]

theorem lookup_image {sub : SubChange} (named : sub.row.attributeChanges ≠ []) (current : Attributes) :
    (imageOf sub current).lookup name =
      if name ∈ sub.names then some (valueOf current name) else none := by
  unfold imageOf
  rw [if_neg named]
  exact lookup_named sub.row.attributeChanges (valueOf current)

end Reading

section Planning

variable {site : Site} {entry : Applied}

theorem captured_of_readable
    (readable : ¬(entry.read = none ∧ entry.protocol site ≠ "NETCONF")) :
    entry.captured site = (some (entry.before site), none) := by
  unfold Applied.captured Applied.before
  cases is : entry.read with
  | some object => rfl
  | none =>
    have netconf : protocolOf site entry.sub.target = "NETCONF" :=
      Classical.byContradiction fun other => readable ⟨is, other⟩
    simp [readObject, netconf, readAttributes]

theorem captured_of_unreadable (unread : entry.read = none)
    (other : entry.protocol site ≠ "NETCONF") :
    entry.captured site = (none, some "before-image read failed") := by
  unfold Applied.captured
  have failed : readObject (protocolOf site entry.sub.target) entry.read = .failed := by
    rw [unread]
    exact if_neg other
  rw [failed]

theorem valueOf_before {name : String} (named : name ∈ entry.sub.names) :
    valueOf (entry.before site) name =
      valueOf (readAttributes (entry.protocol site) (entry.read.getD [])) name := by
  have some_ : entry.attributes ≠ [] := by
    intro empty
    unfold SubChange.names at named
    rw [show entry.sub.row.attributeChanges = [] from empty] at named
    cases named
  have image := @lookup_image name entry.sub some_
    (readAttributes (entry.protocol site) (entry.read.getD []))
  rw [if_pos named] at image
  unfold Applied.before valueOf
  rw [image]
  rfl

theorem absent_iff : ((entry.attributes.map (·.1)).filter fun name =>
      valueOf (entry.before site) name = .null) ≠ [] ↔
    ∃ name ∈ entry.sub.names, ¬∃ text, Shows (entry.protocol site) entry.read name text := by
  rw [Ne, List.filter_eq_nil_iff]
  constructor
  · intro absent
    obtain ⟨name, named, null⟩ : ∃ name ∈ entry.sub.names,
        valueOf (entry.before site) name = .null := by
      simpa [SubChange.names] using absent
    rw [valueOf_before named] at null
    exact ⟨name, named, valueOf_null.mp null⟩
  · rintro ⟨name, named, unseen⟩ each
    refine each name named (decide_eq_true ?_)
    rw [valueOf_before named]
    exact valueOf_null.mpr unseen

theorem before_nil : entry.before site = [] ↔
    entry.attributes = [] ∧ entry.read.getD [] = [] := by
  unfold Applied.before imageOf
  by_cases nothing : entry.sub.row.attributeChanges = []
  · simp [nothing, readAttributes]
  · simp [nothing]

theorem snapshot_after (keeps : ¬entry.Removes) :
    (entry.snapshot site).after.getD [] = entry.attributes := by
  have kept : (entry.snapshot site).after = some entry.attributes := if_neg keeps
  rw [kept]
  rfl

theorem snapshot_before (readable : ¬(entry.read = none ∧ entry.protocol site ≠ "NETCONF")) :
    (entry.snapshot site).before = some (entry.before site) := by
  unfold Applied.snapshot
  rw [captured_of_readable readable]

theorem snapshot_unread (unread : entry.read = none ∧ entry.protocol site ≠ "NETCONF") :
    (entry.snapshot site).before = none := by
  unfold Applied.snapshot
  rw [captured_of_unreadable unread.1 unread.2]

theorem undoSnapshot_recorded (recorded : ¬entry.Unrecorded site) (plan : Plan) :
    undoSnapshot plan (entry.settled site) (entry.snapshot site) =
      ⟨entry.undo site :: plan.undo, entry.expects plan.expected, plan.problems⟩ := by
  have asked : (entry.snapshot site).operation = operationText entry.operation := entry.sub.asked
  unfold Applied.Unrecorded at recorded
  unfold undoSnapshot
  rw [asked]
  cases is : entry.operation with
  | merge | replace =>
    rw [is] at recorded
    have keeps : ¬entry.Removes := by simp [Applied.Removes, is]
    have present : ((entry.attributes.map (·.1)).filter fun name =>
        valueOf (entry.before site) name = .null) = [] :=
      Classical.byContradiction fun absent => recorded (.inr (absent_iff.mp absent))
    rw [snapshot_after keeps, snapshot_before fun unread => recorded (.inl unread)]
    simp only [operationText, String.reduceEq, or_true, true_or, if_true, present, ne_eq,
      not_true_eq_false, if_false]
    simp [Applied.undo, Applied.expects, keeps, is, Applied.settled, settle, SubChange.target,
      Applied.restored]
  | create =>
    have keeps : ¬entry.Removes := by simp [Applied.Removes, is]
    rw [snapshot_after keeps]
    simp [operationText, Applied.undo, Applied.expects, keeps, is, Applied.settled, settle,
      SubChange.target]
  | delete | remove =>
    rw [is] at recorded
    have removes : entry.Removes := by simp [Applied.Removes, is]
    have full : entry.before site ≠ [] := fun empty => recorded (.inr (before_nil.mp empty))
    obtain ⟨first, rest, cons⟩ := List.exists_cons_of_ne_nil full
    rw [snapshot_before fun unread => recorded (.inl unread)]
    simp [operationText, Applied.undo, Applied.expects, removes, is, Applied.settled, settle,
      SubChange.target, cons]

theorem undoSnapshot_unrecorded (unrecorded : entry.Unrecorded site) (plan : Plan) :
    ∃ text, undoSnapshot plan (entry.settled site) (entry.snapshot site) = plan.problem text := by
  have asked : (entry.snapshot site).operation = operationText entry.operation := entry.sub.asked
  unfold Applied.Unrecorded at unrecorded
  unfold undoSnapshot
  rw [asked]
  cases is : entry.operation with
  | merge | replace =>
    rw [is] at unrecorded
    have keeps : ¬entry.Removes := by simp [Applied.Removes, is]
    rw [snapshot_after keeps]
    by_cases unread : entry.read = none ∧ entry.protocol site ≠ "NETCONF"
    · rw [snapshot_unread unread]
      exact ⟨_, rfl⟩
    · have absent := absent_iff.mpr (unrecorded.resolve_left unread)
      rw [snapshot_before unread]
      simp only [operationText, String.reduceEq, or_true, true_or, if_true, absent, ne_eq,
        not_false_eq_true]
      exact ⟨_, rfl⟩
  | create =>
    rw [is] at unrecorded
    exact unrecorded.elim
  | delete | remove =>
    rw [is] at unrecorded
    by_cases unread : entry.read = none ∧ entry.protocol site ≠ "NETCONF"
    · rw [snapshot_unread unread]
      exact ⟨_, rfl⟩
    · have empty : entry.before site = [] := before_nil.mpr (unrecorded.resolve_left unread)
      rw [snapshot_before unread, empty]
      exact ⟨_, rfl⟩

def planOf (site : Site) (plan : Plan) (entries : List Applied) : Plan where
  undo := (entries.map (·.undo site)).reverse ++ plan.undo
  expected := entries.foldl (fun expected entry => entry.expects expected) plan.expected
  problems := plan.problems

def undoAll (site : Site) (plan : Plan) (entries : List Applied) : Plan :=
  entries.foldl (fun plan entry =>
    undoSnapshot plan (entry.settled site) (entry.snapshot site)) plan

theorem undoAll_recorded (entries : List Applied) (plan : Plan)
    (recorded : ∀ entry ∈ entries, ¬entry.Unrecorded site) :
    undoAll site plan entries = planOf site plan entries := by
  induction entries generalizing plan with
  | nil => rfl
  | cons entry rest ih =>
    obtain ⟨first, others⟩ := List.forall_mem_cons.mp recorded
    unfold undoAll
    rw [List.foldl_cons, undoSnapshot_recorded first]
    have later := ih ⟨entry.undo site :: plan.undo, entry.expects plan.expected, plan.problems⟩ others
    unfold undoAll at later
    rw [later]
    simp [planOf]

theorem undoAll_problems (entries : List Applied) (plan : Plan) (some_ : plan.problems ≠ []) :
    (undoAll site plan entries).problems ≠ [] := by
  induction entries generalizing plan with
  | nil => exact some_
  | cons entry rest ih =>
    unfold undoAll
    rw [List.foldl_cons]
    apply ih
    by_cases recorded : entry.Unrecorded site
    · obtain ⟨text, is⟩ := undoSnapshot_unrecorded recorded plan
      rw [is]
      simp [Plan.problem]
    · rw [undoSnapshot_recorded recorded]
      exact some_

theorem undoAll_unrecorded (entries : List Applied) (plan : Plan)
    (unrecorded : ∃ entry ∈ entries, entry.Unrecorded site) :
    (undoAll site plan entries).problems ≠ [] := by
  induction entries generalizing plan with
  | nil =>
    obtain ⟨_, mem, _⟩ := unrecorded
    exact absurd mem List.not_mem_nil
  | cons entry rest ih =>
    unfold undoAll
    rw [List.foldl_cons]
    by_cases here : entry.Unrecorded site
    · obtain ⟨text, is⟩ := undoSnapshot_unrecorded here plan
      rw [is]
      exact undoAll_problems rest _ (by simp [Plan.problem])
    · obtain ⟨other, mem, lacks⟩ := unrecorded
      rcases List.mem_cons.mp mem with rfl | mem
      · exact absurd lacks here
      · exact ih _ ⟨other, mem, lacks⟩

end Planning

end Smo.RanNfOam.ConfigObjects
