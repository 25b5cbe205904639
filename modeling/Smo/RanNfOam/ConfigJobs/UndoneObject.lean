import Mathlib.Data.List.Chain
import Smo.RanNfOam.ConfigJobs.UndoPlan

/-! What undoing the applied sub-changes of one object makes of it. -/
namespace Smo.RanNfOam.ConfigObjects

open EditConfig ConfigJobs

def Becomes (start : Option Texts) (entries : List Applied) (finish : Option Texts) : Prop :=
  (entries.map (·.sub.row.change)).foldlM editObject start = .ok finish

def undone (site : Site) (entries : List Applied) (finish : Option Texts) :
    Except String (Option Texts) :=
  (entries.map (·.undo site)).reverse.foldlM editObject finish

def Applied.settles (entry : Applied) (name : String) : Bool :=
  match entry.operation with
  | .merge | .replace => name ∈ entry.sub.names
  | .create | .delete | .remove => true

/-- An object that is deleted is created again by the next sub-change of it, if there is one. -/
def Recreated (entries : List Applied) : Prop :=
  entries.IsChain fun entry later => entry.Removes → later.operation = .create

section Object

variable {site : Site} {entry : Applied} {entries : List Applied}
  {start finish object object' : Option Texts} {name : String}

theorem becomes_cons : Becomes start (entry :: entries) finish ↔
    ∃ mid, editObject start entry.sub.row.change = .ok mid ∧ Becomes mid entries finish := by
  unfold Becomes
  rw [List.map_cons, List.foldlM_cons]
  cases editObject start entry.sub.row.change with
  | error tag => simp [Bind.bind, Except.bind]
  | ok mid => simp [Bind.bind, Except.bind]

theorem becomes_append {more : List Applied} : Becomes start (entries ++ more) finish ↔
    ∃ mid, Becomes start entries mid ∧ Becomes mid more finish := by
  induction entries generalizing start with
  | nil => simp [Becomes, pure, Except.pure]
  | cons entry rest ih =>
    rw [List.cons_append]
    constructor
    · intro all
      obtain ⟨first, edited, others⟩ := becomes_cons.mp all
      obtain ⟨mid, front, back⟩ := ih.mp others
      exact ⟨mid, becomes_cons.mpr ⟨first, edited, front⟩, back⟩
    · rintro ⟨mid, all, back⟩
      obtain ⟨first, edited, front⟩ := becomes_cons.mp all
      exact becomes_cons.mpr ⟨first, edited, ih.mpr ⟨mid, front, back⟩⟩

theorem undone_cons : undone site (entry :: entries) finish =
    (undone site entries finish >>= fun object => editObject object (entry.undo site)) := by
  unfold undone
  rw [List.map_cons, List.reverse_cons, List.foldlM_append]
  simp

theorem undone_cons_ok : undone site (entry :: entries) finish = .ok object' ↔
    ∃ object, undone site entries finish = .ok object ∧
      editObject object (entry.undo site) = .ok object' := by
  rw [undone_cons]
  cases undone site entries finish with
  | error tag => simp [Bind.bind, Except.bind]
  | ok object => simp [Bind.bind, Except.bind]

theorem editObject_undo : editObject object (entry.undo site) = .ok object' ↔
    match entry.operation with
    | .merge | .replace =>
      object' = some (overlaid (object.getD []) (written (entry.restored site)))
    | .create => object.isSome ∧ object' = none
    | .delete | .remove => object = none ∧ object' = some (overlaid [] (written (entry.before site))) := by
  unfold Applied.undo editObject editRecord
  cases entry.operation <;> cases object <;>
    simp [operationOf, Except.mapError, @eq_comm _ object']

theorem undone_isSome (ok : undone site (entry :: entries) finish = .ok object) :
    object.isSome ↔ entry.operation ≠ .create := by
  obtain ⟨later, _, edited⟩ := undone_cons_ok.mp ok
  have effect := editObject_undo.mp edited
  cases is : entry.operation <;> rw [is] at effect <;> simp [effect]

theorem undone_left (becomes : Becomes start entries finish)
    (ok : undone site entries finish = .ok object) :
    object.isSome ↔ (entries = [] ∧ start.isSome) ∨
      ∃ first ∈ entries.head?, first.operation ≠ .create := by
  cases entries with
  | nil =>
    cases ok
    cases becomes
    simp
  | cons entry rest => simp [undone_isSome ok]

theorem undone_accepted (becomes : Becomes start entries finish) :
    (∃ object, undone site entries finish = .ok object) ↔ Recreated entries := by
  induction entries generalizing start with
  | nil => exact ⟨fun _ => .nil, fun _ => ⟨finish, rfl⟩⟩
  | cons entry rest ih =>
    obtain ⟨mid, edited, later⟩ := becomes_cons.mp becomes
    have effect := (editObject_iff entry.sub).mp edited
    have rests := ih later
    have chain : Recreated (entry :: rest) ↔
        (∀ next ∈ rest.head?, entry.Removes → next.operation = .create) ∧ Recreated rest := by
      unfold Recreated
      cases rest with
      | nil => simp
      | cons next rest => simp [List.isChain_cons_cons]
    rw [chain, ← rests]
    have stays (keeps : ¬entry.Removes) (goes : ∀ object, undone site rest finish = .ok object →
          ∃ object', editObject object (entry.undo site) = .ok object') :
        (∃ object, undone site (entry :: rest) finish = .ok object) ↔
          (∀ next ∈ rest.head?, entry.Removes → next.operation = .create) ∧
            ∃ object, undone site rest finish = .ok object := by
      constructor
      · rintro ⟨object', ok⟩
        obtain ⟨object, before, _⟩ := undone_cons_ok.mp ok
        exact ⟨fun _ _ removes => absurd removes keeps, object, before⟩
      · rintro ⟨_, object, before⟩
        obtain ⟨object', after⟩ := goes object before
        exact ⟨object', undone_cons_ok.mpr ⟨object, before, after⟩⟩
    cases is : entry.operation with
    | merge | replace =>
      refine stays (by simp [Applied.Removes, is]) fun object _ => ?_
      exact ⟨_, editObject_undo.mpr (by rw [is])⟩
    | create =>
      refine stays (by simp [Applied.Removes, is]) fun object ok => ?_
      rw [show entry.sub.operation = .create from is] at effect
      have there : object.isSome := by
        refine (undone_left later ok).mpr ?_
        cases rest with
        | nil => exact .inl ⟨rfl, by simp [effect.2]⟩
        | cons next rest =>
          refine .inr ⟨next, rfl, fun create => ?_⟩
          obtain ⟨_, refused, _⟩ := becomes_cons.mp later
          have needs := (editObject_iff next.sub).mp refused
          rw [show next.sub.operation = .create from create, effect.2] at needs
          cases needs.1
      exact ⟨none, editObject_undo.mpr (by rw [is]; exact ⟨there, rfl⟩)⟩
    | delete | remove =>
      have removes : entry.Removes := by simp [Applied.Removes, is]
      have gone : mid = none := by
        rw [show entry.sub.operation = _ from is] at effect
        first
          | exact effect.2
          | exact effect
      constructor
      · rintro ⟨object', ok⟩
        obtain ⟨object, before, after⟩ := undone_cons_ok.mp ok
        have needs := editObject_undo.mp after
        rw [is] at needs
        refine ⟨fun next mem _ => Classical.byContradiction fun other => ?_, object, before⟩
        have there := (undone_left later before).mpr (.inr ⟨next, mem, other⟩)
        rw [needs.1] at there
        cases there
      · rintro ⟨created, object, before⟩
        have absent : object = none := by
          refine Option.not_isSome_iff_eq_none.mp fun there => ?_
          rcases (undone_left later before).mp there with ⟨_, some_⟩ | ⟨next, mem, other⟩
          · rw [gone] at some_
            cases some_
          · exact other (created next mem removes)
        exact ⟨_, undone_cons_ok.mpr ⟨object, before, editObject_undo.mpr (by rw [is]; exact ⟨absent, rfl⟩)⟩⟩

def Applied.givesBack (site : Site) (entry : Applied) (name : String) : Option String :=
  match entry.operation with
  | .merge | .replace => some (valueOf (entry.before site) name).str
  | .create => none
  | .delete | .remove => ((entry.before site).lookup name).map (·.str)

theorem held_undo (edited : editObject object (entry.undo site) = .ok object') :
    held object' name =
      if entry.settles name then entry.givesBack site name else held object name := by
  have effect := editObject_undo.mp edited
  unfold Applied.settles Applied.givesBack
  cases is : entry.operation with
  | merge | replace =>
    rw [is] at effect
    rw [effect, held_overlaid, Applied.restored, lookup_named entry.attributes]
    by_cases named : name ∈ entry.sub.names
    · have mem : name ∈ entry.attributes.map (·.1) := named
      simp [mem, named]
    · have absent : name ∉ entry.attributes.map (·.1) := named
      simp only [absent, if_false, Option.map_none, Option.none_or, named, decide_false,
        Bool.false_eq_true]
  | create =>
    rw [is] at effect
    rw [effect.2]
    rfl
  | delete | remove =>
    rw [is] at effect
    have created : held object' name = ((entry.before site).lookup name).map (·.str) := by
      have overlaid := held_overlaid none (entry.before site) name
      rw [effect.2]
      simpa [held] using overlaid
    rw [created]
    rfl

theorem undone_held (ok : undone site entries finish = .ok object) (name : String) :
    held object name =
      match entries.find? (·.settles name) with
      | none => held finish name
      | some entry => entry.givesBack site name := by
  induction entries generalizing object with
  | nil =>
    cases ok
    rfl
  | cons entry rest ih =>
    obtain ⟨mid, before, edited⟩ := undone_cons_ok.mp ok
    rw [held_undo edited, List.find?_cons]
    cases entry.settles name with
    | true => rfl
    | false => exact ih before

theorem held_edit (unsettled : entry.settles name = false)
    (edited : editObject object entry.sub.row.change = .ok object') :
    held object' name = if entry.operation = .replace then none else held object name := by
  have effect := (editObject_iff entry.sub).mp edited
  unfold Applied.settles at unsettled
  cases is : entry.operation with
  | merge | replace =>
    rw [is] at unsettled
    rw [show entry.sub.operation = _ from is] at effect
    have absent : entry.attributes.lookup name = none := by
      refine List.lookup_eq_none_iff.mpr fun pair mem => ?_
      have named : pair.1 ∈ entry.sub.names := List.mem_map_of_mem mem
      have other : name ≠ pair.1 := by
        rintro rfl
        simp [named] at unsettled
      simpa using other
    first
      | rw [effect, held_overlaid, absent]
        simp
      | have overlaid := held_overlaid none entry.attributes name
        rw [absent] at overlaid
        rw [effect]
        simpa [held] using overlaid
  | create | delete | remove =>
    rw [is] at unsettled
    cases unsettled

theorem becomes_unsettled (becomes : Becomes start entries finish)
    (unsettled : entries.find? (·.settles name) = none) :
    held finish name =
      if ∃ entry ∈ entries, entry.operation = .replace then none else held start name := by
  induction entries generalizing start with
  | nil =>
    cases becomes
    simp
  | cons entry rest ih =>
    obtain ⟨mid, edited, later⟩ := becomes_cons.mp becomes
    rw [List.find?_cons] at unsettled
    cases here : entry.settles name with
    | true =>
      rw [here] at unsettled
      cases unsettled
    | false =>
      rw [here] at unsettled
      rw [ih later unsettled, held_edit here edited]
      by_cases replaced : entry.operation = .replace
      · simp [replaced]
      · simp [replaced]

theorem becomes_created (becomes : Becomes start entries finish)
    (found : entries.find? (·.settles name) = some entry) (create : entry.operation = .create) :
    start = none := by
  induction entries generalizing start with
  | nil => cases found
  | cons first rest ih =>
    obtain ⟨mid, edited, later⟩ := becomes_cons.mp becomes
    have effect := (editObject_iff first.sub).mp edited
    rw [List.find?_cons] at found
    cases here : first.settles name with
    | true =>
      rw [here] at found
      cases found
      rw [show entry.sub.operation = .create from create] at effect
      exact effect.1
    | false =>
      rw [here] at found
      have gone := ih later found
      unfold Applied.settles at here
      cases is : first.operation with
      | merge | replace =>
        rw [show first.sub.operation = _ from is, gone] at effect
        cases effect
      | create | delete | remove =>
        rw [is] at here
        cases here

def SameObject (object object' : Option Texts) : Prop :=
  (object.isSome ↔ object'.isSome) ∧ ∀ name, held object name = held object' name

/-- Before the change that takes the object away it read, under the name, as at the start,
and the change does not leave the name out of the before image or bring another one in. -/
def Applied.Pictures (site : Site) (entry : Applied) (start : Option Texts) (name : String) : Prop :=
  match held start name with
  | none => name ∉ entry.sub.names
  | some text =>
    if entry.attributes = [] then Shows (entry.protocol site) entry.read name text
    else name ∈ entry.sub.names ∧ prints (entry.protocol site) entry.read name = text

/-- The object was there or is created first. Each attribute it had is named by a merge or a
replace before the object is first created or deleted, or, when there is no such change, no
replace takes it away, or it is in the before image of that change. -/
def PutBack (site : Site) (start : Option Texts) (entries : List Applied) : Prop :=
  (∀ first ∈ entries.head?, first.operation ≠ .create → start.isSome) ∧
  ∀ name,
    match entries.find? (·.settles name) with
    | none => (∃ entry ∈ entries, entry.operation = .replace) → held start name = none
    | some entry => entry.Removes → entry.Pictures site start name

/-- What was read of the object before a change that nothing settled before is as it was at
the start, or was taken away since. -/
def ReadBefore (start : Option Texts) (entries : List Applied) : Prop :=
  ∀ name entry, entries.find? (·.settles name) = some entry →
    held entry.read name = none ∨ held entry.read name = held start name

theorem lookup_before_all (nothing : entry.attributes = []) :
    ((entry.before site).lookup name).map (·.str) =
      (held entry.read name).map fun text => (readText (entry.protocol site) text).str := by
  unfold Applied.before imageOf
  rw [if_pos nothing, lookup_readAttributes, Option.map_map]
  cases entry.read <;> rfl

theorem pictures_iff (seen : held entry.read name = none ∨ held entry.read name = held start name) :
    ((entry.before site).lookup name).map (·.str) = held start name ↔
      entry.Pictures site start name := by
  unfold Applied.Pictures
  by_cases nothing : entry.attributes = []
  · have unnamed : name ∉ entry.sub.names := by
      unfold SubChange.names
      rw [show entry.sub.row.attributeChanges = [] from nothing]
      exact List.not_mem_nil
    rw [lookup_before_all nothing]
    cases had : held start name with
    | none =>
      rw [had, or_self] at seen
      simp [seen, unnamed]
    | some text =>
      simp only [nothing, if_true, Shows]
      rw [had] at seen
      rcases seen with unseen | same
      · simp [unseen]
      · simp [same, readText_str]
  · have image := @lookup_image name entry.sub nothing
      (readAttributes (entry.protocol site) (entry.read.getD []))
    unfold Applied.before
    rw [image]
    by_cases named : name ∈ entry.sub.names
    · cases held start name with
      | none => simp [named]
      | some text => simp [named, nothing, prints]
    · cases held start name with
      | none => simp [named]
      | some text => simp [named, nothing]

theorem givesBack_iff (becomes : Becomes start entries finish) (reads : ReadBefore start entries)
    (recorded : ∀ entry ∈ entries, ¬entry.Unrecorded site)
    (found : entries.find? (·.settles name) = some entry) :
    entry.givesBack site name = held start name ↔
      (entry.Removes → entry.Pictures site start name) := by
  have seen := reads name entry found
  have settles : entry.settles name = true := by simpa using List.find?_some found
  have known := recorded entry (List.mem_of_find?_eq_some found)
  unfold Applied.Unrecorded at known
  unfold Applied.settles at settles
  unfold Applied.givesBack
  cases is : entry.operation with
  | merge | replace =>
    rw [is] at settles known
    have keeps : ¬entry.Removes := by simp [Applied.Removes, is]
    have named : name ∈ entry.sub.names := by simpa using settles
    obtain ⟨text, shows_⟩ : ∃ text, Shows (entry.protocol site) entry.read name text :=
      Classical.byContradiction fun unseen => known (.inr ⟨name, named, unseen⟩)
    have same : held start name = some text := by
      rw [shows_.1] at seen
      exact (seen.resolve_left (Option.some_ne_none text)).symm
    simp [keeps, valueOf_before named, valueOf_shows shows_, Value.str, same]
  | create =>
    have keeps : ¬entry.Removes := by simp [Applied.Removes, is]
    simp [keeps, becomes_created becomes found is, held]
  | delete | remove =>
    have removes : entry.Removes := by simp [Applied.Removes, is]
    simp only [removes, forall_const]
    exact pictures_iff seen

theorem put_back (becomes : Becomes start entries finish) (reads : ReadBefore start entries)
    (recorded : ∀ entry ∈ entries, ¬entry.Unrecorded site)
    (ok : undone site entries finish = .ok object) :
    SameObject object start ↔ PutBack site start entries := by
  have there : (object.isSome ↔ start.isSome) ↔
      ∀ first ∈ entries.head?, first.operation ≠ .create → start.isSome := by
    rw [undone_left becomes ok]
    cases entries with
    | nil => simp
    | cons first rest =>
      by_cases create : first.operation = .create
      · have gone := @becomes_created first (first :: rest) start finish "" becomes
          (by simp [Applied.settles, create]) create
        simp [create, gone]
      · simp [create]
  unfold SameObject PutBack
  rw [there]
  refine and_congr_right fun _ => forall_congr' fun name => ?_
  rw [undone_held ok name]
  cases found : entries.find? (·.settles name) with
  | none =>
    rw [becomes_unsettled becomes found]
    by_cases replaced : ∃ entry ∈ entries, entry.operation = .replace
    · simp only [replaced, if_true, forall_const]
      exact eq_comm
    · simp only [replaced, if_false, false_imp_iff]
  | some entry => exact givesBack_iff becomes reads recorded found

end Object

end Smo.RanNfOam.ConfigObjects
