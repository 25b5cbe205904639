import Smo.RanNfOam.ConfigJobs.UndoneObject

/-! What a job expects its objects to hold when it is undone, and what they hold. -/
namespace Smo.RanNfOam.ConfigObjects

open EditConfig ConfigJobs

namespace Applied

variable (entry : Applied)

/-- The value last named under a name since the object was last deleted, and whether a replace
that does not name it came after. -/
def claim (name : String) (claimed : Option (Value × Bool)) : Option (Value × Bool) :=
  if entry.Removes then none
  else
    match entry.attributes.lookup name with
    | some value => some (value, false)
    | none =>
      if entry.operation = .replace then claimed.map fun (value, _) => (value, true) else claimed

def wants (want : Option Attributes) : Option Attributes :=
  if entry.Removes then none else some (merged (want.getD []) entry.attributes)

end Applied

def claimed (entries : List Applied) (name : String) : Option (Value × Bool) :=
  entries.foldl (fun claimed entry => entry.claim name claimed) none

def wanted (entries : List Applied) : Option Attributes :=
  entries.foldl (fun want entry => entry.wants want) none

/-- An object that is deleted last can be read as such, and no attribute is taken away by a
later replace or, being empty, read as none. -/
def StillThere (protocol : String) (entries : List Applied) : Prop :=
  (∀ last ∈ entries.getLast?, last.Removes → protocol = "NETCONF") ∧
  ∀ name value dropped, claimed entries name = some (value, dropped) →
    if dropped then value.str = "None" else ¬(protocol = "NETCONF" ∧ value.str = "")

section Claims

variable {entry : Applied} {entries : List Applied} {start finish : Option Texts} {name : String}

theorem lookup_merged (attributes more : Attributes) :
    (merged attributes more).lookup name = (more.lookup name).or (attributes.lookup name) := by
  unfold merged
  have old : (attributes.map fun pair => (pair.1, (more.lookup pair.1).getD pair.2)).lookup name =
      (attributes.lookup name).map fun value => (more.lookup name).getD value := by
    induction attributes with
    | nil => rfl
    | cons pair rest ih =>
      obtain ⟨known, value⟩ := pair
      simp only [List.map_cons, List.lookup_cons]
      by_cases same : name = known
      · simp [same]
      · have other : (name == known) = false := by simpa using same
        rw [other]
        exact ih
  rw [List.lookup_append]
  refine (congrArg (Option.or · _) old).trans ?_
  cases had : attributes.lookup name with
  | none =>
    rw [Option.map_none, Option.none_or, lookup_filter_absent more attributes had, Option.or_none]
  | some value => cases more.lookup name <;> rfl

theorem merged_names (attributes more : Attributes) :
    (merged attributes more).map (·.1) = attributes.map (·.1) ++
      (more.map (·.1)).filter fun name => (attributes.lookup name).isNone := by
  unfold merged
  rw [List.map_append, List.map_map, List.filter_map]
  rfl

theorem merged_nodup {attributes more : Attributes} (old : (attributes.map (·.1)).Nodup)
    (new : (more.map (·.1)).Nodup) : ((merged attributes more).map (·.1)).Nodup := by
  rw [merged_names]
  refine List.Nodup.append old (new.filter _) fun name mem again => ?_
  have absent := (List.mem_filter.mp again).2
  rw [Option.isNone_iff_eq_none, List.lookup_eq_none_iff] at absent
  obtain ⟨pair, there, rfl⟩ := List.mem_map.mp mem
  have other := absent pair there
  simp at other

theorem claimed_append : claimed (entries ++ [entry]) name =
    entry.claim name (claimed entries name) := by
  simp [claimed]

theorem wanted_append : wanted (entries ++ [entry]) = entry.wants (wanted entries) := by
  simp [wanted]

theorem wanted_lookup (entries : List Applied) (name : String) :
    ((wanted entries).getD []).lookup name = (claimed entries name).map (·.1) := by
  induction entries using List.reverseRecOn with
  | nil => rfl
  | append_singleton entries entry ih =>
    rw [wanted_append, claimed_append]
    unfold Applied.wants Applied.claim
    by_cases removes : entry.Removes
    · simp [removes]
    · simp only [removes, if_false, Option.getD_some, lookup_merged, ih]
      cases entry.attributes.lookup name with
      | some value => rfl
      | none =>
        by_cases replaced : entry.operation = .replace
        · simp [replaced, Function.comp_def]
        · simp [replaced]

theorem wanted_nodup (entries : List Applied) : (((wanted entries).getD []).map (·.1)).Nodup := by
  induction entries using List.reverseRecOn with
  | nil => exact .nil
  | append_singleton entries entry ih =>
    rw [wanted_append]
    unfold Applied.wants
    split
    · exact .nil
    · exact merged_nodup ih entry.sub.keyed

theorem claimed_held (becomes : Becomes start entries finish) {value : Value} {dropped : Bool}
    (claims : claimed entries name = some (value, dropped)) :
    held finish name = if dropped then none else some value.str := by
  induction entries using List.reverseRecOn generalizing finish value dropped with
  | nil => cases claims
  | append_singleton entries entry ih =>
    obtain ⟨mid, before, last⟩ := becomes_append.mp becomes
    obtain ⟨_, edited, nil⟩ := becomes_cons.mp last
    cases nil
    rw [claimed_append] at claims
    unfold Applied.claim at claims
    have effect := (editObject_iff entry.sub).mp edited
    by_cases removes : entry.Removes
    · simp [removes] at claims
    · rw [if_neg removes] at claims
      cases named : entry.attributes.lookup name with
      | some new =>
        rw [named] at claims
        cases claims
        have merge := held_overlaid mid entry.attributes name
        have fresh := held_overlaid none entry.attributes name
        rw [named] at merge fresh
        cases is : entry.operation with
        | merge =>
          rw [show entry.sub.operation = .merge from is] at effect
          rw [effect, merge]
          rfl
        | replace =>
          rw [show entry.sub.operation = .replace from is] at effect
          rw [effect]
          exact fresh
        | create =>
          rw [show entry.sub.operation = .create from is] at effect
          rw [effect.2]
          exact fresh
        | delete => exact absurd (.inl is) removes
        | remove => exact absurd (.inr is) removes
      | none =>
        rw [named] at claims
        have merge := held_overlaid mid entry.attributes name
        have fresh := held_overlaid none entry.attributes name
        rw [named] at merge fresh
        cases is : entry.operation with
        | merge =>
          rw [show entry.sub.operation = .merge from is] at effect
          simp only [is, reduceCtorEq, if_false] at claims
          rw [effect, merge]
          exact ih before claims
        | replace =>
          rw [show entry.sub.operation = .replace from is] at effect
          obtain ⟨⟨old, was⟩, _, pair⟩ := by
            simpa only [is, if_true, Option.map_eq_some_iff] using claims
          cases pair
          rw [effect]
          exact fresh
        | create =>
          rw [show entry.sub.operation = .create from is] at effect
          simp only [is, reduceCtorEq, if_false] at claims
          have gone := ih before claims
          rw [effect.1] at gone
          rw [effect.2, ← gone]
          exact fresh
        | delete => exact absurd (.inl is) removes
        | remove => exact absurd (.inr is) removes

theorem finish_isSome (becomes : Becomes start (entries ++ [entry]) finish) :
    (wanted (entries ++ [entry])).isSome = finish.isSome ∧
      (finish = none ↔ entry.Removes) := by
  obtain ⟨mid, _, last⟩ := becomes_append.mp becomes
  obtain ⟨_, edited, nil⟩ := becomes_cons.mp last
  cases nil
  have effect := (editObject_iff entry.sub).mp edited
  rw [wanted_append]
  unfold Applied.wants
  cases is : entry.operation <;> rw [show entry.sub.operation = _ from is] at effect <;>
    simp [effect, Applied.Removes, is]

end Claims

section Reading

variable {site : Site} {network : Datastore} {target : Target} {me : ManagedEntity}
  {endpoint : O1AdaptorEndpoint} {entries : List Applied} {start : Option Texts}

theorem mem_iff_lookup {values : Attributes} (keyed : (values.map (·.1)).Nodup) (name : String)
    (value : Value) : (name, value) ∈ values ↔ values.lookup name = some value := by
  induction values with
  | nil => simp
  | cons pair rest ih =>
    obtain ⟨known, old⟩ := pair
    rw [List.map_cons, List.nodup_cons] at keyed
    rw [List.mem_cons, List.lookup_cons]
    by_cases same : name = known
    · subst same
      have absent : (name, value) ∉ rest := fun mem =>
        keyed.1 (List.mem_map_of_mem (f := (·.1)) mem)
      simp [absent, eq_comm]
    · have other : (name == known) = false := by simpa using same
      rw [other, ← ih keyed.2]
      simp [same]

theorem place_target (named : target.2 ≠ some "") (attributes : Attributes) (operation : String) :
    placeOf ⟨target.1, target.2, attributes, operation⟩ = target := by
  obtain ⟨element, function⟩ := target
  cases function with
  | none => rfl
  | some function =>
    have given : function ≠ "" := fun empty => named (by rw [empty])
    simp [placeOf, Option.filter, given]

theorem differences_read (registered : site.registry.get? target.1 = some me)
    (adaptor : me.endpoint = some endpoint) (spoken : o1Client me.o1Protocol ≠ none)
    (named : target.2 ≠ some "") (want : Option Attributes) :
    differences objectClients site network target want =
      match readObject me.o1Protocol (network target), want with
      | .values current, some values =>
        (values.filter fun (name, value) => (valueOf current name).str ≠ value.str).map
          fun (name, value) => ⟨target.1, target.2, some name, value.repr, (valueOf current name).repr⟩
      | .values [], none => []
      | .values current, none => [⟨target.1, target.2, none, "None", reprOf current⟩]
      | _, _ => [unread target want] := by
  unfold differences
  have read : objectClients.sendGet network me endpoint ⟨target.1, target.2, [], "merge"⟩ =
      readObject me.o1Protocol (network target) := by
    show readObject me.o1Protocol (network (placeOf _)) = _
    rw [place_target named]
  cases answer : readObject me.o1Protocol (network target) with
  | raised exc =>
    rw [answer] at read
    cases want <;>
      simp only [registered, Option.bind_some, adaptor, Option.map_some, spoken, if_false, read]
  | failed =>
    rw [answer] at read
    cases want <;>
      simp only [registered, Option.bind_some, adaptor, Option.map_some, spoken, if_false, read]
  | values current =>
    rw [answer] at read
    cases current <;> cases want <;>
      simp only [registered, Option.bind_some, adaptor, Option.map_some, spoken, if_false, read]

theorem differences_nil (registered : site.registry.get? target.1 = some me)
    (adaptor : me.endpoint = some endpoint) (spoken : o1Client me.o1Protocol ≠ none)
    (named : target.2 ≠ some "") (written_ : entries ≠ [])
    (becomes : Becomes start entries (network target)) :
    differences objectClients site network target (wanted entries) = [] ↔
      StillThere me.o1Protocol entries := by
  rw [differences_read registered adaptor spoken named]
  obtain ⟨front, last, rfl⟩ := (List.eq_nil_or_concat entries).resolve_left written_
  rw [List.concat_eq_append] at becomes ⊢
  obtain ⟨wants, gone⟩ := finish_isSome becomes
  have lookups := wanted_lookup (front ++ [last])
  have keyed := wanted_nodup (front ++ [last])
  unfold StillThere
  cases finish : network target with
  | none =>
    rw [finish] at wants gone becomes
    have removes : last.Removes := gone.mp rfl
    have nothing : wanted (front ++ [last]) = none := by simpa using wants
    rw [nothing] at lookups ⊢
    have unclaimed (name : String) : claimed (front ++ [last]) name = none := by
      have none_ := lookups name
      simpa using none_.symm
    by_cases netconf : me.o1Protocol = "NETCONF"
    · simp [readObject, netconf, unclaimed]
    · simp [readObject, netconf, unclaimed, removes]
  | some object =>
    rw [finish] at wants gone becomes
    have keeps : ¬last.Removes := fun removes => by cases gone.mpr removes
    obtain ⟨values, wanted_⟩ := Option.isSome_iff_exists.mp wants
    rw [wanted_] at lookups keyed ⊢
    simp only [Option.getD_some] at lookups keyed
    simp only [readObject, List.map_eq_nil_iff, List.filter_eq_nil_iff]
    have each (name : String) (value : Value) (dropped : Bool)
        (claims : claimed (front ++ [last]) name = some (value, dropped)) :
        (valueOf (readAttributes me.o1Protocol object) name).str = value.str ↔
          if dropped then value.str = "None"
          else ¬(me.o1Protocol = "NETCONF" ∧ value.str = "") := by
      have held_ := claimed_held becomes claims
      have value_ := @valueOf_read me.o1Protocol (some object) name
      rw [Option.getD_some] at value_
      rw [value_, held_]
      cases dropped with
      | true => exact eq_comm
      | false => simpa using readText_str
    constructor
    · intro same
      refine ⟨fun _ mem removes => ?_, fun name value dropped claims => ?_⟩
      · rw [List.getLast?_append] at mem
        simp only [List.getLast?_singleton, Option.some_or, Option.mem_some_iff] at mem
        subst mem
        exact absurd removes keeps
      · have mem : (name, value) ∈ values := by
          rw [mem_iff_lookup keyed, lookups name, claims]
          rfl
        have equal := same (name, value) mem
        exact (each name value dropped claims).mp (by simpa using equal)
    · rintro ⟨_, stands⟩ ⟨name, value⟩ mem
      rw [mem_iff_lookup keyed, lookups name, Option.map_eq_some_iff] at mem
      obtain ⟨⟨_, dropped⟩, claims, rfl⟩ := mem
      have equal := (each name _ dropped claims).mpr (stands name _ dropped claims)
      simpa using equal

end Reading

end Smo.RanNfOam.ConfigObjects
