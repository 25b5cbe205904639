import Smo.Lib.Runs
import Smo.RanNfOam.Ldn

/-! The schema check of a change (`app/vendors.py`): the class that it is judged under, and the
attributes of that class in the schemas that its vendor is held to. -/
namespace Smo.RanNfOam.VendorSchemas

abbrev Dict (V : Type) := List (Str × V)

namespace Dict

variable {V : Type}

def put (key : Str) (value : V) : Dict V → Dict V
  | [] => [(key, value)]
  | (first, old) :: rest =>
    if first = key then (key, value) :: rest else (first, old) :: put key value rest

def update (dict more : Dict V) : Dict V := more.foldl (fun dict entry => put entry.1 entry.2 dict) dict

theorem lookup_put (dict : Dict V) (key : Str) (value : V) (other : Str) :
    (put key value dict).lookup other = if other = key then some value else dict.lookup other := by
  induction dict with
  | nil =>
    by_cases same : other = key
    · simp [put, same]
    · simp [put, List.lookup_cons, beq_eq_false_iff_ne.mpr same, same]
  | cons entry rest ih =>
    obtain ⟨first, old⟩ := entry
    rw [put]
    by_cases own : first = key
    · subst own
      by_cases same : other = first
      · simp [same]
      · simp [List.lookup_cons, beq_eq_false_iff_ne.mpr same, same]
    · rw [if_neg own, List.lookup_cons, ih, List.lookup_cons]
      by_cases same : other = first
      · subst same
        simp [own]
      · simp [beq_eq_false_iff_ne.mpr same]

theorem lookup_absent {dict : Dict V} {key : Str} (absent : key ∉ dict.map (·.1)) :
    dict.lookup key = none := by
  refine List.lookup_eq_none_iff.mpr fun entry mem => ?_
  have apart : key ≠ entry.1 := fun same => absent (List.mem_map.mpr ⟨entry, mem, same.symm⟩)
  simpa using apart

theorem lookup_update (dict : Dict V) {more : Dict V} (distinct : (more.map (·.1)).Nodup) (key : Str) :
    (update dict more).lookup key = (more.lookup key).or (dict.lookup key) := by
  induction more generalizing dict with
  | nil => rfl
  | cons entry rest ih =>
    obtain ⟨fresh, distinct⟩ := List.nodup_cons.mp distinct
    refine (ih (put entry.1 entry.2 dict) distinct).trans ?_
    rw [lookup_put, List.lookup_cons]
    by_cases same : key = entry.1
    · subst same
      simp [lookup_absent fresh]
    · simp [beq_eq_false_iff_ne.mpr same, same]

end Dict

/-- The classes of a descriptor, each with its attributes, as JSON objects: no name comes twice. -/
structure Descriptor (S : Type) where
  classes : Dict (Dict S)
  distinct : (classes.map (·.1)).Nodup
  attributes : ∀ entry ∈ classes, (entry.2.map (·.1)).Nodup

inductive ConformanceMode
  | own
  | spec
  | combined
  deriving DecidableEq

structure VendorCapability where
  vendorName : Str
  conformanceMode : ConformanceMode
  schemaName : Option Str := none
  schemaRevision : Option Str := none
  specSchemaName : Option Str := none
  specSchemaRevision : Option Str := none

structure ManagedEntity where
  managedElementRef : Str
  vendorName : Option Str := none

structure CmSchema (S : Type) where
  schemaName : Str
  revision : Str
  descriptor : Descriptor S

/-- `loaded`: the `cm_schema_cache`; `builtin`: the schemas that come with the service. -/
structure Registry (S : Type) where
  loaded : List (CmSchema S) := []
  builtin : List (CmSchema S) := []
  capabilities : List VendorCapability := []
  elements : List ManagedEntity := []

/-- The JSON of a `className`: nothing (also null, `""`, 0, false, `[]` and `{}`), a text, a number or
true, or a list or an object, which cannot be looked up. -/
inductive ClassName
  | nothing
  | text (name : Str) (given : name ≠ [])
  | number
  | nested
  deriving DecidableEq

structure Change (V : Type) where
  managedElementRef : Str
  managedFunctionRef : Option Str := none
  className : ClassName := .nothing
  attributeChanges : List (Str × V) := []

inductive Crash
  | typeError
  | badRdn (error : Ldn.BadRdn)
  | raised (text : String)

inductive Problem (V : Type)
  | notInModel (ioc : Option Str)
  | notDefined (attr : Str) (ioc : Option Str)
  | refused (attr : Str) (value : V) (reason : Str)

section Check

variable {S V : Type} (checkValue : S → V → Except Crash (Option Str)) (r : Registry S)

def Registry.find (schemas : List (CmSchema S)) (name revision : Str) : Option (Descriptor S) :=
  (schemas.find? fun row => row.schemaName = name && row.revision = revision).map (·.descriptor)

/-- `_descriptor` -/
def Registry.descriptor (name revision : Option Str) : Option (Descriptor S) :=
  match name with
  | none | some [] => none
  | some name =>
    (Registry.find r.loaded name (revision.getD [])).or
      (Registry.find r.builtin name (revision.getD []))

def Registry.specOf (cap : VendorCapability) : Option (Descriptor S) :=
  if cap.conformanceMode ≠ .own then r.descriptor cap.specSchemaName cap.specSchemaRevision
  else none

def Registry.ownOf (cap : VendorCapability) : Option (Descriptor S) :=
  if cap.conformanceMode ≠ .spec then r.descriptor cap.schemaName cap.schemaRevision else none

def classesOf (descriptor : Option (Descriptor S)) : Dict (Dict S) :=
  (descriptor.map (·.classes)).getD []

/-- `classes.setdefault(ioc, {}).update(attrs)` for each class of the vendor's own. -/
def augment (classes own : Dict (Dict S)) : Dict (Dict S) :=
  own.foldl (fun classes entry =>
    Dict.put entry.1 (Dict.update ((classes.lookup entry.1).getD []) entry.2) classes) classes

/-- `_allowed_classes` -/
def Registry.allowedClasses (cap : VendorCapability) : Option (Dict (Dict S)) :=
  if (r.specOf cap).isNone && (r.ownOf cap).isNone then none
  else some (augment (classesOf (r.specOf cap)) (classesOf (r.ownOf cap)))

def Registry.vendorCapability (managedElementRef : Str) : Option VendorCapability :=
  (r.elements.find? (·.managedElementRef = managedElementRef)).bind fun me =>
    match me.vendorName with
    | none | some [] => none
    | some vendor => r.capabilities.find? (·.vendorName = vendor)

/-- `leaf_class` -/
def leafClass : Option Str → Except Crash (Option Str)
  | none => .ok none
  | some ref =>
    if '=' ∈ ref then
      match Ldn.parseLdn ref with
      | .error error => .error (.badRdn error)
      | .ok rdns => .ok (rdns.getLast?.map (·.cls))
    else .ok none

/-- The class that a change is judged under: `change_class`, and its look-up in `classes`, where
only a text is found. -/
inductive Judged
  | under (ioc : Str)
  | stranger
  | anyClass
  deriving DecidableEq

def changeClass (change : Change V) : Except Crash Judged :=
  match change.className with
  | .text name _ => .ok (.under name)
  | .number => .ok .stranger
  | .nested => .error .typeError
  | .nothing =>
    match leafClass change.managedFunctionRef with
    | .error crash => .error crash
    | .ok none => .ok .anyClass
    | .ok (some ioc) => .ok (.under ioc)

/-- The loop over the attributes of a change; `spec?` finds the descriptor of one. -/
def attributeProblems (spec? : Str → Option S) (ioc : Option Str) :
    List (Str × V) → Except Crash (List (Problem V))
  | [] => .ok []
  | (attr, value) :: rest => do
    let found ← match spec? attr with
      | none => .ok [.notDefined attr ioc]
      | some spec => do
        match ← checkValue spec value with
        | none => .ok []
        | some reason => .ok [.refused attr value reason]
    let more ← attributeProblems spec? ioc rest
    return found ++ more

/-- `schema_problems` -/
def Registry.schemaProblems (change : Change V) : Except Crash (List (Problem V)) :=
  match r.vendorCapability change.managedElementRef with
  | none => .ok []
  | some cap =>
    match r.allowedClasses cap with
    | none => .ok []
    | some classes =>
      match changeClass change with
      | .error crash => .error crash
      | .ok .stranger => .ok [.notInModel none]
      | .ok (.under ioc) =>
        match classes.lookup ioc with
        | none => .ok [.notInModel (some ioc)]
        | some attrs =>
          attributeProblems checkValue (fun attr => attrs.lookup attr) (some ioc)
            change.attributeChanges
      | .ok .anyClass =>
        attributeProblems checkValue (fun attr => classes.findSome? (·.2.lookup attr)) none
          change.attributeChanges

end Check

section Requests

variable {S : Type}

structure VendorCapabilityBody where
  conformanceMode : ConformanceMode := .spec
  schemaRef : Option (Str × Str) := none
  specSchemaRef : Option (Str × Str) := none

/-- `DEFAULT_SPEC_SCHEMA` -/
def defaultSpecSchema : Str × Str := ("3gpp-ts28541-nrnrm".toList, "19.6.0".toList)

def VendorCapabilityBody.specRef (body : VendorCapabilityBody) : Option (Str × Str) :=
  if body.specSchemaRef.isNone && body.conformanceMode ≠ .own then some defaultSpecSchema
  else body.specSchemaRef

def VendorCapabilityBody.capability (body : VendorCapabilityBody) (vendorName : Str) :
    VendorCapability where
  vendorName := vendorName
  conformanceMode := body.conformanceMode
  schemaName := body.schemaRef.map (·.1)
  schemaRevision := body.schemaRef.map (·.2)
  specSchemaName := body.specRef.map (·.1)
  specSchemaRevision := body.specRef.map (·.2)

/-- `modesFit`: the elements of the vendor use transports that it declares. -/
inductive Act (S : Type)
  | loadCmSchema (schema : CmSchema S)
  | declareVendorCapability (vendorName : Str) (body : VendorCapabilityBody) (modesFit : Bool)
  | deleteVendorCapability (vendorName : Str)
  | elements (registered : List ManagedEntity)

/-- `_require_schema` -/
def Registry.requireSchema (r : Registry S) (ref : Option (Str × Str)) : Bool :=
  ref.all fun ref => (r.descriptor ref.1 ref.2).isSome

/-- `_declare_capability` -/
def Registry.declares (r : Registry S) (body : VendorCapabilityBody) (modesFit : Bool) : Bool :=
  !(body.conformanceMode ≠ .spec && body.schemaRef.isNone) && r.requireSchema body.schemaRef &&
    r.requireSchema body.specRef && modesFit

def Registry.act (r : Registry S) : Act S → Registry S
  | .loadCmSchema schema =>
    if (Registry.find r.loaded schema.schemaName schema.revision).isSome ||
        (Registry.find r.builtin schema.schemaName schema.revision).isSome then r
    else { r with loaded := r.loaded ++ [schema] }
  | .declareVendorCapability vendorName body modesFit =>
    if r.declares body modesFit then
      { r with capabilities :=
          body.capability vendorName :: r.capabilities.filter (·.vendorName ≠ vendorName) }
    else r
  | .deleteVendorCapability vendorName =>
    { r with capabilities := r.capabilities.filter (·.vendorName ≠ vendorName) }
  | .elements registered => { r with elements := registered }

def Registry.Step (r : Registry S) (a : Act S) (r' : Registry S) : Prop := r' = r.act a

def Registry.Declared (r : Registry S) : Prop :=
  ∀ cap ∈ r.capabilities,
    (cap.conformanceMode ≠ .own → (r.descriptor cap.specSchemaName cap.specSchemaRevision).isSome) ∧
      (cap.conformanceMode ≠ .spec → (r.descriptor cap.schemaName cap.schemaRevision).isSome)

theorem find_append {schemas more : List (CmSchema S)} {name revision : Str}
    (found : (Registry.find schemas name revision).isSome) :
    (Registry.find (schemas ++ more) name revision).isSome := by
  simp only [Registry.find, Option.isSome_map, List.find?_append] at found ⊢
  simp [found]

theorem descriptor_load {r : Registry S} {more : List (CmSchema S)} {name revision : Option Str}
    (found : (r.descriptor name revision).isSome) :
    (({ r with loaded := r.loaded ++ more } : Registry S).descriptor name revision).isSome := by
  unfold Registry.descriptor at found ⊢
  split at found
  · cases found
  · cases found
  · dsimp only
    rw [Option.isSome_or, Bool.or_eq_true] at found ⊢
    exact found.imp_left find_append

theorem declared_of_body {r : Registry S} {vendorName : Str} {body : VendorCapabilityBody}
    {modesFit : Bool} (ok : r.declares body modesFit = true) :
    ((body.capability vendorName).conformanceMode ≠ .own → (r.descriptor
        (body.capability vendorName).specSchemaName
        (body.capability vendorName).specSchemaRevision).isSome) ∧
      ((body.capability vendorName).conformanceMode ≠ .spec → (r.descriptor
        (body.capability vendorName).schemaName (body.capability vendorName).schemaRevision).isSome) := by
  simp only [Registry.declares, Bool.and_eq_true, Bool.not_eq_true'] at ok
  obtain ⟨⟨⟨given, own⟩, spec⟩, -⟩ := ok
  constructor
  · intro mode
    have some_ : body.specRef.isSome := by
      cases ref : body.specSchemaRef <;>
        simp_all [VendorCapabilityBody.specRef, VendorCapabilityBody.capability]
    obtain ⟨ref, is⟩ := Option.isSome_iff_exists.mp some_
    simpa [VendorCapabilityBody.capability, Registry.requireSchema, is] using spec
  · intro mode
    cases is : body.schemaRef with
    | none => simp [VendorCapabilityBody.capability] at mode; simp [is, mode] at given
    | some ref => simpa [VendorCapabilityBody.capability, Registry.requireSchema, is] using own

theorem declared_act {r : Registry S} (declared : r.Declared) (a : Act S) : (r.act a).Declared := by
  cases a with
  | loadCmSchema schema =>
    rw [Registry.act]
    split
    · exact declared
    · exact fun cap mem => (declared cap mem).imp (fun spec mode => descriptor_load (spec mode))
        fun own mode => descriptor_load (own mode)
  | declareVendorCapability vendorName body modesFit =>
    rw [Registry.act]
    split
    · next ok =>
      intro cap mem
      rcases List.mem_cons.mp mem with rfl | others
      · exact declared_of_body ok
      · exact declared cap (List.mem_of_mem_filter others)
    · exact declared
  | deleteVendorCapability vendorName =>
    exact fun cap mem => declared cap (List.mem_of_mem_filter mem)
  | elements registered => exact declared

end Requests

section Merge

variable {S : Type} {classes own : Dict (Dict S)}

def attrOf (classes : Dict (Dict S)) (ioc attr : Str) : Option S :=
  (classes.lookup ioc).bind fun attrs => attrs.lookup attr

theorem lookup_augment (distinct : (own.map (·.1)).Nodup) (ioc : Str) :
    (augment classes own).lookup ioc = ((own.lookup ioc).map fun attrs =>
      Dict.update ((classes.lookup ioc).getD []) attrs).or (classes.lookup ioc) := by
  induction own generalizing classes with
  | nil => rfl
  | cons entry rest ih =>
    obtain ⟨fresh, distinct⟩ := List.nodup_cons.mp distinct
    refine (ih distinct).trans ?_
    rw [Dict.lookup_put, List.lookup_cons]
    by_cases same : ioc = entry.1
    · subst same
      simp [Dict.lookup_absent fresh]
    · simp [beq_eq_false_iff_ne.mpr same, same]

theorem attrOf_augment (distinct : (own.map (·.1)).Nodup)
    (attributes : ∀ entry ∈ own, (entry.2.map (·.1)).Nodup) (ioc attr : Str) :
    attrOf (augment classes own) ioc attr = (attrOf own ioc attr).or (attrOf classes ioc attr) := by
  rw [attrOf, lookup_augment distinct, attrOf, attrOf]
  cases found : own.lookup ioc with
  | none => simp
  | some attrs =>
    obtain ⟨first, last, is, -⟩ := List.lookup_eq_some_iff.mp found
    have unique : (attrs.map (·.1)).Nodup := attributes (ioc, attrs) (by simp [is])
    rw [Option.map_some, Option.some_or, Option.bind_some, Dict.lookup_update _ unique,
      Option.bind_some]
    cases classes.lookup ioc <;> rfl

theorem has_augment (distinct : (own.map (·.1)).Nodup) (ioc : Str) :
    ((augment classes own).lookup ioc).isSome = ((own.lookup ioc).isSome || (classes.lookup ioc).isSome) := by
  rw [lookup_augment distinct]
  cases own.lookup ioc <;> simp

end Merge

section Judgement

variable {S V : Type} (checkValue : S → V → Except Crash (Option Str)) (r : Registry S)

def Accepts (spec? : Str → Option S) (changes : List (Str × V)) : Prop :=
  ∀ entry ∈ changes, ∃ spec, spec? entry.1 = some spec ∧ checkValue spec entry.2 = .ok none

/-- What a class says of an attribute in the schemas that a vendor is held to: its own, the
specification, or its own before the specification. -/
def Registry.held (cap : VendorCapability) (ioc attr : Str) : Option S :=
  let own := attrOf (classesOf (r.descriptor cap.schemaName cap.schemaRevision)) ioc attr
  let spec := attrOf (classesOf (r.descriptor cap.specSchemaName cap.specSchemaRevision)) ioc attr
  match cap.conformanceMode with
  | .own => own
  | .spec => spec
  | .combined => own.or spec

def Registry.has (cap : VendorCapability) (ioc : Str) : Bool :=
  let own := ((classesOf (r.descriptor cap.schemaName cap.schemaRevision)).lookup ioc).isSome
  let spec := ((classesOf (r.descriptor cap.specSchemaName cap.specSchemaRevision)).lookup ioc).isSome
  match cap.conformanceMode with
  | .own => own
  | .spec => spec
  | .combined => own || spec

def Registry.first (cap : VendorCapability) (attr : Str) : Option S :=
  ((r.allowedClasses cap).getD []).findSome? fun entry => entry.2.lookup attr

variable {checkValue r} {cap : VendorCapability} {change : Change V}

theorem attributeProblems_iff {spec? : Str → Option S} {ioc : Option Str} {changes : List (Str × V)} :
    attributeProblems checkValue spec? ioc changes = .ok [] ↔ Accepts checkValue spec? changes := by
  induction changes with
  | nil => exact iff_of_true rfl fun _ mem => absurd mem List.not_mem_nil
  | cons entry rest ih =>
    obtain ⟨attr, value⟩ := entry
    rw [Accepts, List.forall_mem_cons]
    rw [Accepts] at ih
    rw [← ih, attributeProblems]
    cases spec? attr with
    | none =>
      cases attributeProblems checkValue spec? ioc rest <;>
        simp [bind, Except.bind, pure, Except.pure]
    | some spec =>
      cases verdict : checkValue spec value with
      | error crash => simp [verdict, bind, Except.bind]
      | ok reason =>
        cases reason <;> cases attributeProblems checkValue spec? ioc rest <;>
          simp [verdict, bind, Except.bind, pure, Except.pure]

theorem allowed_of_declared (declared : r.Declared) (mem : cap ∈ r.capabilities) :
    ∃ classes, r.allowedClasses cap = some classes ∧
      (∀ ioc attr, attrOf classes ioc attr = r.held cap ioc attr) ∧
      ∀ ioc, (classes.lookup ioc).isSome = r.has cap ioc := by
  have distinct : ((classesOf (r.ownOf cap)).map (·.1)).Nodup := by
    cases r.ownOf cap with
    | none => exact List.nodup_nil
    | some descriptor => exact descriptor.distinct
  have attributes : ∀ entry ∈ classesOf (r.ownOf cap), (entry.2.map (·.1)).Nodup := by
    cases r.ownOf cap with
    | none => exact fun _ mem => absurd mem List.not_mem_nil
    | some descriptor => exact descriptor.attributes
  obtain ⟨spec, own⟩ := declared cap mem
  have there : ¬ ((r.specOf cap).isNone && (r.ownOf cap).isNone) = true := by
    unfold Registry.specOf Registry.ownOf
    cases mode : cap.conformanceMode with
    | own =>
      have there := Option.isSome_iff_ne_none.mp (own (by simp [mode]))
      simp [there]
    | spec =>
      have there := Option.isSome_iff_ne_none.mp (spec (by simp [mode]))
      simp [there]
    | combined =>
      have there := Option.isSome_iff_ne_none.mp (own (by simp [mode]))
      simp [there]
  refine ⟨_, if_neg there, fun ioc attr => ?_, fun ioc => ?_⟩
  · rw [attrOf_augment distinct attributes]
    unfold Registry.specOf Registry.ownOf Registry.held
    cases cap.conformanceMode <;> simp [classesOf, attrOf]
  · rw [has_augment distinct]
    unfold Registry.specOf Registry.ownOf Registry.has
    cases cap.conformanceMode <;> simp [classesOf]

theorem mem_of_vendorCapability {ref : Str} (found : r.vendorCapability ref = some cap) :
    cap ∈ r.capabilities := by
  obtain ⟨me, -, found⟩ := Option.bind_eq_some_iff.mp found
  split at found
  · cases found
  · cases found
  · exact List.mem_of_find?_eq_some found

theorem under_iff {ioc : Str} (declared : r.Declared)
    (found : r.vendorCapability change.managedElementRef = some cap)
    (under : changeClass change = .ok (.under ioc)) :
    r.schemaProblems checkValue change = .ok [] ↔
      r.has cap ioc = true ∧ Accepts checkValue (r.held cap ioc) change.attributeChanges := by
  obtain ⟨classes, allowed, held, has⟩ := allowed_of_declared declared (mem_of_vendorCapability found)
  simp only [Registry.schemaProblems, found, allowed, under]
  rw [← has]
  have same : r.held cap ioc = attrOf classes ioc := funext fun attr => (held ioc attr).symm
  cases lookedUp : classes.lookup ioc with
  | none => simp
  | some attrs =>
    have attrs_ : attrOf classes ioc = fun attr => attrs.lookup attr := by
      funext attr
      rw [attrOf, lookedUp, Option.bind_some]
    simp [same, attrs_, attributeProblems_iff]

theorem anyClass_iff (declared : r.Declared)
    (found : r.vendorCapability change.managedElementRef = some cap)
    (any : changeClass change = .ok .anyClass) : r.schemaProblems checkValue change = .ok [] ↔
      Accepts checkValue (r.first cap) change.attributeChanges := by
  obtain ⟨classes, allowed, -⟩ := allowed_of_declared declared (mem_of_vendorCapability found)
  simp only [Registry.schemaProblems, found, allowed, any, attributeProblems_iff]
  unfold Registry.first
  rw [allowed]
  rfl

end Judgement

section Sample

def nrm : CmSchema Unit where
  schemaName := defaultSpecSchema.1
  revision := defaultSpecSchema.2
  descriptor := {
    classes := [("NRCellDU".toList, [("nRPCI".toList, ())]),
      ("NRSectorCarrier".toList, [("arfcnDL".toList, ())])]
    distinct := by decide
    attributes := by decide }

def acme : List (Act Unit) :=
  [.declareVendorCapability "acme".toList {} true,
    .elements [{ managedElementRef := "ME-1".toList, vendorName := some "acme".toList }]]

def registry : Registry Unit := acme.foldl Registry.act { builtin := [nrm] }

theorem registry_run : Runs.Run Registry.Step { builtin := [nrm] }
    (Runs.stepsOf Registry.act { builtin := [nrm] } acme) registry :=
  Runs.run_follow fun _ _ _ => rfl

def cellChange (className : ClassName) (attr : Str) : Change Unit where
  managedElementRef := "ME-1".toList
  managedFunctionRef := some "NRCellDU=1".toList
  className := className
  attributeChanges := [(attr, ())]

end Sample

end Smo.RanNfOam.VendorSchemas
