import Smo.Lib.EditConfig
import Smo.RanNfOam.ConfigJobs.Rollback

/-! Configuration jobs over elements that hold objects with attributes and edit them as
RFC 6241 says: what a job leaves of each object, and what it read of it before. -/
namespace Smo.RanNfOam.ConfigObjects

open EditConfig ConfigJobs

abbrev Texts := EditConfig.Record String String

abbrev Datastore := Target → Option Texts

def operationText : Operation → String
  | .merge => "merge"
  | .replace => "replace"
  | .create => "create"
  | .delete => "delete"
  | .remove => "remove"

def operationOf (text : String) : Option Operation :=
  if text = "merge" then some .merge
  else if text = "replace" then some .replace
  else if text = "create" then some .create
  else if text = "delete" then some .delete
  else if text = "remove" then some .remove
  else none

@[simp] theorem operationOf_text (operation : Operation) :
    operationOf (operationText operation) = some operation := by
  cases operation <;> decide

def errorTag : Refusal → String
  | .dataExists => "data-exists"
  | .dataMissing => "data-missing"

def placeOf (change : Change) : Target :=
  (change.managedElementRef, change.managedFunctionRef.filter (· ≠ ""))

def written (attributes : Attributes) : Texts :=
  attributes.map fun (name, value) => (name, value.str)

def editObject (object : Option Texts) (change : Change) : Except String (Option Texts) :=
  match operationOf change.operation with
  | none => .error "invalid-value"
  | some operation =>
    (editRecord operation (written change.attributeChanges) object).mapError errorTag

def editChange (data : Datastore) (change : Change) : Except String Datastore :=
  (editObject (data (placeOf change)) change).map fun object => Function.update data (placeOf change) object

def editEach (data : Datastore) (changes : List Change) : Except String Datastore :=
  changes.foldlM editChange data

def readText (protocol text : String) : Value :=
  if protocol = "NETCONF" ∧ text = "" then .null else .text text

def readAttributes (protocol : String) (object : Texts) : Attributes :=
  object.map fun (name, text) => (name, readText protocol text)

/-- The answer of `<get-config>` has no object, that of GET is an error, when there is none. -/
def readObject (protocol : String) : Option Texts → ReadAnswer
  | some object => .values (readAttributes protocol object)
  | none => if protocol = "NETCONF" then .values [] else .failed

def objectClients : O1Clients Datastore where
  sendEdit data me _ change :=
    match editChange data change with
    | .ok data' => (data', some { applied := true })
    | .error tag => (data, some { applied := false, reason := o1Client me.o1Protocol, detail := some tag })
  sendEdits data _ changes :=
    match editEach data changes with
    | .ok data' => (data', some (changes.map fun _ => { applied := true }))
    | .error tag =>
      (data, some (changes.map fun _ =>
        { applied := false, reason := some "NETCONF_RPC_FAILED", detail := some tag }))
  sendGet data me _ change := readObject me.o1Protocol (data (placeOf change))
  monotonic _ := 0
  sleep data _ := data

/-- A sub-change as it is sent; the clients refuse every other operation. A function
reference that is there is not empty, and an object of JSON has each name once. -/
structure SubChange where
  row : WriteConfigSubChange
  operation : Operation
  asked : row.operation = operationText operation
  named : row.managedFunctionRef ≠ some ""
  keyed : (row.attributeChanges.map (·.1)).Nodup
  unsettled : row.snapshot = none

namespace SubChange

def names (sub : SubChange) : List String := sub.row.attributeChanges.map (·.1)

def target (sub : SubChange) : Target := (sub.row.managedElementRef, sub.row.managedFunctionRef)

@[simp] theorem place_change (sub : SubChange) : placeOf sub.row.change = sub.target := by
  have named := sub.named
  unfold placeOf target WriteConfigSubChange.change
  cases is : sub.row.managedFunctionRef with
  | none => rfl
  | some function =>
    have given : function ≠ "" := fun empty => named (by rw [is, empty])
    simp [Option.filter, given]

end SubChange

/-- Sub-changes that go to an element together: one, or those of a candidate transaction. -/
structure Exchange (site : Site) where
  me : ManagedEntity
  endpoint : O1AdaptorEndpoint
  subs : List SubChange
  registered : ∀ sub ∈ subs, site.registry.get? sub.row.managedElementRef = some me
  adaptor : me.endpoint = some endpoint
  spoken : o1Client me.o1Protocol ≠ none

namespace Exchange

variable {site : Site} (exchange : Exchange site) (data : Datastore)

def changes : List Change := exchange.subs.map (·.row.change)

def before (sub : SubChange) : Option Attributes × Option String :=
  captureBefore objectClients site data exchange.me exchange.endpoint sub.row.change

def send : Datastore × List WriteConfigSubChange :=
  match editEach data exchange.changes with
  | .ok data' =>
    (data', exchange.subs.map fun sub =>
      settle site sub.row
        ⟨(exchange.before data sub).1, (exchange.before data sub).2, true, none, 1, none⟩)
  | .error tag =>
    (data, exchange.subs.map fun sub =>
      settle site sub.row
        ⟨(exchange.before data sub).1, (exchange.before data sub).2, false,
          o1Client exchange.me.o1Protocol, 1, some tag⟩)

end Exchange

def perform {site : Site} (data : Datastore) :
    List (Exchange site) → Datastore × List WriteConfigSubChange
  | [] => (data, [])
  | exchange :: rest =>
    let later := perform (exchange.send data).1 rest
    (later.1, (exchange.send data).2 ++ later.2)

structure ObjectJob (site : Site) where
  job : WriteConfigJob
  exchanges : List (Exchange site)
  inWaves : ((exchanges.flatMap (·.subs)).map (·.row.wave)).Pairwise (· ≤ ·)

namespace ObjectJob

variable {site : Site} (job : ObjectJob site) (data : Datastore)

def leaves : Datastore := (perform data job.exchanges).1

def ended : JobRows := ⟨job.job, (perform data job.exchanges).2⟩

end ObjectJob

structure Applied where
  sub : SubChange
  read : Option Texts

def Exchange.applied {site : Site} (exchange : Exchange site) (data : Datastore) : List Applied :=
  match editEach data exchange.changes with
  | .ok _ => exchange.subs.map fun sub => ⟨sub, data sub.target⟩
  | .error _ => []

def applied {site : Site} (data : Datastore) : List (Exchange site) → List Applied
  | [] => []
  | exchange :: rest => exchange.applied data ++ applied (exchange.send data).1 rest

def protocolOf (site : Site) (target : Target) : String :=
  ((site.registry.get? target.1).map (·.o1Protocol)).getD ""

theorem Exchange.protocol {site : Site} (exchange : Exchange site) {sub : SubChange}
    (mem : sub ∈ exchange.subs) : protocolOf site sub.target = exchange.me.o1Protocol := by
  unfold protocolOf SubChange.target
  rw [exchange.registered sub mem]
  rfl

/-- The values a read object has of the attributes a change names, or all when it names none. -/
def imageOf (sub : SubChange) (current : Attributes) : Attributes :=
  if sub.row.attributeChanges = [] then current
  else sub.row.attributeChanges.map fun (name, _) => (name, valueOf current name)

namespace Applied

variable (site : Site) (entry : Applied)

def captured : Option Attributes × Option String :=
  match readObject (protocolOf site entry.sub.target) entry.read with
  | .raised exc => (none, some s!"before-image read raised {exc}")
  | .failed => (none, some "before-image read failed")
  | .values current => (some (imageOf entry.sub current), none)

def settled : WriteConfigSubChange :=
  settle site entry.sub.row ⟨(entry.captured site).1, (entry.captured site).2, true, none, 1, none⟩

def snapshot : CMSnapshot where
  operation := entry.sub.row.operation
  before := (entry.captured site).1
  beforeError := (entry.captured site).2
  after :=
    if entry.sub.operation = .delete ∨ entry.sub.operation = .remove then none
    else some entry.sub.row.attributeChanges

end Applied

section Performed

variable {site : Site}

theorem removes_iff (sub : SubChange) : sub.row.operation = "delete" ∨ sub.row.operation = "remove" ↔
    sub.operation = .delete ∨ sub.operation = .remove := by
  rw [sub.asked]
  cases sub.operation <;> decide

theorem settled_snapshot (snapshots : site.cmSnapshots = true) (entry : Applied) :
    (entry.settled site).snapshot = some (entry.snapshot site) := by
  simp only [Applied.settled, settle, snapshots, if_true, Applied.snapshot, true_and, removes_iff]
  by_cases removes : entry.sub.operation = .delete ∨ entry.sub.operation = .remove
  · simp [removes]
  · simp [removes]

theorem captureBefore_applied (snapshots : site.cmSnapshots = true) (exchange : Exchange site)
    (data : Datastore) {sub : SubChange} (mem : sub ∈ exchange.subs) :
    exchange.before data sub = Applied.captured site ⟨sub, data sub.target⟩ := by
  unfold Exchange.before captureBefore Applied.captured objectClients
  simp only [snapshots, Bool.not_true, Bool.false_eq_true, if_false, exchange.protocol mem,
    SubChange.place_change]
  cases readObject exchange.me.o1Protocol (data sub.target) with
  | raised exc => rfl
  | failed => rfl
  | values current =>
    unfold imageOf
    by_cases nothing : sub.row.attributeChanges = []
    · simp [WriteConfigSubChange.change, nothing]
    · simp [WriteConfigSubChange.change, nothing]

theorem send_applied (snapshots : site.cmSnapshots = true) (exchange : Exchange site)
    (data : Datastore) :
    ((exchange.send data).2.filter (·.status = .applied)) =
      (exchange.applied data).map (·.settled site) := by
  unfold Exchange.send Exchange.applied
  cases editEach data exchange.changes with
  | ok data' =>
    rw [List.filter_eq_self.mpr, List.map_map]
    · refine List.map_congr_left fun sub mem => ?_
      rw [captureBefore_applied snapshots exchange data mem]
      rfl
    · intro row mem
      obtain ⟨sub, _, rfl⟩ := List.mem_map.mp mem
      simp [settle]
  | error tag =>
    refine List.filter_eq_nil_iff.mpr fun row mem => ?_
    obtain ⟨sub, _, rfl⟩ := List.mem_map.mp mem
    simp [settle]

theorem perform_applied (snapshots : site.cmSnapshots = true) (exchanges : List (Exchange site))
    (data : Datastore) :
    ((perform data exchanges).2.filter (·.status = .applied)) =
      (applied data exchanges).map (·.settled site) := by
  induction exchanges generalizing data with
  | nil => rfl
  | cons exchange rest ih =>
    simp only [perform, applied, List.filter_append, List.map_append, send_applied snapshots, ih]

theorem send_waves (exchange : Exchange site) (data : Datastore) :
    (exchange.send data).2.map (·.wave) = exchange.subs.map (·.row.wave) := by
  unfold Exchange.send
  cases editEach data exchange.changes <;> simp [settle, Function.comp_def]

theorem perform_waves (exchanges : List (Exchange site)) (data : Datastore) :
    (perform data exchanges).2.map (·.wave) =
      (exchanges.flatMap (·.subs)).map (·.row.wave) := by
  induction exchanges generalizing data with
  | nil => rfl
  | cons exchange rest ih =>
    simp only [perform, List.map_append, List.flatMap_cons, send_waves, ih]

theorem undoable_ended (snapshots : site.cmSnapshots = true) (job : ObjectJob site)
    (data : Datastore) :
    undoable (job.ended data) none =
      (applied data job.exchanges).map fun entry => (entry.settled site, entry.snapshot site) := by
  have inWaves : (perform data job.exchanges).2.Pairwise (·.wave ≤ ·.wave) := by
    have waves := job.inWaves
    rw [← perform_waves job.exchanges data, List.pairwise_map] at waves
    exact waves
  have sorted : ((perform data job.exchanges).2.filter
      (·.status = .applied)).Pairwise (·.wave ≤ ·.wave) := inWaves.filter _
  unfold undoable ObjectJob.ended
  simp only [Option.all_none, Bool.and_true]
  rw [List.Pairwise.insertionSort_eq sorted, perform_applied snapshots, List.filterMap_map]
  rw [← List.filterMap_eq_map]
  refine List.filterMap_congr fun entry _ => ?_
  simp only [Function.comp_apply, settled_snapshot snapshots, Option.map_some]

theorem undoable_unsnapped (off : site.cmSnapshots = false) (job : ObjectJob site)
    (data : Datastore) : undoable (job.ended data) none = [] := by
  have unsettled : ∀ exchanges : List (Exchange site), ∀ data,
      ∀ row ∈ (perform data exchanges).2, row.snapshot = none := by
    intro exchanges
    induction exchanges with
    | nil => exact fun _ _ mem => absurd mem List.not_mem_nil
    | cons exchange rest ih =>
      intro data row mem
      rcases List.mem_append.mp mem with here | later
      · unfold Exchange.send at here
        split at here
        · obtain ⟨sub, _, rfl⟩ := List.mem_map.mp here
          simp [settle, off, sub.unsettled]
        · obtain ⟨sub, _, rfl⟩ := List.mem_map.mp here
          simp [settle, off, sub.unsettled]
      · exact ih _ row later
  unfold undoable ObjectJob.ended
  refine List.filterMap_eq_nil_iff.mpr fun row mem => ?_
  have sent := (List.mem_filter.mp ((List.mem_insertionSort _).mp mem)).1
  rw [unsettled job.exchanges data row sent]
  rfl

end Performed

section Objects

def held (object : Option Texts) (name : String) : Option String := object.bind (·.lookup name)

theorem lookup_written (attributes : Attributes) (name : String) :
    (written attributes).lookup name = (attributes.lookup name).map (·.str) := by
  induction attributes with
  | nil => rfl
  | cons entry rest ih =>
    obtain ⟨known, value⟩ := entry
    simp only [written, List.map_cons, List.lookup_cons]
    cases name == known
    · exact ih
    · rfl

theorem held_overlaid (object : Option Texts) (attributes : Attributes) (name : String) :
    held (some (overlaid (object.getD []) (written attributes))) name =
      ((attributes.lookup name).map (·.str)).or (held object name) := by
  simp only [held, Option.bind_some, lookup_overlaid, lookup_written]
  cases object <;> rfl

theorem editObject_iff (sub : SubChange) {object object' : Option Texts} :
    editObject object sub.row.change = .ok object' ↔
      match sub.operation with
      | .merge => object' = some (overlaid (object.getD []) (written sub.row.attributeChanges))
      | .replace => object' = some (overlaid [] (written sub.row.attributeChanges))
      | .create => object = none ∧ object' = some (overlaid [] (written sub.row.attributeChanges))
      | .delete => object.isSome ∧ object' = none
      | .remove => object' = none := by
  have asked : operationOf sub.row.change.operation = some sub.operation := by
    have named : sub.row.change.operation = operationText sub.operation := sub.asked
    rw [named, operationOf_text]
  have attributes : sub.row.change.attributeChanges = sub.row.attributeChanges := rfl
  unfold editObject editRecord
  rw [asked]
  cases sub.operation <;> cases object <;>
    simp [Except.mapError, attributes, @eq_comm _ object']

variable {data data' : Datastore} {changes : List Change}

theorem editChange_ok {change : Change} : editChange data change = .ok data' ↔
    ∃ object, editObject (data (placeOf change)) change = .ok object ∧
      Function.update data (placeOf change) object = data' := by
  unfold editChange
  cases editObject (data (placeOf change)) change <;> simp [Except.map]

theorem editEach_at (ok : editEach data changes = .ok data') (target : Target) :
    (changes.filter (placeOf · = target)).foldlM editObject (data target) = .ok (data' target) := by
  induction changes generalizing data with
  | nil =>
    cases ok
    rfl
  | cons change rest ih =>
    obtain ⟨mid, first, others⟩ := bind_ok ok
    obtain ⟨object, edited, rfl⟩ := editChange_ok.mp first
    have later := ih others
    by_cases here : placeOf change = target
    · subst here
      rw [Function.update_self] at later
      rw [List.filter_cons_of_pos (by simp), List.foldlM_cons, edited]
      exact later
    · rw [Function.update_of_ne (Ne.symm here)] at later
      rw [List.filter_cons_of_neg (by simpa using here)]
      exact later

theorem editEach_iff : (∃ data', editEach data changes = .ok data') ↔ ∀ target, ∃ object,
    (changes.filter (placeOf · = target)).foldlM editObject (data target) = .ok object := by
  refine ⟨fun ⟨data', ok⟩ target => ⟨data' target, editEach_at ok target⟩, fun each => ?_⟩
  induction changes generalizing data with
  | nil => exact ⟨data, rfl⟩
  | cons change rest ih =>
    obtain ⟨last, ok⟩ := each (placeOf change)
    rw [List.filter_cons_of_pos (by simp), List.foldlM_cons] at ok
    obtain ⟨object, edited, _⟩ := bind_ok ok
    have first : editChange data change = .ok (Function.update data (placeOf change) object) :=
      editChange_ok.mpr ⟨object, edited, rfl⟩
    obtain ⟨data', others⟩ := @ih (Function.update data (placeOf change) object) fun target => by
      obtain ⟨other, goes⟩ := each target
      by_cases here : placeOf change = target
      · subst here
        rw [List.filter_cons_of_pos (by simp), List.foldlM_cons, edited] at goes
        rw [Function.update_self]
        exact ⟨other, goes⟩
      · rw [List.filter_cons_of_neg (by simpa using here)] at goes
        rw [Function.update_of_ne (Ne.symm here)]
        exact ⟨other, goes⟩
    refine ⟨data', ?_⟩
    unfold editEach
    rw [List.foldlM_cons, first]
    exact others

end Objects

end Smo.RanNfOam.ConfigObjects
