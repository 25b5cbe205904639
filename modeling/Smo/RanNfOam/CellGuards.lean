import Mathlib.Data.List.Sort
import Smo.Lib.Runs
import Smo.Lib.Table

/-! The guards of the cells (`app/vendors.py`) under requests that overlap: one JSON column of an
element's row holds the guards of all its cells, each request writes what it makes of the column that
it read, and the row has no version. -/
namespace Smo.RanNfOam.CellGuards

inductive CellClass
  | emergency
  | coverageCritical
  | normal
  deriving DecidableEq

/-- `CellGuardBody`. -/
structure CellGuard where
  cellClass : CellClass := .normal
  sectorGroup : Option String := none
  incidentZone : Option String := none
  neighbourRefs : List String := []
  deriving DecidableEq

/-- The column `cell_guards`, a dict by cell id. -/
abbrev Guards := List (String × CellGuard)

/-- `{**guards, cell_id: guard}`. -/
def Guards.put (cellId : String) (guard : CellGuard) : Guards → Guards
  | [] => [(cellId, guard)]
  | entry :: rest =>
    if entry.1 = cellId then (cellId, guard) :: rest else entry :: put cellId guard rest

/-- `{k: v for k, v in guards.items() if k != cell_id}`. -/
def Guards.drop (guards : Guards) (cellId : String) : Guards := guards.filter (·.1 ≠ cellId)

structure ManagedEntity where
  managedElementRef : String
  cellGuards : Guards := []
  region : Option String := none
  tenant : Option String := none
  siteCluster : Option String := none
  deriving DecidableEq

def ManagedEntity.registered (row : ManagedEntity) : ManagedEntity := { row with cellGuards := [] }

inductive Request
  | setCellGuards (managedElementRef cellId : String) (body : CellGuard)
  | deleteCellGuards (managedElementRef cellId : String)
  | setScope (managedElementRef : String) (region tenant : Option String)
  | setSiteCluster (managedElementRef : String) (siteCluster : Option String)

namespace Request

def ref : Request → String
  | setCellGuards ref _ _ | deleteCellGuards ref _ | setScope ref _ _ | setSiteCluster ref _ => ref

def asksScope : Request → Bool
  | setCellGuards .. | deleteCellGuards .. => true
  | setScope .. | setSiteCluster .. => false

/-- The columns of the row as a request that read it as `loaded` writes them: no UPDATE is sent for a
column that is set to what was loaded, and none for those that are not set. -/
def write (loaded : ManagedEntity) (request : Request) (current : ManagedEntity) : ManagedEntity :=
  match request with
  | setCellGuards _ cellId body =>
    if loaded.cellGuards.lookup cellId = some body then current
    else { current with cellGuards := Guards.put cellId body loaded.cellGuards }
  | deleteCellGuards _ cellId =>
    if cellId ∈ loaded.cellGuards.map (·.1) then
      { current with cellGuards := loaded.cellGuards.drop cellId }
    else current
  | setScope _ region tenant =>
    { current with
      region := if region = loaded.region then current.region else region
      tenant := if tenant = loaded.tenant then current.tenant else tenant }
  | setSiteCluster _ siteCluster =>
    { current with
      siteCluster := if siteCluster = loaded.siteCluster then current.siteCluster else siteCluster }

def change : Request → Option (String × String × Option CellGuard)
  | setCellGuards ref cellId body => some (ref, cellId, some body)
  | deleteCellGuards ref cellId => some (ref, cellId, none)
  | setScope .. | setSiteCluster .. => none

end Request

inductive Stage
  | asked (request : Request) (permitted : Bool)
  | loaded (request : Request) (row : ManagedEntity)
  | refused (status : Nat) (code : String)
  | committed

structure State where
  entities : List ManagedEntity := []
  requests : List Stage := []

inductive Act
  | register (row : ManagedEntity)
  | ask (request : Request) (permitted : Bool)
  | load (i : Nat)
  | commit (i : Nat)

namespace State

variable (s : State)

def entity? (ref : String) : Option ManagedEntity :=
  Table.get ManagedEntity.managedElementRef s.entities ref

def guard (ref cellId : String) : Option CellGuard :=
  (s.entity? ref).bind fun row => row.cellGuards.lookup cellId

def at_ (i : Nat) (stage : Stage) : State := { s with requests := s.requests.set i stage }

/-- `scoping.require_elements`, then `_get_me`. -/
def load (request : Request) (permitted : Bool) : Stage :=
  if request.asksScope && !permitted then .refused 403 "SCOPE_DENIED"
  else
    match s.entity? request.ref with
    | none => .refused 404 "MANAGED_ENTITY_NOT_FOUND"
    | some row => .loaded request row

def commit (request : Request) (row : ManagedEntity) : State :=
  { s with
    entities := Table.modify ManagedEntity.managedElementRef s.entities request.ref
      (Request.write row request) }

def act : Act → Option State
  | .register row =>
    if (s.entity? row.managedElementRef).isSome then none
    else some { s with entities := s.entities ++ [row.registered] }
  | .ask request permitted => some { s with requests := s.requests ++ [.asked request permitted] }
  | .load i =>
    match s.requests[i]? with
    | some (.asked request permitted) => some (s.at_ i (s.load request permitted))
    | _ => none
  | .commit i =>
    match s.requests[i]? with
    | some (.loaded request row) => some ((s.commit request row).at_ i .committed)
    | _ => none

def Step (s : State) (a : Act) (s' : State) : Prop := s.act a = some s'

def changes : Act → Option (String × String × Option CellGuard)
  | .commit i =>
    match s.requests[i]? with
    | some (.loaded request _) => request.change
    | _ => none
  | _ => none

end State

/-- `GET /cell-guards`: the elements that the caller sees, and the filters; an empty text is none. -/
structure Query where
  sees : ManagedEntity → Bool
  managedElementRef : Option String := none
  cellId : Option String := none
  cellClass : Option CellClass := none
  sectorGroup : Option String := none
  incidentZone : Option String := none

structure Item where
  managedElementRef : String
  cellId : String
  guard : CellGuard
  deriving DecidableEq

namespace Query

variable (query : Query)

def wanted (filter : Option String) (value : Option String) : Bool :=
  filter.all fun text => text = "" || value = some text

def admits (cellId : String) (guard : CellGuard) : Bool :=
  wanted query.cellId (some cellId) && query.cellClass.all (guard.cellClass = ·) &&
    wanted query.sectorGroup guard.sectorGroup && wanted query.incidentZone guard.incidentZone

def items (rows : List ManagedEntity) : List Item :=
  let visible := rows.filter fun row =>
    query.sees row && wanted query.managedElementRef (some row.managedElementRef)
  (visible.insertionSort fun a b => a.managedElementRef ≤ b.managedElementRef).flatMap fun row =>
    ((row.cellGuards.insertionSort fun a b => a.1 ≤ b.1).filter fun entry =>
      query.admits entry.1 entry.2).map fun entry => ⟨row.managedElementRef, entry.1, entry.2⟩

/-- `paginate_list`. -/
def page (rows : List ManagedEntity) (limit offset : Nat) : List Item :=
  ((query.items rows).drop offset).take limit

end Query

def Guards.sameBut (cellId : String) (guards other : Guards) : Bool :=
  (guards ++ other).all fun entry =>
    entry.1 = cellId || guards.lookup entry.1 = other.lookup entry.1

/-- The write of a request that read the row as `loaded` takes the change of another cell back, or
leaves out its own. -/
def Request.overwrites (loaded current : ManagedEntity) : Request → Bool
  | setCellGuards _ cellId body =>
    if loaded.cellGuards.lookup cellId = some body then
      current.cellGuards.lookup cellId ≠ some body
    else !loaded.cellGuards.sameBut cellId current.cellGuards
  | deleteCellGuards _ cellId =>
    if cellId ∈ loaded.cellGuards.map (·.1) then
      !loaded.cellGuards.sameBut cellId current.cellGuards
    else (current.cellGuards.lookup cellId).isSome
  | setScope .. | setSiteCluster .. => false

def State.lapses (s : State) : Act → Bool
  | .commit i =>
    match s.requests[i]? with
    | some (.loaded request row) => (s.entity? request.ref).any (request.overwrites row)
    | _ => false
  | _ => false

section Dicts

variable {guards other : Guards} {cellId k : String} {guard : CellGuard}

theorem lookup_entry (entry : String × CellGuard) :
    List.lookup k (entry :: guards) = if k = entry.1 then some entry.2 else guards.lookup k := by
  rw [List.lookup_cons]
  by_cases same : k = entry.1
  · rw [if_pos same, beq_iff_eq.mpr same]
  · rw [if_neg same, beq_eq_false_iff_ne.mpr same]

theorem lookup_isSome : (guards.lookup k).isSome ↔ k ∈ guards.map (·.1) := by
  induction guards with
  | nil => simp
  | cons entry guards ih =>
    rw [lookup_entry, List.map_cons, List.mem_cons, ← ih]
    split <;> simp [*]

theorem lookup_put : (Guards.put cellId guard guards).lookup k =
    if k = cellId then some guard else guards.lookup k := by
  induction guards with
  | nil => rw [Guards.put, lookup_entry]
  | cons entry guards ih =>
    rw [Guards.put, lookup_entry]
    split
    · next mine =>
      rw [lookup_entry, mine]
      split <;> rfl
    · next apart =>
      rw [lookup_entry, ih]
      by_cases same : k = cellId
      · rw [if_pos same, if_pos same, if_neg (same ▸ Ne.symm apart)]
      · rw [if_neg same, if_neg same]

theorem lookup_drop : (guards.drop cellId).lookup k =
    if k = cellId then none else guards.lookup k := by
  unfold Guards.drop
  induction guards with
  | nil => simp
  | cons entry guards ih =>
    rw [List.filter_cons, lookup_entry]
    split
    · next apart =>
      have apart : entry.1 ≠ cellId := of_decide_eq_true apart
      rw [lookup_entry, ih]
      by_cases same : k = cellId
      · rw [if_pos same, if_pos same, if_neg (same ▸ Ne.symm apart)]
      · rw [if_neg same, if_neg same]
    · next mine =>
      have mine : entry.1 = cellId := by simpa using mine
      rw [ih, mine]
      split <;> rfl

theorem sameBut_lookup (same : guards.sameBut cellId other = true) (apart : k ≠ cellId) :
    guards.lookup k = other.lookup k := by
  have holds := List.all_eq_true.mp same
  by_cases there : k ∈ (guards ++ other).map (·.1)
  · obtain ⟨entry, mem, rfl⟩ := List.mem_map.mp there
    simpa [apart] using holds entry mem
  · rw [List.map_append, List.mem_append, not_or, ← lookup_isSome, ← lookup_isSome] at there
    simp only [Option.not_isSome_iff_eq_none] at there
    rw [there.1, there.2]

theorem write_lookup {loaded current : ManagedEntity} {request : Request}
    (careful : request.overwrites loaded current = false) :
    (request.write loaded current).cellGuards.lookup k =
      match request.change with
      | some (_, cellId, guard) => if k = cellId then guard else current.cellGuards.lookup k
      | none => current.cellGuards.lookup k := by
  cases request with
  | setCellGuards ref cellId body =>
    simp only [Request.overwrites] at careful
    simp only [Request.write, Request.change]
    split at careful
    · next same =>
      rw [if_pos same]
      have kept : current.cellGuards.lookup cellId = some body := by simpa using careful
      split
      · next own => rw [own, kept]
      · rfl
    · next differs =>
      rw [if_neg differs]
      rw [lookup_put]
      split
      · rfl
      · next apart => exact sameBut_lookup (by simpa using careful) apart
  | deleteCellGuards ref cellId =>
    simp only [Request.overwrites] at careful
    simp only [Request.write, Request.change]
    split at careful
    · next there =>
      rw [if_pos there]
      rw [lookup_drop]
      split
      · rfl
      · next apart => exact sameBut_lookup (by simpa using careful) apart
    · next absent =>
      rw [if_neg absent]
      split
      · next own =>
        rw [own]
        simpa using careful
      · rfl
  | setScope ref region tenant => rfl
  | setSiteCluster ref siteCluster => rfl

end Dicts

section Runs

variable {s s' start : State} {request : Request} {row current : ManagedEntity}
  {ref cellId : String} {a : Act}

theorem write_ref (request : Request) (loaded current : ManagedEntity) :
    (request.write loaded current).managedElementRef = current.managedElementRef := by
  cases request <;> simp only [Request.write] <;> split <;> rfl

theorem entity_commit : (s.commit request row).entity? ref =
    if request.ref = ref then (s.entity? ref).map (request.write row) else s.entity? ref :=
  Table.get_modify _ fun current => write_ref request row current

def gives (change : Option (String × String × Option CellGuard)) (ref cellId : String)
    (guard : Option CellGuard) : Option CellGuard :=
  match change with
  | some (ref', cellId', given) => if ref = ref' ∧ cellId = cellId' then given else guard
  | none => guard

theorem guard_commit (found : s.entity? request.ref = some current)
    (careful : request.overwrites row current = false) :
    (s.commit request row).guard ref cellId = gives request.change ref cellId (s.guard ref cellId) := by
  unfold State.guard
  rw [entity_commit]
  by_cases own : request.ref = ref
  · subst own
    rw [if_pos rfl, found, Option.map_some, Option.bind_some, Option.bind_some,
      write_lookup careful]
    cases request <;> simp [gives, Request.change, Request.ref]
  · rw [if_neg own]
    cases request with
    | setCellGuards ref' cellId' body => exact (if_neg fun both => own both.1.symm).symm
    | deleteCellGuards ref' cellId' => exact (if_neg fun both => own both.1.symm).symm
    | setScope ref' region tenant => rfl
    | setSiteCluster ref' siteCluster => rfl

/-- The guard that the last change to be committed has given a cell, or the one that it had. -/
def given (start : State) (trace : List (Runs.Step State Act)) (ref cellId : String) :
    Option CellGuard :=
  trace.foldl (fun guard t => gives (t.before.changes t.label) ref cellId guard)
    (start.guard ref cellId)

def Loads (s : State) : Prop := ∀ (i : Nat) request row,
  s.requests[i]? = some (.loaded request row) → (s.entity? request.ref).isSome

theorem loads_set {i : Nat} {stage : Stage} (loads : Loads s)
    (new : ∀ request row, stage = .loaded request row → (s.entity? request.ref).isSome) :
    Loads (s.at_ i stage) := by
  intro j request row is
  rcases Table.set_cases is with ⟨-, rfl⟩ | ⟨-, was⟩
  · exact new request row rfl
  · exact loads j request row was

theorem loads_act (loads : Loads s) (step : State.Step s a s') : Loads s' := by
  unfold State.Step State.act at step
  cases a with
  | register row =>
    simp only at step
    split at step <;> cases step
    intro j request read is
    have there := loads j request read is
    unfold State.entity? at there ⊢
    rw [Table.get_append, Option.isSome_or, there]
    rfl
  | ask request permitted =>
    cases step
    intro j other read is
    rcases Table.append_cases is with ⟨-, new⟩ | was
    · cases new
    · exact loads j other read was
  | load i =>
    simp only at step
    split at step <;> cases step
    refine loads_set loads fun request row is => ?_
    unfold State.load at is
    split at is
    · cases is
    · split at is
      · cases is
      · next found =>
        cases is
        rw [found]
        rfl
  | commit i =>
    simp only at step
    split at step <;> cases step
    refine loads_set (fun j other read is => ?_) fun _ _ is => by cases is
    rw [entity_commit]
    have there := loads j other read is
    split
    · rwa [Option.isSome_map]
    · exact there

theorem guard_act (loads : Loads s) (careful : s.lapses a = false) (step : State.Step s a s') :
    s'.guard ref cellId = gives (s.changes a) ref cellId (s.guard ref cellId) := by
  unfold State.Step State.act at step
  cases a with
  | register row =>
    simp only at step
    split at step <;> cases step
    next absent =>
    have absent : s.entity? row.registered.managedElementRef = none :=
      Option.not_isSome_iff_eq_none.mp absent
    unfold State.guard State.entity? at *
    rw [Table.get_snoc absent]
    split
    · next own =>
      rw [← own, absent]
      rfl
    · rfl
  | ask request permitted =>
    cases step
    rfl
  | load i =>
    simp only at step
    split at step <;> cases step
    rfl
  | commit i =>
    simp only at step
    split at step <;> cases step
    next request row is =>
    obtain ⟨current, found⟩ := Option.isSome_iff_exists.mp (loads i request row is)
    have kept : request.overwrites row current = false := by
      simpa [State.lapses, is, found] using careful
    have changes : s.changes (.commit i) = request.change := by
      simp [State.changes, is]
    rw [changes]
    exact guard_commit found kept

end Runs

section Queries

variable {query : Query} {rows : List ManagedEntity} {row : ManagedEntity} {cellId : String}
  {guard : CellGuard}

theorem mem_items (mem : row ∈ rows) (sees : query.sees row = true)
    (asked : Query.wanted query.managedElementRef (some row.managedElementRef) = true)
    (found : row.cellGuards.lookup cellId = some guard) (admits : query.admits cellId guard = true) :
    ⟨row.managedElementRef, cellId, guard⟩ ∈ query.items rows := by
  refine List.mem_flatMap.mpr ⟨row, ?_, List.mem_map.mpr ⟨(cellId, guard), ?_, rfl⟩⟩
  · rw [List.mem_insertionSort, List.mem_filter, sees, asked]
    exact ⟨mem, rfl⟩
  · rw [List.mem_filter, List.mem_insertionSort]
    obtain ⟨front, back, is, -⟩ := List.lookup_eq_some_iff.mp found
    exact ⟨is ▸ by simp, admits⟩

theorem mem_page {item : Item} (mem : item ∈ query.items rows) :
    ∃ k, (query.items rows)[k]? = some item ∧
      ∀ limit offset, offset ≤ k → k < offset + limit → item ∈ query.page rows limit offset := by
  obtain ⟨k, at_⟩ := List.mem_iff_getElem?.mp mem
  refine ⟨k, at_, fun limit offset low high => List.mem_iff_getElem?.mpr ⟨k - offset, ?_⟩⟩
  unfold Query.page
  rw [List.getElem?_take_of_lt (by omega), List.getElem?_drop, Nat.add_sub_cancel' low, at_]

end Queries

/-- Every cell has the guard of the last change of it, and the queries report that. -/
structure GuardsKept (start : State) (trace : List (Runs.Step State Act)) (s : State) : Prop where
  last : ∀ ref cellId, s.guard ref cellId = given start trace ref cellId
  reported : ∀ ref cellId guard, given start trace ref cellId = some guard →
    ∃ row, s.entity? ref = some row ∧ ∀ query : Query, query.sees row = true →
      Query.wanted query.managedElementRef (some ref) = true → query.admits cellId guard = true →
        ∃ k, (query.items s.entities)[k]? = some ⟨ref, cellId, guard⟩ ∧
          ∀ limit offset, offset ≤ k → k < offset + limit →
            ⟨ref, cellId, guard⟩ ∈ query.page s.entities limit offset

/-- No guard of a cell is lost in a run in which no request commits on an outdated reading. -/
theorem guards_kept {entities : List ManagedEntity} {trace : List (Runs.Step State Act)} {s : State}
    (run : Runs.Run State.Step { entities } trace s)
    (careful : ∀ t ∈ trace, t.before.lapses t.label = false) :
    GuardsKept { entities } trace s := by
  have kept : Loads s ∧ ∀ ref cellId, s.guard ref cellId = given { entities } trace ref cellId := by
    refine run.invariant_of_guarded_history
      (fun trace s => Loads s ∧ ∀ ref cellId, s.guard ref cellId = given { entities } trace ref cellId)
      (fun _ s a => s.lapses a = false) ⟨fun i _ _ is => by simp at is, fun _ _ => rfl⟩ ?_ ?_
    · rintro trace s a s' ⟨loads, holds⟩ careful step
      refine ⟨loads_act loads step, fun ref cellId => ?_⟩
      rw [guard_act loads careful step, given, List.foldl_append, holds]
      rfl
    · rintro earlier t later rfl
      exact careful t (by simp)
  refine ⟨kept.2, fun ref cellId guard is => ?_⟩
  rw [← kept.2] at is
  obtain ⟨row, found, has⟩ := Option.bind_eq_some_iff.mp is
  refine ⟨row, found, fun query sees asked admits => ?_⟩
  obtain rfl := Table.key_of_get found
  exact mem_page (mem_items (Table.mem_of_get found) sees asked has admits)

section Sample

def emergency : Request := .setCellGuards "ME-1" "cell-1" { cellClass := .emergency }

def neighbour : Request := .setCellGuards "ME-1" "cell-2" { sectorGroup := some "sector-1" }

def registry : State := { entities := [{ managedElementRef := "ME-1" }] }

def inTurn : List Act :=
  [.ask emergency true, .load 0, .commit 0, .ask neighbour true, .load 1, .commit 1,
    .ask (.deleteCellGuards "ME-1" "cell-2") true, .load 2, .commit 2]

theorem emergency_kept :
    GuardsKept registry (Runs.stepsOf (Runs.nextOf State.act) registry inTurn)
        (inTurn.foldl (Runs.nextOf State.act) registry) ∧
      (inTurn.foldl (Runs.nextOf State.act) registry).guard "ME-1" "cell-1" =
        some { cellClass := .emergency } :=
  ⟨guards_kept (Runs.run_enabled (by decide +kernel)) (by decide +kernel), by decide +kernel⟩

def atOnce : List Act :=
  [.ask emergency true, .ask neighbour true, .load 0, .load 1, .commit 0, .commit 1]

theorem emergency_lost : ¬ ∀ (entities : List ManagedEntity) (trace : List (Runs.Step State Act))
    (s : State), Runs.Run State.Step { entities } trace s → GuardsKept { entities } trace s := by
  intro always
  have run : Runs.Run State.Step registry (Runs.stepsOf (Runs.nextOf State.act) registry atOnce)
      (atOnce.foldl (Runs.nextOf State.act) registry) := Runs.run_enabled (by decide +kernel)
  have last := (always _ _ _ run).last "ME-1" "cell-1"
  have lost : (atOnce.foldl (Runs.nextOf State.act) registry).guard "ME-1" "cell-1" ≠
      given registry (Runs.stepsOf (Runs.nextOf State.act) registry atOnce) "ME-1" "cell-1" := by
    decide +kernel
  exact lost last

end Sample

end Smo.RanNfOam.CellGuards
