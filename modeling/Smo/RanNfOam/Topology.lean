import Smo.Lib.Table
import Smo.RanNfOam.Ldn

/-! Links in the topology (`app/topology.py`): the neighbour relations of the cell guards, and how one
managed object stands to another in the containment tree. -/
namespace Smo.RanNfOam.Topology

open Ldn

structure CellGuard where
  sectorGroup : Option String := none
  incidentZone : Option String := none
  neighbourRefs : List String := []
  deriving DecidableEq

structure Element where
  managedElementRef : String
  cellGuards : List (String × CellGuard)
  keyed : (cellGuards.map (·.1)).Nodup := by decide

structure World where
  elements : List Element
  keyed : (elements.map (·.managedElementRef)).Nodup := by decide

inductive LinkType
  | intraElement
  | interElement
  | ambiguous
  | external
  deriving DecidableEq

structure Link where
  aElement : String
  aCell : String
  bElement : Option String
  bCell : String
  linkType : LinkType
  reciprocal : Bool
  sameSectorGroup : Bool
  sameIncidentZone : Bool
  deriving DecidableEq

namespace World

variable (world : World)

def guards (element : String) : List (String × CellGuard) :=
  ((world.elements.find? (·.managedElementRef = element)).map (·.cellGuards)).getD []

def owners (cellId : String) : List String :=
  (world.elements.filter fun e => cellId ∈ e.cellGuards.map (·.1)).map (·.managedElementRef)

def shared (mine other : Option String) : Bool :=
  mine.any (· ≠ "") && mine = other

def link (element cellId : String) (guard : CellGuard) (ref : String) : Link :=
  let (kind, other) : LinkType × Option String :=
    match world.owners ref with
    | [] => (.external, none)
    | [other] => (if other = element then .intraElement else .interElement, some other)
    | _ => (.ambiguous, none)
  let otherGuard : CellGuard :=
    (other.bind fun other => (world.guards other).lookup ref).getD {}
  { aElement := element, aCell := cellId, bElement := other, bCell := ref, linkType := kind
    reciprocal := cellId ∈ otherGuard.neighbourRefs
    sameSectorGroup := shared guard.sectorGroup otherGuard.sectorGroup
    sameIncidentZone := shared guard.incidentZone otherGuard.incidentZone }

def linksOf (element cellId : String) (guard : CellGuard) : List Link :=
  (guard.neighbourRefs.filter fun ref => ¬(ref = cellId ∧ element ∈ world.owners ref)).map
    (world.link element cellId guard)

def declared : List Link :=
  (world.elements.mergeSort fun e e' => e.managedElementRef ≤ e'.managedElementRef).flatMap fun e =>
    (e.cellGuards.mergeSort fun cell cell' => cell.1 ≤ cell'.1).flatMap fun cell =>
      world.linksOf e.managedElementRef cell.1 cell.2

/-- `cell_links`; an empty reference is none. -/
def cellLinks (managedElementRef : Option String) (linkType : Option LinkType) : List Link :=
  let links := world.declared
  let links :=
    match managedElementRef.filter (· ≠ "") with
    | some ref => links.filter fun link => ref = link.aElement ∨ some ref = link.bElement
    | none => links
  match linkType with
  | some kind => links.filter (·.linkType = kind)
  | none => links

end World

structure ManagedObject where
  dn : Str
  parentDn : Option Str
  managedElementRef : Str
  deriving DecidableEq

inductive Relation
  | same
  | ancestor
  | descendant
  | sibling
  | sameElement
  | differentElement
  deriving DecidableEq

def ancestors (dn : Str) : Except BadRdn (List Str) := do
  let rdns ← parseLdn dn
  return (List.range rdns.length).map fun n => Str.join ',' ((rdns.take (n + 1)).map Rdn.render)

/-- How `a` stands to `b` in the containment tree. -/
def containmentRelation (a b : ManagedObject) : Except BadRdn Relation :=
  if a.dn = b.dn then .ok .same
  else if a.managedElementRef ≠ b.managedElementRef then .ok .differentElement
  else do
    let chainA ← ancestors a.dn
    let chainB ← ancestors b.dn
    return if a.dn ∈ chainB then .ancestor
      else if b.dn ∈ chainA then .descendant
      else if a.parentDn ≠ none ∧ a.parentDn = b.parentDn then .sibling
      else .sameElement

section Containment

variable {dn : Str} {a b : ManagedObject}

theorem parsed_sublist {ref : Str} {parts : List Str} {rdns : List Rdn}
    (parsed : parseParts ref parts = .ok rdns) :
    List.Forall₂ List.Sublist (rdns.map Rdn.render) parts := by
  induction parts generalizing rdns with
  | nil =>
    cases parsed
    exact .nil
  | cons part rest ih =>
    simp only [parseParts] at parsed
    cases first : parsePart part with
    | none => simp [first] at parsed
    | some rdn =>
      simp only [first] at parsed
      cases later : parseParts ref rest with
      | error error => simp [later, bind, Except.bind] at parsed
      | ok more =>
        simp only [later, bind, Except.bind, pure, Except.pure, Except.ok.injEq] at parsed
        subst parsed
        obtain ⟨ident, rfl, -, stripped, -⟩ := parsePart_some first
        refine .cons ?_ (ih later)
        rw [Rdn.render, stripped]
        exact List.Sublist.append (List.Sublist.refl _)
          ((Text.strip_sublist Str.isSpace ident).cons_cons '=')

theorem ancestor_sublist {chain : List Str} (is : ancestors dn = .ok chain) {name : Str}
    (mem : name ∈ chain) : name.Sublist dn := by
  unfold ancestors at is
  cases parsed : parseLdn dn with
  | error error => simp [parsed, bind, Except.bind] at is
  | ok rdns =>
    simp only [parsed, bind, Except.bind, pure, Except.pure, Except.ok.injEq] at is
    subst is
    obtain ⟨n, -, rfl⟩ := List.mem_map.mp mem
    have whole : (Str.join ',' (rdns.map Rdn.render)).Sublist dn := by
      have parts := @Text.join_sublist _ ',' _ _ (parsed_sublist parsed)
      have joined : Text.join ',' (Str.split ',' dn) = dn := List.intercalate_splitOn _
      rwa [joined] at parts
    rw [List.map_take]
    exact (Text.join_take_sublist ',' _ (n + 1)).trans whole

theorem relation_iff {relation : Relation} (differ : a.dn ≠ b.dn)
    (one : a.managedElementRef = b.managedElementRef) :
    containmentRelation a b = .ok relation ↔
      ∃ chainA chainB, ancestors a.dn = .ok chainA ∧ ancestors b.dn = .ok chainB ∧
        (if a.dn ∈ chainB then .ancestor
          else if b.dn ∈ chainA then .descendant
          else if a.parentDn ≠ none ∧ a.parentDn = b.parentDn then .sibling
          else .sameElement) = relation := by
  rw [containmentRelation, if_neg differ, if_neg (not_not.mpr one)]
  cases ancestors a.dn with
  | error error => simp [bind, Except.bind]
  | ok chainA =>
    cases ancestors b.dn with
    | error error => simp [bind, Except.bind]
    | ok chainB => simp [bind, Except.bind, pure, Except.pure]

theorem relation_ancestor_iff : containmentRelation a b = .ok .ancestor ↔
    a.dn ≠ b.dn ∧ a.managedElementRef = b.managedElementRef ∧
      ∃ chainA chainB, ancestors a.dn = .ok chainA ∧ ancestors b.dn = .ok chainB ∧ a.dn ∈ chainB := by
  by_cases same : a.dn = b.dn
  · simp [containmentRelation, same]
  · by_cases one : a.managedElementRef = b.managedElementRef
    · rw [relation_iff same one]
      refine ⟨?_, ?_⟩
      · rintro ⟨chainA, chainB, isA, isB, is⟩
        refine ⟨same, one, chainA, chainB, isA, isB, ?_⟩
        split_ifs at is with mem
        exact mem
      · rintro ⟨-, -, chainA, chainB, isA, isB, mem⟩
        exact ⟨chainA, chainB, isA, isB, if_pos mem⟩
    · simp [containmentRelation, same, one]

theorem relation_descendant_iff : containmentRelation a b = .ok .descendant ↔
    a.dn ≠ b.dn ∧ a.managedElementRef = b.managedElementRef ∧
      ∃ chainA chainB, ancestors a.dn = .ok chainA ∧ ancestors b.dn = .ok chainB ∧ b.dn ∈ chainA := by
  by_cases same : a.dn = b.dn
  · simp [containmentRelation, same]
  · by_cases one : a.managedElementRef = b.managedElementRef
    · rw [relation_iff same one]
      refine ⟨?_, ?_⟩
      · rintro ⟨chainA, chainB, isA, isB, is⟩
        refine ⟨same, one, chainA, chainB, isA, isB, ?_⟩
        split_ifs at is with no mem
        exact mem
      · rintro ⟨-, -, chainA, chainB, isA, isB, mem⟩
        refine ⟨chainA, chainB, isA, isB, ?_⟩
        -- both would be part of each other
        have no : a.dn ∉ chainB := fun mem' =>
          same ((ancestor_sublist isB mem').antisymm (ancestor_sublist isA mem))
        rw [if_neg no, if_pos mem]
    · simp [containmentRelation, same, one]

theorem relation_swap (a b : ManagedObject) :
    containmentRelation a b = .ok .ancestor ↔ containmentRelation b a = .ok .descendant := by
  rw [relation_ancestor_iff, relation_descendant_iff]
  constructor
  · rintro ⟨differ, one, chainA, chainB, isA, isB, mem⟩
    exact ⟨differ.symm, one.symm, chainB, chainA, isB, isA, mem⟩
  · rintro ⟨differ, one, chainB, chainA, isB, isA, mem⟩
    exact ⟨differ.symm, one.symm, chainA, chainB, isA, isB, mem⟩

end Containment

section Links

variable {world : World} {managedElementRef : Option String} {linkType : Option LinkType}
  {link : Link} {e : Element} {cell ref : String} {guard : CellGuard}

/-- A link whose other end is known and that is declared back is there from the other end too. -/
def Consistent (links : List Link) : Prop :=
  ∀ link ∈ links, link.reciprocal = true → ∀ other, link.bElement = some other →
    ∃ back ∈ links, back.aElement = other ∧ back.aCell = link.bCell ∧
      back.bElement = some link.aElement ∧ back.bCell = link.aCell ∧ back.reciprocal = true

def Asked (managedElementRef : Option String) (linkType : Option LinkType) (element other : String) :
    Prop :=
  (∀ ref, managedElementRef.filter (· ≠ "") = some ref → ref = element ∨ ref = other) ∧
    ∀ kind, linkType = some kind →
      kind = if other = element then LinkType.intraElement else LinkType.interElement

/-- The only element with the neighbour of a cell declares the cell as a neighbour of that one. -/
structure Mutual (world : World) (cell ref other : String) : Prop where
  only : world.owners ref = [other]
  back : ∃ guard, (world.guards other).lookup ref = some guard ∧ cell ∈ guard.neighbourRefs

def OwnersKnown (world : World) (managedElementRef : Option String) (linkType : Option LinkType) :
    Prop :=
  ∀ e ∈ world.elements, ∀ cell guard, (cell, guard) ∈ e.cellGuards → ∀ ref ∈ guard.neighbourRefs,
    ref ≠ cell → ∀ other, Mutual world cell ref other →
      Asked managedElementRef linkType e.managedElementRef other →
        world.owners cell = [e.managedElementRef]

theorem mem_owners : cell ∈ world.owners ref ↔ ∃ e ∈ world.elements,
    (∃ guard, (ref, guard) ∈ e.cellGuards) ∧ e.managedElementRef = cell := by
  simp only [World.owners, List.mem_map, List.mem_filter, decide_eq_true_iff, Prod.exists,
    exists_and_right, exists_eq_right]
  exact ⟨fun ⟨e, ⟨there, has⟩, is⟩ => ⟨e, there, has, is⟩, fun ⟨e, there, has, is⟩ => ⟨e, ⟨there, has⟩, is⟩⟩

theorem guards_of_mem (there : e ∈ world.elements) :
    world.guards e.managedElementRef = e.cellGuards := by
  have found : world.elements.find? (·.managedElementRef = e.managedElementRef) = some e :=
    Table.get_of_mem world.keyed there
  rw [World.guards, found]
  rfl

theorem lookup_guard (there : e ∈ world.elements) (mem : (cell, guard) ∈ e.cellGuards) :
    (world.guards e.managedElementRef).lookup cell = some guard := by
  rw [guards_of_mem there]
  exact Table.lookup_of_mem e.keyed mem

theorem mem_declared : link ∈ world.declared ↔ ∃ e ∈ world.elements, ∃ cell guard,
    (cell, guard) ∈ e.cellGuards ∧ ∃ ref ∈ guard.neighbourRefs, ref ≠ cell ∧
      world.link e.managedElementRef cell guard ref = link := by
  simp only [World.declared, World.linksOf, List.mem_flatMap, List.mem_mergeSort, List.mem_map,
    List.mem_filter, decide_eq_true_iff, Prod.exists]
  constructor
  · rintro ⟨e, there, cell, guard, mem, ref, ⟨listed, other⟩, is⟩
    refine ⟨e, there, cell, guard, mem, ref, listed, ?_, is⟩
    rintro rfl
    exact other ⟨rfl, mem_owners.mpr ⟨e, there, ⟨guard, mem⟩, rfl⟩⟩
  · rintro ⟨e, there, cell, guard, mem, ref, listed, other, is⟩
    exact ⟨e, there, cell, guard, mem, ref, ⟨listed, fun own => other own.1⟩, is⟩

theorem link_resolved {element other : String} :
    (world.link element cell guard ref).bElement = some other ↔ world.owners ref = [other] := by
  unfold World.link
  match owners : world.owners ref with
  | [] => simp
  | [one] => simp
  | first :: second :: rest => simp

theorem link_mutual {element other : String} (only : world.owners ref = [other]) :
    (world.link element cell guard ref).reciprocal = true ↔ Mutual world cell ref other := by
  have there : ∃ found, (world.guards other).lookup ref = some found := by
    obtain ⟨e, mem, ⟨found, has⟩, rfl⟩ := mem_owners.mp (only ▸ List.mem_singleton_self other)
    exact ⟨found, lookup_guard mem has⟩
  obtain ⟨found, is⟩ := there
  have reads : (world.link element cell guard ref).reciprocal = decide (cell ∈ found.neighbourRefs) := by
    simp only [World.link, only, Option.bind_some, is, Option.getD_some]
  rw [reads, decide_eq_true_iff]
  exact ⟨fun mem => ⟨only, found, is, mem⟩, fun mutual_ => by
    obtain ⟨-, guard, is', mem⟩ := mutual_
    rw [is] at is'
    cases is'
    exact mem⟩

theorem link_type {element other : String} (only : world.owners ref = [other]) :
    (world.link element cell guard ref).linkType =
      if other = element then .intraElement else .interElement := by
  simp only [World.link, only]

theorem mem_cellLinks {other : String} (known : link.bElement = some other)
    (kind : link.linkType = if other = link.aElement then .intraElement else .interElement) :
    link ∈ world.cellLinks managedElementRef linkType ↔
      link ∈ world.declared ∧ Asked managedElementRef linkType link.aElement other := by
  have ends : (∀ wanted, managedElementRef.filter (· ≠ "") = some wanted →
      wanted = link.aElement ∨ some wanted = link.bElement) ↔
      ∀ wanted, managedElementRef.filter (· ≠ "") = some wanted →
        wanted = link.aElement ∨ wanted = other := by
    simp only [known, Option.some.injEq]
  have kinds : (∀ asked, linkType = some asked → link.linkType = asked) ↔
      ∀ asked, linkType = some asked →
        asked = if other = link.aElement then .intraElement else .interElement := by
    rw [kind]
    exact forall₂_congr fun _ _ => eq_comm
  rw [Asked, ← ends, ← kinds]
  unfold World.cellLinks
  cases managedElementRef.filter (· ≠ "") with
  | none => cases linkType <;> simp
  | some wanted =>
    cases linkType with
    | none => simp
    | some asked =>
      simp only [List.mem_filter, decide_eq_true_iff, Option.some.injEq, forall_eq']
      rw [and_assoc]

theorem declared_of_listed (listed : link ∈ world.cellLinks managedElementRef linkType) :
    link ∈ world.declared := by
  unfold World.cellLinks at listed
  dsimp only at listed
  split at listed
  · split at listed
    · exact (List.mem_filter.mp (List.mem_filter.mp listed).1).1
    · exact (List.mem_filter.mp listed).1
  · split at listed
    · exact (List.mem_filter.mp listed).1
    · exact listed

theorem asked_swap {element other : String} :
    Asked managedElementRef linkType element other ↔ Asked managedElementRef linkType other element := by
  unfold Asked
  refine and_congr (forall₂_congr fun _ _ => or_comm) (forall₂_congr fun _ _ => ?_)
  by_cases same : other = element
  · subst same
    rfl
  · rw [if_neg same, if_neg (Ne.symm same)]

theorem link_listed {other : String} (there : e ∈ world.elements) (mem : (cell, guard) ∈ e.cellGuards)
    (listed : ref ∈ guard.neighbourRefs) (differs : ref ≠ cell) (only : world.owners ref = [other])
    (asked : Asked managedElementRef linkType e.managedElementRef other) :
    world.link e.managedElementRef cell guard ref ∈ world.cellLinks managedElementRef linkType :=
  (mem_cellLinks (link_resolved.mpr only) (link_type only)).mpr
    ⟨mem_declared.mpr ⟨e, there, cell, guard, mem, ref, listed, differs, rfl⟩, asked⟩

theorem consistent_iff : Consistent (world.cellLinks managedElementRef linkType) ↔
    OwnersKnown world managedElementRef linkType := by
  constructor
  · intro consistent e there cell guard mem ref listed differs other mutual_ asked
    obtain ⟨back, inLinks, fromOther, fromRef, toOwn, toCell, -⟩ :=
      consistent _ (link_listed there mem listed differs mutual_.only asked)
        ((link_mutual mutual_.only).mpr mutual_) other (link_resolved.mpr mutual_.only)
    obtain ⟨e', -, cell', guard', -, ref', -, -, rfl⟩ :=
      mem_declared.mp (declared_of_listed inLinks)
    obtain rfl : ref' = cell := toCell
    exact link_resolved.mp toOwn
  · intro known link inLinks reciprocal other resolved
    obtain ⟨e, there, cell, guard, mem, ref, listed, differs, rfl⟩ :=
      mem_declared.mp (declared_of_listed inLinks)
    have only := link_resolved.mp resolved
    have mutual_ := (link_mutual only).mp reciprocal
    have asked := ((mem_cellLinks resolved (link_type only)).mp inLinks).2
    have own := known e there cell guard mem ref listed differs other mutual_ asked
    obtain ⟨e', there', ⟨guard', mem'⟩, rfl⟩ := mem_owners.mp (only ▸ List.mem_singleton_self other)
    obtain ⟨-, found, is, listedBack⟩ := mutual_
    obtain rfl : guard' = found := Option.some.inj ((lookup_guard there' mem').symm.trans is)
    refine ⟨_, link_listed there' mem' listedBack differs.symm own (asked_swap.mp asked), rfl, rfl,
      link_resolved.mpr own, rfl, (link_mutual own).mpr ⟨own, guard, lookup_guard there mem, listed⟩⟩

/-- The links come back, and containment is told the same from both ends, exactly when the ids of
the cells that are listed back are known. -/
theorem topology_consistent (world : World) (managedElementRef : Option String)
    (linkType : Option LinkType) :
    (Consistent (world.cellLinks managedElementRef linkType) ∧
      ∀ a b, containmentRelation a b = .ok .ancestor ↔ containmentRelation b a = .ok .descendant) ↔
    OwnersKnown world managedElementRef linkType :=
  ⟨fun both => consistent_iff.mp both.1, fun known => ⟨consistent_iff.mpr known, relation_swap⟩⟩

end Links

def twice : World where
  elements := [
    { managedElementRef := "ME-1", cellGuards := [("1", { neighbourRefs := ["9"] })] },
    { managedElementRef := "ME-2", cellGuards := [("1", {})] },
    { managedElementRef := "ME-3", cellGuards := [("9", { neighbourRefs := ["1"] })] }]

theorem link_one_way : ¬∀ (world : World) (managedElementRef : Option String)
    (linkType : Option LinkType), Consistent (world.cellLinks managedElementRef linkType) := by
  intro always
  have known := consistent_iff.mp (always twice none none)
  have only := known _ List.mem_cons_self "1" _ List.mem_cons_self "9" List.mem_cons_self (by decide)
    "ME-3" ⟨by decide, { neighbourRefs := ["1"] }, by decide, by decide⟩
    ⟨fun _ is => (by cases is), fun _ is => (by cases is)⟩
  revert only
  decide

end Smo.RanNfOam.Topology
