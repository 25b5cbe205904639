import Mathlib
import Smo.Lib.Xml
import Smo.RanNfOam.Ldn

/-! Payloads for a server with a YANG model (`app/yang_payload.py`): attribute names as leaf names and
back, the edit of a list entry, and what is read of one. Names are ASCII, as in YANG. -/
namespace Smo.RanNfOam.YangPayload

open Ldn

section Names

def startsWord (before : Option Char) (c : Char) : Bool :=
  before.any (fun b => b.isLower || b.isDigit) && c.isUpper

def hyphenate : Option Char → Str → Str
  | _, [] => []
  | before, c :: rest =>
    if startsWord before c then '-' :: c.toLower :: hyphenate (some c) rest
    else c :: hyphenate (some c) rest

def toYangName (name : Str) : Str := hyphenate none name

/-- `str.capitalize`. -/
def capitalize : Str → Str
  | [] => []
  | c :: rest => c.toUpper :: rest.map Char.toLower

def toAttributeName (leaf : Str) : Str :=
  match Str.split '-' leaf with
  | [] => []
  | head :: rest => head ++ rest.flatMap capitalize

def wordwise : Bool → Option Char → Str → Bool
  | _, _, [] => true
  | inWord, before, c :: rest =>
    if startsWord before c then wordwise true (some c) rest
    else (!inWord || !c.isUpper) && wordwise inWord (some c) rest

def readBack : Bool → Option Char → Str → Str
  | _, _, [] => []
  | inWord, before, c :: rest =>
    if startsWord before c then c :: readBack true (some c) rest
    else (if inWord then c.toLower else c) :: readBack inWord (some c) rest

variable {a : Str}

variable {c : Char}

theorem upper_ne_hyphen (upper : c.isUpper = true) : c ≠ '-' ∧ c.toLower ≠ '-' := by
  constructor
  · rintro rfl
    cases upper
  · intro same
    have low : c.toLower.isAlpha = true := by
      rw [Char.isAlpha_toLower_eq_isAlpha, Char.isAlpha, upper, Bool.true_or]
    rw [same] at low
    cases low

theorem upper_again (upper : c.isUpper = true) : c.toLower.toUpper = c := by
  rw [Char.toUpper_toLower_eq_toUpper]
  exact Char.toUpper_eq_of_not_isLower (Char.not_isLower_of_isUpper upper)

theorem split_cons {text : Str} (other : c ≠ '-') :
    Str.split '-' (c :: text) = (Str.split '-' text).modifyHead (c :: ·) := by
  rw [Str.split, List.splitOn_cons_eq_if_modifyHead, if_neg (by simpa using other)]
  rfl

theorem split_hyphen (text : Str) : Str.split '-' ('-' :: text) = [] :: Str.split '-' text := by
  rw [Str.split, List.splitOn_cons_eq_if_modifyHead, if_pos (by simp)]
  rfl

theorem pieces_readBack (inWord : Bool) (before : Option Char) (plain : '-' ∉ a) :
    ∃ head rest, Str.split '-' (hyphenate before a) = head :: rest ∧
      (if inWord then head.map Char.toLower else head) ++ rest.flatMap capitalize =
        readBack inWord before a := by
  induction a generalizing inWord before with
  | nil => exact ⟨[], [], List.splitOn_nil _, by cases inWord <;> rfl⟩
  | cons c text ih =>
    obtain ⟨differs, later⟩ := not_or.mp (fun is => plain (List.mem_cons.mpr is))
    by_cases starts : startsWord before c = true
    · have upper : c.isUpper = true := (Bool.and_eq_true_iff.mp starts).2
      obtain ⟨head, rest, pieces, joined⟩ := ih true (some c) later
      refine ⟨[], (c.toLower :: head) :: rest, ?_, ?_⟩
      · rw [hyphenate, if_pos starts, split_hyphen, split_cons (upper_ne_hyphen upper).2, pieces]
        rfl
      · rw [readBack, if_pos starts, ← joined, List.flatMap_cons, capitalize, upper_again upper]
        cases inWord <;> rfl
    · obtain ⟨head, rest, pieces, joined⟩ := ih inWord (some c) later
      refine ⟨c :: head, rest, ?_, ?_⟩
      · rw [hyphenate, if_neg starts, split_cons (Ne.symm differs), pieces]
        rfl
      · rw [readBack, if_neg starts, ← joined]
        cases inWord <;> rfl

theorem toAttributeName_toYangName (plain : '-' ∉ a) :
    toAttributeName (toYangName a) = readBack false none a := by
  obtain ⟨head, rest, pieces, joined⟩ := pieces_readBack false none plain
  rw [← joined, toAttributeName, toYangName, pieces]
  rfl

theorem lower_eq_iff : c.toLower = c ↔ c.isUpper = false := by
  constructor
  · intro same
    rw [← same]
    exact Char.isUpper_toLower_eq_false c
  · intro other
    exact Char.toLower_eq_of_not_isUpper (by simp [other])

theorem readBack_eq_iff (inWord : Bool) (before : Option Char) :
    readBack inWord before a = a ↔ wordwise inWord before a = true := by
  induction a generalizing inWord before with
  | nil => simp [readBack, wordwise]
  | cons c rest ih =>
    rw [readBack, wordwise]
    by_cases starts : startsWord before c = true
    · rw [if_pos starts, if_pos starts, List.cons_inj_right]
      exact ih true (some c)
    · rw [if_neg starts, if_neg starts, List.cons.injEq, ih, Bool.and_eq_true]
      refine and_congr_left fun _ => ?_
      cases inWord with
      | false => simp
      | true => simp [lower_eq_iff]

theorem cased_ne_hyphen (other : c ≠ '-') : c.toUpper ≠ '-' ∧ c.toLower ≠ '-' := by
  constructor
  · intro same
    have alpha : c.isAlpha = false := by
      rw [← Char.isAlpha_toUpper_eq_isAlpha, same]
      rfl
    rw [Char.isAlpha, Bool.or_eq_false_iff] at alpha
    rw [Char.toUpper_eq_of_not_isLower (by simp [alpha.2])] at same
    exact other same
  · intro same
    have alpha : c.isAlpha = false := by
      rw [← Char.isAlpha_toLower_eq_isAlpha, same]
      rfl
    rw [Char.isAlpha, Bool.or_eq_false_iff] at alpha
    rw [Char.toLower_eq_of_not_isUpper (by simp [alpha.1])] at same
    exact other same

theorem piece_plain {leaf piece : Str} (mem : piece ∈ Str.split '-' leaf) : '-' ∉ piece := by
  induction leaf generalizing piece with
  | nil =>
    rw [Str.split, List.splitOn_nil, List.mem_singleton] at mem
    rw [mem]
    exact List.not_mem_nil
  | cons c rest ih =>
    by_cases hyphen : c = '-'
    · rw [hyphen, split_hyphen] at mem
      rcases List.mem_cons.mp mem with rfl | later
      · exact List.not_mem_nil
      · exact ih later
    · rw [split_cons hyphen] at mem
      cases pieces : Str.split '-' rest with
      | nil => exact absurd pieces (List.splitOn_ne_nil _ _)
      | cons head more =>
        rw [pieces, List.modifyHead_cons] at mem
        rw [pieces] at ih
        rcases List.mem_cons.mp mem with rfl | later
        · rw [List.mem_cons, not_or]
          exact ⟨Ne.symm hyphen, ih List.mem_cons_self⟩
        · exact ih (List.mem_cons_of_mem _ later)

theorem toAttributeName_plain (leaf : Str) : '-' ∉ toAttributeName leaf := by
  have plain (piece : Str) (mem : piece ∈ Str.split '-' leaf) := piece_plain mem
  unfold toAttributeName
  cases pieces : Str.split '-' leaf with
  | nil => exact List.not_mem_nil
  | cons head rest =>
    rw [pieces] at plain
    intro mem
    rcases List.mem_append.mp mem with first | later
    · exact plain head List.mem_cons_self first
    · obtain ⟨piece, inRest, inPiece⟩ := List.mem_flatMap.mp later
      have none_ := plain piece (List.mem_cons_of_mem _ inRest)
      cases piece with
      | nil => cases inPiece
      | cons c more =>
        obtain ⟨differs, others⟩ := not_or.mp (fun is => none_ (List.mem_cons.mpr is))
        rcases List.mem_cons.mp inPiece with is | lowered
        · exact (cased_ne_hyphen (Ne.symm differs)).1 is.symm
        · obtain ⟨other, inMore, is⟩ := List.mem_map.mp lowered
          refine (cased_ne_hyphen ?_).2 is
          rintro rfl
          exact others inMore

theorem round_trip_iff :
    toAttributeName (toYangName a) = a ↔ '-' ∉ a ∧ wordwise false none a = true := by
  constructor
  · intro same
    have plain : '-' ∉ a := same ▸ toAttributeName_plain _
    rw [toAttributeName_toYangName plain, readBack_eq_iff] at same
    exact ⟨plain, same⟩
  · rintro ⟨plain, words⟩
    rw [toAttributeName_toYangName plain]
    exact (readBack_eq_iff false none).mpr words

/-- A letter or an underscore, then letters, digits and `_`, `-` or `.`. -/
def identifier : Str → Bool
  | [] => false
  | first :: rest => (first.isAlpha || first = '_') &&
      rest.all fun c => c.isAlphanum || c = '_' || c = '-' || c = '.'

end Names

section Code

structure Profile where
  namespace_ : String
  container : String
  listName : String
  keyLeaf : String

/-- The one model of `PROFILES`. -/
def smoLab : Profile := ⟨"urn:smo:lab", "lab", "cell", "id"⟩

def netconfBaseNs : String := "urn:ietf:params:xml:ns:netconf:base:1.0"

inductive Operation
  | merge
  | replace
  | create
  | delete
  | remove
  deriving DecidableEq

def Operation.name : Operation → String
  | merge => "merge"
  | replace => "replace"
  | create => "create"
  | delete => "delete"
  | remove => "remove"

def Operation.carries : Operation → Bool
  | delete | remove => false
  | _ => true

structure Edit where
  messageId : String
  targetRef : Str
  managedFunctionRef : Option Str := none
  attributeChanges : List (Str × String)
  operation : Operation := .merge
  candidate : Bool := false

/-- `leaf_id(ref) or ref`. -/
def leafIdOr (ref : Str) : Except BadRdn Str :=
  if '=' ∈ ref then do
    let rdns ← parseLdn ref
    match rdns.getLast? with
    | some rdn => return if rdn.ident = [] then ref else rdn.ident
    | none => return ref
  else .ok ref

/-- `_key`; an empty function reference is none. -/
def key (targetRef : Str) (managedFunctionRef : Option Str) : Except BadRdn Str :=
  leafIdOr ((managedFunctionRef.filter (· ≠ [])).getD targetRef)

def qualified (namespace_ name : String) : String := "\x7b" ++ namespace_ ++ "\x7d" ++ name

def leaf (profile : Profile) (name : Str) (text : String) : Xml :=
  .element (qualified profile.namespace_ (String.ofList name)) [] text []

def base (name : String) (children : List Xml) : Xml :=
  .element (qualified netconfBaseNs name) [] "" children

def entry (profile : Profile) (edit : Edit) (key : Str) : Xml :=
  let leaves := if edit.operation.carries then
    edit.attributeChanges.map fun change => leaf profile (toYangName change.1) change.2 else []
  .element (qualified profile.namespace_ profile.listName)
    [(qualified netconfBaseNs "operation", edit.operation.name)] ""
    (leaf profile profile.keyLeaf.toList (String.ofList key) :: leaves)

/-- `build_edit_config_rpc`, as the document that is parsed from its text. -/
def buildEditConfigRpc (profile : Profile) (edit : Edit) : Except BadRdn Xml := do
  let key ← key edit.targetRef edit.managedFunctionRef
  let datastore := if edit.candidate then "candidate" else "running"
  return .element (qualified netconfBaseNs "rpc") [("message-id", edit.messageId)] "" [
    base "edit-config" [
      base "target" [base datastore []],
      base "config" [.element (qualified profile.namespace_ profile.container) [] ""
        [entry profile edit key]]]]

/-- The names of an entry's leaves with their texts; a later one replaces an earlier one. -/
def leaves (entry : Xml) : List (String × Str) :=
  entry.children.map fun child => (child.localName, Str.strip child.text.toList)

def isEntry (profile : Profile) (key : Str) (node : Xml) : Bool :=
  node.localName = profile.listName ∧ (leaves node).reverse.lookup profile.keyLeaf = some key

/-- `config_attributes`: none for a reply without data. -/
def configAttributes (profile : Profile) (root : Xml) (targetRef : Str)
    (managedFunctionRef : Option Str) : Except BadRdn (Option (List (Str × Str))) :=
  match root.children.find? (·.localName = "data") with
  | none => .ok none
  | some data => do
    let key ← key targetRef managedFunctionRef
    match data.iter.find? (isEntry profile key) with
    | none => return some []
    | some entry =>
      return some (((leaves entry).filter (·.1 ≠ profile.keyLeaf)).map fun leaf =>
        (toAttributeName leaf.1.toList, leaf.2))

def held (rpc : Xml) : Xml :=
  let config := (rpc.iter.find? (·.localName = "config")).map (·.children)
  base "rpc-reply" [base "data" (config.getD [])]

/-- The names of an edit are read back, told apart and found again in what a server holds of it. -/
structure Survives (targetRef : Str) (managedFunctionRef : Option Str)
    (changes : List (Str × String)) : Prop where
  back : ∀ name ∈ changes.map (·.1), toAttributeName (toYangName name) = name
  apart : ∀ name ∈ changes.map (·.1), ∀ other ∈ changes.map (·.1),
    toYangName name = toYangName other → name = other
  found : ∀ edit : Edit, edit.targetRef = targetRef → edit.managedFunctionRef = managedFunctionRef →
    edit.attributeChanges = changes → edit.operation.carries = true →
      ∃ rpc read, buildEditConfigRpc smoLab edit = .ok rpc ∧
        configAttributes smoLab (held rpc) targetRef managedFunctionRef = .ok (some read) ∧
        ∀ name, name ∈ read.map (·.1) ↔ name ∈ changes.map (·.1)

end Code

section Payload

variable {targetRef : Str} {managedFunctionRef : Option Str} {edit : Edit} {name : Str}

variable {namespace_ text : String} {attributes : List (String × String)} {children : List Xml}
  {key_ : Str}

theorem localPart_qualified {name : String} (plain : '\x7d' ∉ name.toList) :
    Xml.localPart (qualified namespace_ name) = name := by
  have text : (qualified namespace_ name).toList.reverse =
      name.toList.reverse ++ '\x7d' :: (("\x7b" ++ namespace_).toList.reverse) := by
    simp [qualified]
  rw [Xml.localPart, text, List.takeWhile_append_of_pos, List.takeWhile_cons_of_neg (by simp),
    List.append_nil, List.reverse_reverse, String.ofList_toList]
  intro c mem
  refine decide_eq_true fun is => plain ?_
  rw [← is]
  exact List.mem_reverse.mp mem

theorem localName_element {name : String} (plain : '\x7d' ∉ name.toList) :
    (Xml.element (qualified namespace_ name) attributes text children).localName = name := by
  rw [Xml.localName, Xml.tag]
  exact localPart_qualified plain

theorem find_skip {wanted name : String} {rest : List Xml} {keeps : Xml → Bool}
    (plain : '\x7d' ∉ name.toList) (other : name ≠ wanted)
    (asks : ∀ node, keeps node = true → node.localName = wanted) (namespace_ : String) :
    (Xml.element (qualified namespace_ name) attributes text children :: rest).find? keeps =
      rest.find? keeps := by
  refine List.find?_cons_of_neg fun kept => other ?_
  rw [← asks _ kept]
  exact (localName_element plain).symm

theorem held_entry (is : key edit.targetRef edit.managedFunctionRef = .ok key_) :
    ∃ rpc, buildEditConfigRpc smoLab edit = .ok rpc ∧
      held rpc = base "rpc-reply" [base "data" [.element (qualified smoLab.namespace_ smoLab.container)
        [] "" [entry smoLab edit key_]]] := by
  unfold buildEditConfigRpc
  rw [is]
  refine ⟨_, rfl, ?_⟩
  have asks (node : Xml) (is : decide (node.localName = "config") = true) :
      node.localName = "config" := of_decide_eq_true is
  have datastore : '\x7d' ∉ (if edit.candidate then "candidate" else "running").toList ∧
      (if edit.candidate then "candidate" else "running") ≠ "config" := by
    split_ifs <;> decide
  simp only [held, base, Xml.iter, Xml.iterAll, List.append_nil, List.cons_append, List.nil_append]
  rw [find_skip (by decide) (by decide) asks, find_skip (by decide) (by decide) asks,
    find_skip (by decide) (by decide) asks, find_skip datastore.1 datastore.2 asks,
    List.find?_cons_of_pos (p := fun node => decide (Xml.localName node = "config"))
      (decide_eq_true (localName_element (by decide)))]
  rfl

theorem read_entry {rpc : Xml} (is : key targetRef managedFunctionRef = .ok key_)
    (holds : held rpc = base "rpc-reply" [base "data" [.element
      (qualified smoLab.namespace_ smoLab.container) [] "" [entry smoLab edit key_]]]) :
    configAttributes smoLab (held rpc) targetRef managedFunctionRef = .ok (some
      (if (leaves (entry smoLab edit key_)).reverse.lookup "id" = some key_ then
        ((leaves (entry smoLab edit key_)).filter (·.1 ≠ "id")).map fun leaf =>
          (toAttributeName leaf.1.toList, leaf.2)
      else [])) := by
  have asks (node : Xml) (is : isEntry smoLab key_ node = true) : node.localName = "cell" :=
    (of_decide_eq_true is).1
  have data : (held rpc).children.find? (·.localName = "data") = some (base "data" [.element
      (qualified smoLab.namespace_ smoLab.container) [] "" [entry smoLab edit key_]]) := by
    rw [holds]
    exact List.find?_cons_of_pos (decide_eq_true (localName_element (by decide)))
  have cell : (entry smoLab edit key_).localName = "cell" := localName_element (by decide)
  -- the leaves below the entry have no leaves of their own
  have below (nodes : List Xml) (bare : ∀ node ∈ nodes, node.children = []) :
      (Xml.iterAll nodes).find? (isEntry smoLab key_) = none := by
    induction nodes with
    | nil => rfl
    | cons node rest ih =>
      obtain ⟨tag, attributes, text, children⟩ := node
      obtain rfl : children = [] := bare _ List.mem_cons_self
      rw [Xml.iterAll, Xml.iter, Xml.iterAll, List.singleton_append, List.find?_cons_of_neg]
      · exact ih fun node mem => bare node (List.mem_cons_of_mem _ mem)
      · simp [isEntry, leaves, Xml.children]
  have bare : ∀ node ∈ (entry smoLab edit key_).children, node.children = [] := by
    intro node mem
    rcases List.mem_cons.mp mem with rfl | later
    · rfl
    · split_ifs at later
      · obtain ⟨change, -, rfl⟩ := List.mem_map.mp later
        rfl
      · cases later
  have order : (base "data" [.element (qualified smoLab.namespace_ smoLab.container) [] ""
      [entry smoLab edit key_]]).iter =
      base "data" [.element (qualified smoLab.namespace_ smoLab.container) [] ""
        [entry smoLab edit key_]] ::
      .element (qualified smoLab.namespace_ smoLab.container) [] "" [entry smoLab edit key_] ::
      entry smoLab edit key_ :: Xml.iterAll (entry smoLab edit key_).children := by
    simp only [base, Xml.iter, Xml.iterAll, List.append_nil]
    rfl
  rw [configAttributes, data]
  simp only [is, bind, Except.bind, pure, Except.pure]
  rw [order, base, find_skip (by decide) (by decide) asks, find_skip (by decide) (by decide) asks]
  have mine : isEntry smoLab key_ (entry smoLab edit key_) =
      decide ((leaves (entry smoLab edit key_)).reverse.lookup "id" = some key_) :=
    decide_eq_decide.mpr (and_iff_right cell)
  by_cases found : (leaves (entry smoLab edit key_)).reverse.lookup "id" = some key_
  · rw [List.find?_cons_of_pos (mine.trans (decide_eq_true found)), if_pos found]
    rfl
  · rw [List.find?_cons_of_neg (by rw [mine]; simpa using found), below _ bare, if_neg found]

theorem hyphenate_plain {before : Option Char} (plain : '\x7d' ∉ name) :
    '\x7d' ∉ hyphenate before name := by
  induction name generalizing before with
  | nil => exact List.not_mem_nil
  | cons c rest ih =>
    obtain ⟨differs, later⟩ := not_or.mp (fun is => plain (List.mem_cons.mpr is))
    rw [hyphenate]
    split_ifs with starts
    · have upper : c.isUpper = true := (Bool.and_eq_true_iff.mp starts).2
      rw [List.mem_cons, List.mem_cons, not_or, not_or]
      refine ⟨by decide, fun is => ?_, ih later⟩
      have alpha : c.toLower.isAlpha = true := by
        rw [Char.isAlpha_toLower_eq_isAlpha, Char.isAlpha, upper, Bool.true_or]
      rw [← is] at alpha
      cases alpha
    · rw [List.mem_cons, not_or]
      exact ⟨differs, ih later⟩

theorem identifier_plain (is : identifier name = true) : '\x7d' ∉ name := by
  cases name with
  | nil => exact List.not_mem_nil
  | cons first rest =>
    obtain ⟨head, later⟩ := Bool.and_eq_true_iff.mp is
    intro mem
    rcases List.mem_cons.mp mem with rfl | inRest
    · revert head
      decide
    · have := List.all_eq_true.mp later _ inRest
      revert this
      decide

theorem leaves_entry (carries : edit.operation.carries = true)
    (plain : ∀ change ∈ edit.attributeChanges, '\x7d' ∉ change.1) :
    leaves (entry smoLab edit key_) = ("id", Str.strip key_) :: edit.attributeChanges.map fun change =>
      (String.ofList (toYangName change.1), Str.strip change.2.toList) := by
  have named (name : Str) (text : String) (plain : '\x7d' ∉ name) :
      (leaf smoLab name text).localName = String.ofList name :=
    localName_element (by rwa [String.toList_ofList])
  simp only [leaves, entry, Xml.children, carries, if_true, List.map_cons, List.map_map]
  refine List.cons_eq_cons.mpr ⟨?_, List.map_congr_left fun change mem => ?_⟩
  · rw [named _ _ (by decide)]
    simp [leaf, Xml.text, smoLab]
  · exact Prod.ext (named _ _ (hyphenate_plain (plain change mem))) rfl

theorem lookup_key {value : Str} {more : List (String × Str)} (apart : ∀ leaf ∈ more, leaf.1 ≠ "id") :
    (("id", value) :: more).reverse.lookup "id" = some value := by
  have absent : more.reverse.lookup "id" = none := by
    refine List.lookup_eq_none_iff.mpr fun leaf mem => ?_
    simpa using Ne.symm (apart leaf (List.mem_reverse.mp mem))
  rw [List.reverse_cons, List.lookup_append, absent]
  rfl

def leafOf (change : Str × String) : String × Str :=
  (String.ofList (toYangName change.1), Str.strip change.2.toList)

def attributesOf (read : List (String × Str)) : List (Str × Str) :=
  (read.filter (·.1 ≠ "id")).map fun leaf => (toAttributeName leaf.1.toList, leaf.2)

section Read

variable {changes : List (Str × String)} {value : Str}

theorem leafOf_id (change : Str × String) (back : toAttributeName (toYangName change.1) = change.1) :
    (leafOf change).1 = "id" ↔ change.1 = "id".toList := by
  constructor
  · intro is
    have yang : toYangName change.1 = "id".toList := by
      rw [← is, leafOf, String.toList_ofList]
    rw [← back, yang]
    decide
  · intro is
    rw [leafOf, is]
    exact (by decide : String.ofList (toYangName "id".toList) = "id")

theorem mem_attributesOf (back : ∀ change ∈ changes, toAttributeName (toYangName change.1) = change.1) :
    name ∈ (attributesOf (("id", value) :: changes.map leafOf)).map (·.1) ↔
      name ∈ changes.map (·.1) ∧ name ≠ "id".toList := by
  rw [attributesOf, List.filter_cons_of_neg (by simp), List.map_map]
  constructor
  · intro mem
    obtain ⟨leaf, inLeaves, rfl⟩ := List.mem_map.mp mem
    obtain ⟨written, other⟩ := List.mem_filter.mp inLeaves
    obtain ⟨change, inChanges, rfl⟩ := List.mem_map.mp written
    have own : toAttributeName (leafOf change).1.toList = change.1 := by
      rw [leafOf, String.toList_ofList]
      exact back change inChanges
    rw [Function.comp_apply, own]
    refine ⟨List.mem_map_of_mem inChanges, fun is => ?_⟩
    exact of_decide_eq_true other ((leafOf_id change (back change inChanges)).mpr is)
  · rintro ⟨mem, other⟩
    obtain ⟨change, inChanges, rfl⟩ := List.mem_map.mp mem
    refine List.mem_map.mpr ⟨leafOf change, List.mem_filter.mpr ⟨List.mem_map_of_mem inChanges, ?_⟩, ?_⟩
    · exact decide_eq_true fun is => other ((leafOf_id change (back change inChanges)).mp is)
    · rw [Function.comp_apply, leafOf, String.toList_ofList]
      exact back change inChanges

theorem lookup_changes (back : ∀ change ∈ changes, toAttributeName (toYangName change.1) = change.1)
    (other : "id".toList ∉ changes.map (·.1)) :
    (("id", value) :: changes.map leafOf).reverse.lookup "id" = some value := by
  refine lookup_key fun leaf mem => ?_
  obtain ⟨change, inChanges, rfl⟩ := List.mem_map.mp mem
  intro is
  rw [leafOf_id change (back change inChanges)] at is
  exact other (is ▸ List.mem_map_of_mem inChanges)

end Read

theorem read_edit {key_ : Str} (carries : edit.operation.carries = true)
    (plain : ∀ change ∈ edit.attributeChanges, '\x7d' ∉ change.1)
    (is : key edit.targetRef edit.managedFunctionRef = .ok key_) :
    ∃ rpc, buildEditConfigRpc smoLab edit = .ok rpc ∧
      configAttributes smoLab (held rpc) edit.targetRef edit.managedFunctionRef = .ok (some
        (if (("id", Str.strip key_) :: edit.attributeChanges.map leafOf).reverse.lookup "id" = some key_
        then attributesOf (("id", Str.strip key_) :: edit.attributeChanges.map leafOf) else [])) := by
  obtain ⟨rpc, built, holds⟩ := held_entry is
  refine ⟨rpc, built, ?_⟩
  rw [read_entry is holds, leaves_entry carries plain]
  rfl

def capitals : List (Str × String) := [("nRPCI".toList, "7")]

end Payload

end Smo.RanNfOam.YangPayload
