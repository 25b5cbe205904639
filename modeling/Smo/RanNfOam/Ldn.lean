import Smo.Shared.Str

/-! Local distinguished names (`app/ldn.py`). A reference is a flat id or a
comma-separated list of `Class=id` RDNs; one that carries `=` must parse. -/
namespace Smo.RanNfOam

structure Rdn where
  cls : Str
  ident : Str
  deriving DecidableEq, Repr

namespace Rdn

/-- `f"{c}={i}"`. -/
def render (rdn : Rdn) : Str := rdn.cls ++ '=' :: rdn.ident

end Rdn

namespace Ldn

def classStart (c : Char) : Bool := c.isAlpha || c == '_'

def classChar (c : Char) : Bool := c.isAlphanum || c == '_'

/-- `^[A-Za-z_][A-Za-z0-9_]*$` under `re.match`: `$` also matches before a
newline that ends the text. -/
def isClass (cls : Str) : Bool :=
  match cls with
  | [] => false
  | first :: rest =>
    classStart first && (rest.all classChar ||
      (rest.getLast? == some '\n' && rest.dropLast.all classChar))

/-- The `ValueError` of `parse_ldn`: the reference and its first bad RDN. -/
structure BadRdn where
  ref : Str
  part : Str
  deriving DecidableEq, Repr

def parsePart (part : Str) : Option Rdn :=
  match Text.partition '=' part with
  | (_, none) => none
  | (cls, some ident) =>
    if isClass cls && Str.strip ident != [] then some ⟨cls, Str.strip ident⟩ else none

def parseParts (ref : Str) : List Str → Except BadRdn (List Rdn)
  | [] => .ok []
  | part :: rest =>
    match parsePart part with
    | none => .error ⟨ref, part⟩
    | some rdn => do
      let rdns ← parseParts ref rest
      return rdn :: rdns

def parseLdn (ref : Str) : Except BadRdn (List Rdn) := parseParts ref (Str.split ',' ref)

/-- A reference unchanged; one carrying `=` must be a valid DN. -/
def checkRef (ref : Str) : Except BadRdn Str :=
  if '=' ∈ ref then do
    let _ ← parseLdn ref
    return ref
  else .ok ref

variable {c : Char} {part ref root below : Str} {rdn : Rdn} {parts : List Str} {rdns : List Rdn}

theorem classChar_ne_separators (h : classChar c = true) : c ≠ '=' ∧ c ≠ ',' ∧ c ≠ '/' := by
  refine ⟨?_, ?_, ?_⟩ <;> rintro rfl <;> exact absurd h (by decide)

theorem classStart_classChar (h : classStart c = true) : classChar c = true := by
  simp only [classStart, classChar, Char.isAlphanum, Bool.or_eq_true] at h ⊢
  rcases h with h | h
  · exact Or.inl (Or.inl h)
  · exact Or.inr h

theorem isClass_separators {cls : Str} (h : isClass cls = true) (mem : c ∈ cls) :
    c ≠ '=' ∧ c ≠ ',' ∧ c ≠ '/' := by
  cases cls with
  | nil => cases mem
  | cons first rest =>
    simp only [isClass, Bool.and_eq_true, Bool.or_eq_true, beq_iff_eq] at h
    obtain ⟨start, h⟩ := h
    rcases List.mem_cons.mp mem with rfl | inRest
    · exact classChar_ne_separators (classStart_classChar start)
    · rcases h with all | ⟨last, all⟩
      · exact classChar_ne_separators (List.all_eq_true.mp all c inRest)
      · obtain ⟨init, rfl⟩ := List.getLast?_eq_some_iff.mp last
        rw [List.dropLast_concat] at all
        rcases List.mem_append.mp inRest with inInit | newline
        · exact classChar_ne_separators (List.all_eq_true.mp all c inInit)
        · obtain rfl := List.mem_singleton.mp newline
          decide

theorem parsePart_some (h : parsePart part = some rdn) :
    ∃ ident, part = rdn.cls ++ '=' :: ident ∧ isClass rdn.cls = true ∧
      rdn.ident = Str.strip ident ∧ Str.strip ident ≠ [] := by
  unfold parsePart at h
  split at h
  · cases h
  next cls ident parts =>
    split at h
    next good =>
      simp only [Bool.and_eq_true, bne_iff_ne] at good
      cases h
      exact ⟨ident, (Text.partition_some parts).1, good.1, rfl, good.2⟩
    · cases h

theorem parsePart_class_absent (h : parsePart part = some rdn) : '=' ∉ rdn.cls := by
  obtain ⟨_, _, isClass, _⟩ := parsePart_some h
  exact fun mem => (isClass_separators isClass mem).1 rfl

theorem parseParts_append (ref : Str) (front back : List Str) :
    parseParts ref (front ++ back) = (do
      let rdns ← parseParts ref front
      let more ← parseParts ref back
      return rdns ++ more) := by
  induction front with
  | nil =>
    simp only [List.nil_append, parseParts]
    cases parseParts ref back <;> rfl
  | cons part rest ih =>
    simp only [List.cons_append, parseParts]
    cases parsePart part with
    | none => rfl
    | some rdn =>
      simp only [ih]
      cases parseParts ref rest with
      | error error => rfl
      | ok rdns => cases parseParts ref back <;> rfl

theorem parseParts_ok_ref (ref' : Str) (h : parseParts ref parts = .ok rdns) :
    parseParts ref' parts = .ok rdns := by
  induction parts generalizing rdns with
  | nil => exact h
  | cons part rest ih =>
    simp only [parseParts] at h ⊢
    cases hp : parsePart part with
    | none => simp [hp] at h
    | some rdn =>
      simp only [hp] at h
      cases hr : parseParts ref rest with
      | error error => simp [hr, bind, Except.bind] at h
      | ok more => rw [ih hr]; rw [hr] at h; exact h

theorem parseParts_rdn (h : parseParts ref parts = .ok rdns) (mem : rdn ∈ rdns) :
    ∃ part ∈ parts, parsePart part = some rdn := by
  induction parts generalizing rdns with
  | nil =>
    cases h
    cases mem
  | cons part rest ih =>
    simp only [parseParts] at h
    cases hp : parsePart part with
    | none => simp [hp] at h
    | some first =>
      simp only [hp] at h
      cases hr : parseParts ref rest with
      | error error => simp [hr, bind, Except.bind] at h
      | ok more =>
        simp only [hr, bind, Except.bind, pure, Except.pure, Except.ok.injEq] at h
        subst h
        rcases List.mem_cons.mp mem with rfl | inMore
        · exact ⟨part, by simp, hp⟩
        · obtain ⟨found, inRest, parsed⟩ := ih hr inMore
          exact ⟨found, by simp [inRest], parsed⟩

theorem parseParts_ne_nil (h : parseParts ref parts = .ok rdns) (some : parts ≠ []) :
    rdns ≠ [] := by
  cases parts with
  | nil => exact absurd rfl some
  | cons part rest =>
    simp only [parseParts] at h
    cases hp : parsePart part with
    | none => simp [hp] at h
    | some first =>
      cases hr : parseParts ref rest with
      | error error => simp [hp, hr, bind, Except.bind] at h
      | ok more =>
        simp only [hp, hr, bind, Except.bind, pure, Except.pure, Except.ok.injEq] at h
        simp [← h]

theorem parseLdn_ne_nil (h : parseLdn ref = .ok rdns) : rdns ≠ [] :=
  parseParts_ne_nil h (List.splitOn_ne_nil _ _)

theorem parseLdn_class_absent (h : parseLdn ref = .ok rdns) (mem : rdn ∈ rdns) : '=' ∉ rdn.cls := by
  obtain ⟨_, _, parsed⟩ := parseParts_rdn h mem
  exact parsePart_class_absent parsed

theorem parseLdn_below {above : List Rdn} (hroot : parseLdn root = .ok above)
    (hbelow : parseLdn below = .ok rdns) :
    parseLdn (root ++ ',' :: below) = .ok (above ++ rdns) := by
  have front := parseParts_ok_ref (root ++ ',' :: below) hroot
  have back := parseParts_ok_ref (root ++ ',' :: below) hbelow
  simp only [Str.split] at front back
  rw [parseLdn, Str.split, List.splitOn_append_cons_self, parseParts_append, front, back]
  rfl

theorem parseLdn_root_of_below (h : parseLdn (root ++ ',' :: below) = .ok rdns) :
    ∃ above, parseLdn root = .ok above := by
  rw [parseLdn, Str.split, List.splitOn_append_cons_self, parseParts_append] at h
  cases hr : parseParts (root ++ ',' :: below) (List.splitOn ',' root) with
  | error error => simp [hr, bind, Except.bind] at h
  | ok above => exact ⟨above, parseParts_ok_ref _ hr⟩

theorem parseLdn_singleton (cls ident : Str) (good : isClass cls = true) (comma : ',' ∉ ident) :
    parseLdn (cls ++ '=' :: ident) =
      if Str.strip ident ≠ [] then .ok [⟨cls, Str.strip ident⟩]
      else .error ⟨cls ++ '=' :: ident, cls ++ '=' :: ident⟩ := by
  have absent : ',' ∉ cls ++ '=' :: ident := by
    simp only [List.mem_append, List.mem_cons, not_or]
    exact ⟨fun mem => (isClass_separators good mem).2.1 rfl, by decide, comma⟩
  have headless : '=' ∉ cls := fun mem => (isClass_separators good mem).1 rfl
  rw [parseLdn, Str.split, List.splitOn_eq_singleton absent, parseParts, parsePart,
    Text.partition_append _ headless]
  by_cases blank : Str.strip ident = []
  · simp [blank]
  · simp [good, blank, parseParts, bind, Except.bind, pure, Except.pure]

theorem parseLdn_of_below (h : parseLdn (root ++ ',' :: below) = .ok rdns) :
    ∃ more, parseLdn below = .ok more := by
  rw [parseLdn, Str.split, List.splitOn_append_cons_self, parseParts_append] at h
  cases hr : parseParts (root ++ ',' :: below) (List.splitOn ',' root) with
  | error error => simp [hr, bind, Except.bind] at h
  | ok above =>
    cases hb : parseParts (root ++ ',' :: below) (List.splitOn ',' below) with
    | error error => simp [hr, hb, bind, Except.bind] at h
    | ok more => exact ⟨more, parseParts_ok_ref _ hb⟩

theorem dn_of_parseLdn (h : parseLdn ref = .ok rdns) : '=' ∈ ref := by
  have joined : [','].intercalate (List.splitOn ',' ref) = ref := List.intercalate_splitOn _
  rw [parseLdn, Str.split] at h
  cases parts : List.splitOn ',' ref with
  | nil => exact absurd parts (List.splitOn_ne_nil _ _)
  | cons part rest =>
    rw [parts] at joined h
    cases hp : parsePart part with
    | none => simp [parseParts, hp] at h
    | some rdn =>
      obtain ⟨ident, rfl, -⟩ := parsePart_some hp
      rw [← joined, ← Text.join, Text.join_cons]
      simp

theorem checkRef_parses (h : checkRef ref = .ok ref) (dn : '=' ∈ ref) :
    ∃ rdns, parseLdn ref = .ok rdns := by
  rw [checkRef, if_pos dn] at h
  cases hp : parseLdn ref with
  | error error => simp [hp, bind, Except.bind] at h
  | ok rdns => exact ⟨rdns, rfl⟩

end Ldn
end Smo.RanNfOam

/-! Distinguished names of managed objects (`app/mo_tree.py`): the root object of
an element and the object a write targets. -/
namespace Smo.RanNfOam.MoTree

open Ldn

def managedElementPrefix : Str := "ManagedElement=".toList

def rootDn (managedElementRef : Str) : Str :=
  if '=' ∈ managedElementRef then managedElementRef
  else managedElementPrefix ++ managedElementRef

/-- The DN a write targets: the element root, or the function below it. A full DN
is taken as given, and a flat function id is the root's. -/
def targetDn (managedElementRef : Str) (managedFunctionRef : Option Str) : Str :=
  let root := rootDn managedElementRef
  match managedFunctionRef with
  | none => root
  | some function =>
    if function = [] then root
    else if '=' ∉ function then root
    else if managedElementPrefix.isPrefixOf function then function
    else root ++ ',' :: function

variable {function me : Str}

theorem ne_nil_of_dn (dn : '=' ∈ function) : function ≠ [] := by
  rintro rfl
  exact absurd dn List.not_mem_nil

theorem targetDn_full (dn : '=' ∈ function) (full : managedElementPrefix.isPrefixOf function = true)
    : targetDn me (some function) = function := by
  simp only [targetDn, if_neg (ne_nil_of_dn dn), if_neg (not_not_intro dn), if_pos full]

theorem targetDn_below (dn : '=' ∈ function)
    (below : managedElementPrefix.isPrefixOf function = false) :
    targetDn me (some function) = rootDn me ++ ',' :: function := by
  simp only [targetDn, if_neg (ne_nil_of_dn dn), if_neg (not_not_intro dn), below,
    Bool.false_eq_true, if_false]

end Smo.RanNfOam.MoTree
