import Smo.RanNfOam.Msac

/-! The access path MSAC evaluates against the object that is written. The two
modules read a pair of references apart: `msac.target_path` puts the function's
RDNs under the element whatever they are, `mo_tree.target_dn` takes a function
that starts at `ManagedElement=` as the whole DN. -/
namespace Smo.RanNfOam.Msac

open Ldn MoTree

/-- A change target that request validation accepts and whose function reference
is a DN. -/
structure DnTarget where
  me : Str
  function : Str
  me_accepted : checkRef me = .ok me
  function_accepted : checkRef function = .ok function
  function_dn : '=' ∈ function

namespace DnTarget

def objectRdns (t : DnTarget) : Except BadRdn (List Rdn) :=
  parseLdn (targetDn t.me (some t.function))

def accessPath (t : DnTarget) : Except BadRdn Str := targetPath t.me (some t.function)

def NamesObject (t : DnTarget) : Prop :=
  ∃ rdns, t.objectRdns = .ok rdns ∧ t.accessPath = .ok (dnPath rdns)

/-- The element reference reads the same to both modules: it is a DN, or a flat key
with no comma, that is not blank and has no blanks around it. -/
def PlainElement (t : DnTarget) : Prop :=
  '=' ∈ t.me ∨ (t.me ≠ [] ∧ Str.strip t.me = t.me ∧ ',' ∉ t.me)

def BelowRoot (t : DnTarget) : Prop := managedElementPrefix.isPrefixOf t.function = false

theorem function_parses (t : DnTarget) : ∃ below, parseLdn t.function = .ok below :=
  checkRef_parses t.function_accepted t.function_dn

theorem element_parses (t : DnTarget) : ∃ above, elementRdns t.me = .ok above := by
  by_cases dn : '=' ∈ t.me
  · rw [elementRdns_dn dn]
    exact checkRef_parses t.me_accepted dn
  · exact ⟨_, elementRdns_flat dn⟩

theorem accessPath_eq {t : DnTarget} (helement : elementRdns t.me = .ok above)
    (hfunction : parseLdn t.function = .ok below) :
    t.accessPath = .ok (dnPath (above ++ below)) :=
  targetPath_dn t.function_dn helement hfunction

end DnTarget

variable {me : Str} {rdn rdn' : Rdn} {rdns rdns' : List Rdn}

theorem elementRdns_ne_nil (h : elementRdns me = .ok above) : above ≠ [] := by
  by_cases dn : '=' ∈ me
  · rw [elementRdns_dn dn] at h
    exact parseLdn_ne_nil h
  · rw [elementRdns_flat dn] at h
    cases h
    simp

theorem elementRdns_class_absent (h : elementRdns me = .ok above) (mem : rdn ∈ above) :
    '=' ∉ rdn.cls := by
  by_cases dn : '=' ∈ me
  · rw [elementRdns_dn dn] at h
    exact parseLdn_class_absent h mem
  · rw [elementRdns_flat dn] at h
    cases h
    obtain rfl := List.mem_singleton.mp mem
    exact (by decide : '=' ∉ "ManagedElement".toList)

theorem dnPath_inj : dnPath rdns = dnPath rdns' ↔
      Text.join '/' (rdns.map Rdn.render) = Text.join '/' (rdns'.map Rdn.render) := by
  simp only [dnPath, Str.join, List.cons.injEq, true_and]

theorem dnPath_append_ne {above below : List Rdn} (some : above ≠ []) (some' : below ≠ []) :
    dnPath (above ++ below) ≠ dnPath below := by
  intro same
  rw [dnPath_inj, List.map_append] at same
  have longer := Text.length_join_append '/' (above.map Rdn.render) (below.map Rdn.render)
    (by simpa using some) (by simpa using some')
  rw [same] at longer
  exact lt_irrefl _ longer

/-- An id of `rdns'` runs over a `/` through the RDNs that follow in `rdns`: up to
there the two sequences agree, and the rest is the same text. -/
def RunsOver (rdns rdns' : List Rdn) : Prop :=
  ∃ common cls ident extra rest rest',
    rdns = common ++ ⟨cls, ident⟩ :: rest ∧
    rdns' = common ++ ⟨cls, ident ++ '/' :: extra⟩ :: rest' ∧
    rest ≠ [] ∧
    Str.join '/' (rest.map Rdn.render) = Str.join '/' (extra :: rest'.map Rdn.render)

theorem render_injective (absent : '=' ∉ rdn.cls) (absent' : '=' ∉ rdn'.cls)
    (h : rdn.render = rdn'.render) : rdn = rdn' := by
  obtain ⟨cls, ident⟩ := Text.headed_injective absent absent' h
  cases rdn
  cases rdn'
  simp_all

theorem render_over (absent : '=' ∉ rdn.cls) (absent' : '=' ∉ rdn'.cls) {extra : Str}
    (h : rdn'.render = rdn.render ++ '/' :: extra) :
    rdn' = ⟨rdn.cls, rdn.ident ++ '/' :: extra⟩ := by
  refine render_injective absent' absent (h.trans ?_)
  simp only [Rdn.render, List.append_assoc, List.cons_append]

theorem join_render_ne_nil (first : Rdn) (rest : List Rdn) :
    Text.join '/' ((first :: rest).map Rdn.render) ≠ [] := by
  rw [List.map_cons, Text.join_cons]
  simp [Rdn.render]

theorem RunsOver.cons {rdns rdns' : List Rdn} (first : Rdn) (h : RunsOver rdns rdns') :
    RunsOver (first :: rdns) (first :: rdns') := by
  obtain ⟨common, cls, ident, extra, rest, rest', rfl, rfl, some, same⟩ := h
  exact ⟨first :: common, cls, ident, extra, rest, rest', rfl, rfl, some, same⟩

theorem runsOver_of_dnPath_eq (absent : ∀ rdn ∈ rdns, '=' ∉ rdn.cls)
    (absent' : ∀ rdn ∈ rdns', '=' ∉ rdn.cls) (same : dnPath rdns = dnPath rdns') :
    rdns = rdns' ∨ RunsOver rdns rdns' ∨ RunsOver rdns' rdns := by
  rw [dnPath_inj] at same
  induction rdns generalizing rdns' with
  | nil =>
    cases rdns' with
    | nil => exact Or.inl rfl
    | cons first' rest' => exact absurd same.symm (join_render_ne_nil first' rest')
  | cons first rest ih =>
    cases rdns' with
    | nil => exact absurd same (join_render_ne_nil first rest)
    | cons first' rest' =>
      simp only [List.map_cons] at same
      have head := absent first (by simp)
      have head' := absent' first' (by simp)
      by_cases equal : first.render = first'.render
      · obtain rfl := render_injective head head' equal
        rw [Text.join_cons_inj] at same
        have tails : Text.join '/' (rest.map Rdn.render) = Text.join '/' (rest'.map Rdn.render) := by
          cases rest <;> cases rest' <;> simp_all [Text.tail]
        rcases ih (fun r h => absent r (by simp [h])) (fun r h => absent' r (by simp [h])) tails with
          rfl | extra | extra
        · exact Or.inl rfl
        · exact Or.inr (Or.inl (extra.cons first))
        · exact Or.inr (Or.inr (extra.cons first))
      · right
        rcases Text.join_first_differs same equal with ⟨extra, hover⟩ | ⟨extra, hover⟩
        · obtain ⟨some, rest_same⟩ := (Text.join_eq_over_iff hover).mp same
          left
          exact ⟨[], first.cls, first.ident, extra, rest, rest', rfl,
            by rw [render_over head head' hover]; rfl, by simpa using some, rest_same⟩
        · obtain ⟨some, rest_same⟩ := (Text.join_eq_over_iff hover).mp same.symm
          right
          exact ⟨[], first'.cls, first'.ident, extra, rest', rest, rfl,
            by rw [render_over head' head hover]; rfl, by simpa using some, rest_same⟩

theorem dnPath_eq_of_runsOver (h : RunsOver rdns rdns') : dnPath rdns = dnPath rdns' := by
  obtain ⟨common, cls, ident, extra, rest, rest', rfl, rfl, some, same⟩ := h
  rw [dnPath_inj]
  induction common with
  | nil =>
    have hover : Rdn.render ⟨cls, ident ++ '/' :: extra⟩ =
        Rdn.render ⟨cls, ident⟩ ++ '/' :: extra := by
      simp [Rdn.render]
    exact (Text.join_eq_over_iff hover).mpr ⟨by simpa using some, same⟩
  | cons first common ih =>
    simp only [List.cons_append, List.map_cons, Text.join_cons]
    rw [Text.tail_of_ne_nil (by simp), Text.tail_of_ne_nil (by simp), ih]

theorem RunsOver.ne (h : RunsOver rdns rdns') : rdns ≠ rdns' := by
  obtain ⟨common, cls, ident, extra, rest, rest', rfl, rfl, -, -⟩ := h
  simp

namespace DnTarget

variable {me : Str} {t : DnTarget}

theorem comma_absent_of_flat_parses (flat : '=' ∉ me)
    (h : parseLdn (managedElementPrefix ++ me) = .ok rdns) : ',' ∉ me := by
  intro comma
  obtain ⟨before, after, rfl⟩ := List.append_of_mem comma
  rw [← List.append_assoc] at h
  obtain ⟨_, parsed⟩ := parseLdn_of_below h
  exact flat (by simp [dn_of_parseLdn parsed])

theorem parseLdn_flat (comma : ',' ∉ me) : parseLdn (managedElementPrefix ++ me) =
      if Str.strip me ≠ [] then .ok [⟨"ManagedElement".toList, Str.strip me⟩]
      else .error ⟨managedElementPrefix ++ me, managedElementPrefix ++ me⟩ :=
  parseLdn_singleton "ManagedElement".toList me (by decide) comma

theorem objectRdns_of_plain (beneath : t.BelowRoot) (plain : t.PlainElement)
    (habove : elementRdns t.me = .ok above) (hbelow : parseLdn t.function = .ok below) :
    t.objectRdns = .ok (above ++ below) := by
  rw [objectRdns, targetDn_below t.function_dn beneath]
  refine parseLdn_below ?_ hbelow
  by_cases dn : '=' ∈ t.me
  · rw [rootDn, if_pos dn, ← elementRdns_dn dn]
    exact habove
  · rcases plain with found | ⟨some, stripped, comma⟩
    · exact absurd found dn
    · rw [rootDn, if_neg dn, parseLdn_flat comma, stripped, if_pos some,
        ← elementRdns_flat dn]
      exact habove

theorem plain_of_names_flat (beneath : t.BelowRoot) (flat : '=' ∉ t.me) (h : t.NamesObject) :
    t.PlainElement := by
  obtain ⟨below, hbelow⟩ := t.function_parses
  obtain ⟨rdns, hobject, hpath⟩ := h
  rw [accessPath_eq (elementRdns_flat flat) hbelow] at hpath
  rw [objectRdns, targetDn_below t.function_dn beneath, rootDn, if_neg flat] at hobject
  obtain ⟨root, hroot⟩ := parseLdn_root_of_below hobject
  have comma := comma_absent_of_flat_parses flat hroot
  have parsed := parseLdn_flat comma
  rw [hroot] at parsed
  by_cases blank : Str.strip t.me = []
  · simp [blank] at parsed
  · rw [if_pos blank] at parsed
    cases parsed
    rw [parseLdn_below hroot hbelow] at hobject
    cases hobject
    have same := dnPath_inj.mp (Except.ok.inj hpath)
    simp only [List.singleton_append, List.map_cons, Text.join_cons,
      List.append_cancel_right_eq, Rdn.render, List.append_cancel_left_eq,
      List.cons.injEq, true_and] at same
    exact Or.inr ⟨fun empty => blank (by rw [empty]; rfl), same.symm, comma⟩

theorem namesObject_iff (t : DnTarget) : t.NamesObject ↔ t.BelowRoot ∧ t.PlainElement := by
  obtain ⟨above, habove⟩ := t.element_parses
  obtain ⟨below, hbelow⟩ := t.function_parses
  constructor
  · intro h
    have beneath : t.BelowRoot := by
      rw [BelowRoot, Bool.eq_false_iff]
      intro full
      obtain ⟨rdns, hobject, hpath⟩ := h
      rw [objectRdns, targetDn_full t.function_dn full, hbelow] at hobject
      cases hobject
      rw [accessPath_eq habove hbelow] at hpath
      exact dnPath_append_ne (elementRdns_ne_nil habove) (parseLdn_ne_nil hbelow)
        (Except.ok.inj hpath)
    refine ⟨beneath, ?_⟩
    by_cases dn : '=' ∈ t.me
    · exact Or.inl dn
    · exact plain_of_names_flat beneath dn h
  · rintro ⟨beneath, plain⟩
    exact ⟨above ++ below, objectRdns_of_plain beneath plain habove hbelow,
      accessPath_eq habove hbelow⟩

end DnTarget

/-- What the access path of each of two targets owes the objects they write: it
names the object, it is decided on as the object's own path is, and objects with
different RDNs have different paths. -/
structure AccessPathsFaithful (t t' : DnTarget) : Prop where
  names : t.NamesObject
  names' : t'.NamesObject
  decides : ∀ db roles operation rdns path, t.objectRdns = .ok rdns → t.accessPath = .ok path →
    authorize db roles path operation = authorize db roles (dnPath rdns) operation
  separates : ∀ rdns rdns', t.objectRdns = .ok rdns → t'.objectRdns = .ok rdns' →
    rdns ≠ rdns' → t.accessPath ≠ t'.accessPath

/-- No id of one target runs over a `/` through the RDNs of the other one's references. -/
def IdsApart (t t' : DnTarget) : Prop :=
  ∀ above below above' below', elementRdns t.me = .ok above → parseLdn t.function = .ok below →
    elementRdns t'.me = .ok above' → parseLdn t'.function = .ok below' →
    ¬RunsOver (above ++ below) (above' ++ below') ∧ ¬RunsOver (above' ++ below') (above ++ below)

theorem accessPath_eq_iff {t t' : DnTarget} (habove : elementRdns t.me = .ok above)
    (hbelow : parseLdn t.function = .ok below) (habove' : elementRdns t'.me = .ok above')
    (hbelow' : parseLdn t'.function = .ok below') :
    t.accessPath = t'.accessPath ↔ above ++ below = above' ++ below' ∨
      RunsOver (above ++ below) (above' ++ below') ∨
      RunsOver (above' ++ below') (above ++ below) := by
  have absent {above below : List Rdn} {me function : Str} (h : elementRdns me = .ok above)
      (h' : parseLdn function = .ok below) : ∀ rdn ∈ above ++ below, '=' ∉ rdn.cls := by
    intro rdn mem
    rcases List.mem_append.mp mem with mem | mem
    · exact elementRdns_class_absent h mem
    · exact parseLdn_class_absent h' mem
  rw [DnTarget.accessPath_eq habove hbelow, DnTarget.accessPath_eq habove' hbelow', Except.ok.injEq]
  constructor
  · exact runsOver_of_dnPath_eq (absent habove hbelow) (absent habove' hbelow')
  · rintro (same | extra | extra)
    · rw [same]
    · exact dnPath_eq_of_runsOver extra
    · exact (dnPath_eq_of_runsOver extra).symm

/-- The access paths of two accepted targets are faithful to their objects exactly
when both function references are below the root, both element references are
plain, and no id runs over a `/` through RDNs of the other target. -/
theorem accessPathsFaithful_iff (t t' : DnTarget) :
    AccessPathsFaithful t t' ↔
      (t.BelowRoot ∧ t.PlainElement) ∧ (t'.BelowRoot ∧ t'.PlainElement) ∧ IdsApart t t' := by
  obtain ⟨above, habove⟩ := t.element_parses
  obtain ⟨below, hbelow⟩ := t.function_parses
  obtain ⟨above', habove'⟩ := t'.element_parses
  obtain ⟨below', hbelow'⟩ := t'.function_parses
  have paths := accessPath_eq_iff habove hbelow habove' hbelow'
  constructor
  · intro h
    have plain := t.namesObject_iff.mp h.names
    have plain' := t'.namesObject_iff.mp h.names'
    have object := DnTarget.objectRdns_of_plain plain.1 plain.2 habove hbelow
    have object' := DnTarget.objectRdns_of_plain plain'.1 plain'.2 habove' hbelow'
    refine ⟨plain, plain', ?_⟩
    intro a b a' b' ha hb ha' hb'
    rw [habove] at ha
    rw [hbelow] at hb
    rw [habove'] at ha'
    rw [hbelow'] at hb'
    cases ha
    cases hb
    cases ha'
    cases hb'
    constructor
    · intro extra
      exact h.separates _ _ object object' extra.ne (paths.mpr (Or.inr (Or.inl extra)))
    · intro extra
      exact h.separates _ _ object object' extra.ne.symm (paths.mpr (Or.inr (Or.inr extra)))
  · rintro ⟨plain, plain', apart⟩
    have object := DnTarget.objectRdns_of_plain plain.1 plain.2 habove hbelow
    have object' := DnTarget.objectRdns_of_plain plain'.1 plain'.2 habove' hbelow'
    refine ⟨t.namesObject_iff.mpr plain, t'.namesObject_iff.mpr plain', ?_, ?_⟩
    · intro db roles operation rdns path hrdns hpath
      rw [object] at hrdns
      rw [DnTarget.accessPath_eq habove hbelow] at hpath
      cases hrdns
      cases hpath
      rfl
    · intro rdns rdns' hrdns hrdns' differ same
      rw [object] at hrdns
      rw [object'] at hrdns'
      cases hrdns
      cases hrdns'
      obtain ⟨notOver, notOver'⟩ := apart _ _ _ _ habove hbelow habove' hbelow'
      rcases paths.mp same with equal | extra | extra
      · exact differ equal
      · exact notOver extra
      · exact notOver' extra

def fullDnTarget : DnTarget where
  me := "ME-1".toList
  function := "ManagedElement=ME-1,GNBDUFunction=1".toList
  me_accepted := by decide
  function_accepted := by decide
  function_dn := by decide

def guardedRole : MsacRole := ⟨1, "operator", [1, 2]⟩

def guardedDb : Db where
  roles := [guardedRole]
  accessRules :=
    [⟨1, "/*".toList, [.update], .allow⟩,
      ⟨2, "/ManagedElement=ME-1/GNBDUFunction=1*".toList, [.update], .deny⟩]

/-- The DENY on the object does not reach its full spelling, which the broader ALLOW
lets through. -/
theorem fullDn_escapes_deny :
    ¬AccessPathsFaithful fullDnTarget fullDnTarget ∧
      fullDnTarget.objectRdns =
        .ok [⟨"ManagedElement".toList, "ME-1".toList⟩, ⟨"GNBDUFunction".toList, "1".toList⟩] ∧
      authorize guardedDb [guardedRole]
        (dnPath [⟨"ManagedElement".toList, "ME-1".toList⟩,
          ⟨"GNBDUFunction".toList, "1".toList⟩]) .update = false ∧
      fullDnTarget.accessPath = .ok "/ManagedElement=ME-1/ManagedElement=ME-1/GNBDUFunction=1".toList ∧
      authorize guardedDb [guardedRole]
        "/ManagedElement=ME-1/ManagedElement=ME-1/GNBDUFunction=1".toList .update = true := by
  have object : fullDnTarget.objectRdns =
      .ok [⟨"ManagedElement".toList, "ME-1".toList⟩, ⟨"GNBDUFunction".toList, "1".toList⟩] := by
    decide
  have path : fullDnTarget.accessPath =
      .ok "/ManagedElement=ME-1/ManagedElement=ME-1/GNBDUFunction=1".toList := by
    decide
  refine ⟨?_, object, by decide, path, by decide⟩
  intro h
  have decides := h.decides guardedDb [guardedRole] .update _ _ object path
  exact absurd decides (by decide)

end Smo.RanNfOam.Msac
