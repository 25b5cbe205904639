import Smo.R1Termination.Proxy

/-! The route that the gateway decides about and the route that the backend takes: they are the same
exactly for a path without `?`, `#` and escapes. -/
namespace Smo.R1Termination

open RolePolicy (ListsChange ListsInternal changes rooted)
open Percent (unquote)
open Url (HttpClient Method Plain routed)

section Resolved

variable {rest : Str}

theorem split_slash (first second : Str) :
    Str.split '/' (first ++ '/' :: second) = Str.split '/' first ++ Str.split '/' second :=
  List.splitOn_append_cons_self first second

theorem ends_of_split (ends : (Str.split '/' rest).getLast? = some []) :
    rest = [] ∨ rest.getLast? = some '/' := by
  induction rest with
  | nil => exact .inl rfl
  | cons c rest ih =>
    right
    rw [Str.split, List.splitOn_cons_eq_if_modifyHead] at ends
    have whole : (rest.splitOn '/') ≠ [] := List.splitOn_ne_nil '/' rest
    split at ends
    · next slash =>
      rw [List.getLast?_cons_of_ne_nil whole] at ends
      rcases ih ends with rfl | last
      · rw [beq_iff_eq.mp slash]
        rfl
      · rw [List.getLast?_cons_of_ne_nil (List.ne_nil_of_mem (List.mem_of_getLast? last)), last]
    · rcases parts : rest.splitOn '/' with _ | ⟨part, _ | ⟨next, more⟩⟩
      · exact absurd parts whole
      · rw [parts] at ends
        simp at ends
      · have later : (Str.split '/' rest).getLast? = some [] := by
          rw [parts, List.modifyHead_cons, List.getLast?_cons_cons] at ends
          rw [Str.split, parts, List.getLast?_cons_cons, ends]
        rcases ih later with rfl | last
        · cases parts
        · rw [List.getLast?_cons_of_ne_nil (List.ne_nil_of_mem (List.mem_of_getLast? last)), last]

theorem parts_of_resolved (resolved : pathProblem rest = false) :
    removeSlash rest = [] ∨
      ∀ part ∈ Str.split '/' (removeSlash rest), part ≠ [] ∧ Url.isDots part = false := by
  have checked : ∀ part ∈ (if (Str.split '/' rest).getLast? = some [] then
      (Str.split '/' rest).dropLast else Str.split '/' rest), part ≠ [] ∧ Url.isDots part = false := by
    intro part mem
    have fine := List.any_eq_false.mp (Bool.or_eq_false_iff.mp resolved).2 part mem
    simpa [Url.isDots, and_assoc] using fine
  unfold removeSlash
  split
  · next last =>
    obtain ⟨front, rfl⟩ : ∃ front, rest = front ++ ['/'] := by
      obtain ⟨front, is⟩ := List.getLast?_eq_some_iff.mp last
      exact ⟨front, is⟩
    rw [split_slash, show Str.split '/' [] = [[]] from rfl] at checked
    rw [List.dropLast_concat]
    right
    simpa using checked
  · next last =>
    split at checked
    · next ends =>
      rcases ends_of_split ends with rfl | slash
      · exact .inl rfl
      · exact absurd slash last
    · exact .inr checked

theorem rooted_of_resolved (resolved : pathProblem rest = false) :
    rooted (removeSlash rest) = '/' :: removeSlash rest := by
  rw [rooted]
  rcases parts_of_resolved resolved with none | parts
  · rw [none]
    rfl
  · cases is : removeSlash rest with
    | nil => rfl
    | cons c more =>
      have other : c ≠ '/' := by
        rintro rfl
        rw [is] at parts
        have first := split_slash [] more
        rw [List.nil_append] at first
        rw [first] at parts
        exact (parts [] (List.mem_append_left _ (by decide))).1 rfl
      rw [List.dropWhile_cons_of_neg (by simpa using other)]

theorem segments_of_resolved (resolved : pathProblem rest = false) :
    (Str.split '/' ('/' :: removeSlash rest)).any Url.isDots = false := by
  have first := split_slash [] (removeSlash rest)
  rw [List.nil_append] at first
  rw [first, List.any_append]
  rcases parts_of_resolved resolved with none | parts
  · rw [none]
    rfl
  · have others : (Str.split '/' (removeSlash rest)).any Url.isDots = false :=
      List.any_eq_false.mpr fun part mem => by simp [(parts part mem).2]
    rw [others]
    rfl

end Resolved

section Route

variable {client : HttpClient} {finding : Finding} {method : Method} {fullPath module rest wire : Str}

theorem plain_cons : Plain ('/' :: rest) ↔ Plain rest := by
  refine ⟨Plain.tail, fun plain => ⟨?_, ?_, ?_⟩⟩
  · simpa using plain.question
  · simpa using plain.number
  · have escape := plain.escape
    simp only [Percent.hasEscape] at escape ⊢
    rw [Percent.tokens_cons (by decide), List.any_cons, escape]
    rfl

theorem plain_nil : Plain [] := ⟨List.not_mem_nil, List.not_mem_nil, rfl⟩

theorem rstrip_of_last (last : rest.getLast? ≠ some '/') : Str.rstrip '/' rest = rest := by
  rcases List.eq_nil_or_concat rest with rfl | ⟨front, c, rfl⟩
  · rfl
  · rw [List.concat_eq_append, List.getLast?_concat] at last
    rw [List.concat_eq_append, Str.rstrip]
    exact List.rdropWhile_concat_neg _ _ _ (by simpa using last)

theorem routed_of_resolved (resolved : pathProblem rest = false) :
    routed ('/' :: removeSlash rest) = '/' :: removeSlash rest := by
  rcases parts_of_resolved resolved with none | parts
  · rw [none]
    rfl
  · rcases List.eq_nil_or_concat (removeSlash rest) with none | ⟨front, last, is⟩
    · rw [none]
      rfl
    · have other : last ≠ '/' := by
        rintro rfl
        rw [is, List.concat_eq_append, split_slash] at parts
        exact (parts [] (List.mem_append_right _ (by decide))).1 rfl
      rw [is, List.concat_eq_append, ← List.cons_append, routed, Str.rstrip,
        List.rdropWhile_concat_neg _ _ _ (by simpa using other)]
      rfl

theorem routed_eq_iff (keeps : client.Keeps) (resolved : pathProblem rest = false)
    (sent : client.path ('/' :: removeSlash rest) = some wire) :
    routed (unquote wire) = '/' :: removeSlash rest ↔ Plain (removeSlash rest) := by
  have segments := segments_of_resolved resolved
  have same := Url.read_eq_iff keeps sent rfl
  constructor
  · intro routes
    cases is : removeSlash rest with
    | nil => exact plain_nil
    | cons c more =>
      have shorter := Url.read_length_le keeps sent rfl
      have kept := Url.routed_length (unquote wire)
      rw [routes, is] at kept
      rw [is] at shorter
      simp only [List.length_cons] at kept shorter
      have begins : Str.rstrip '/' (unquote wire) <+: unquote wire := List.rdropWhile_prefix _ _
      have stripped : Str.rstrip '/' (unquote wire) = '/' :: removeSlash rest := by
        rw [routed] at routes
        split at routes
        · rw [is] at routes
          cases routes
        · exact routes
      have whole : Str.rstrip '/' (unquote wire) = unquote wire := begins.eq_of_length (by
        rw [stripped, is]
        simp only [List.length_cons]
        omega)
      rw [← is]
      exact plain_cons.mp (same.mp (whole.symm.trans stripped)).1
  · intro plain
    rw [same.mpr ⟨plain_cons.mpr plain, segments⟩, routed_of_resolved resolved]

/-- A forwarded request takes the route that was decided about exactly when its path is plain, and
then no rApp reaches, in enforce mode, a route that the deny-list lists or a change that the
allow-list does not. -/
theorem decides_about_the_route (keeps : client.Keeps)
    (forwarded : proxy finding method fullPath = .forwarded module rest)
    (sent : client.path ('/' :: rest) = some wire) :
    (routed (unquote wire) = '/' :: rest ↔ Plain rest) ∧
      (Plain rest → finding.mode = .enforce →
        ∀ caller, finding.introspection = some (some caller) → caller.role = .rapp →
          ¬ ListsInternal module method (routed (unquote wire)) ∧
            (changes method = true → ListsChange module method (routed (unquote wire)))) := by
  obtain ⟨-, -, path, resolved, found, asked, permitted⟩ := forwards_of_proxy forwarded
  subst path
  have same := routed_eq_iff keeps resolved sent
  refine ⟨same, fun plain enforce caller is rapp => ?_⟩
  rw [same.mpr plain, ← rooted_of_resolved resolved]
  obtain rfl : found = caller := by
    rw [asked] at is
    exact Option.some.inj (Option.some.inj is)
  simp only [notPermitted, rapp, enforce, decide_true, Bool.true_and, Bool.and_true,
    Bool.or_eq_false_iff, Bool.not_eq_false'] at permitted
  refine ⟨fun lists => ?_, RolePolicy.rappMayChange_iff.mp permitted.2⟩
  rw [RolePolicy.internalOnly_of_lists lists] at permitted
  cases permitted.1

end Route

section Example

def rappFinding : Finding where
  introspection := some (some ⟨"rapp-1".toList, .rapp, none⟩)
  wait := none
  mode := .enforce
  enforced := true
  isKilled _ := some false
  onBehalfOf := none

/-- A plain path is decided about as it is routed. -/
theorem plain_read_decided :
    (routed (unquote "/alarms".toList) = "/alarms".toList ↔ Plain "alarms".toList) ∧
      (Plain "alarms".toList → rappFinding.mode = .enforce →
        ∀ caller, rappFinding.introspection = some (some caller) → caller.role = .rapp →
          ¬ ListsInternal "/ran-nf-oam".toList .get (routed (unquote "/alarms".toList)) ∧
            (changes .get = true →
              ListsChange "/ran-nf-oam".toList .get (routed (unquote "/alarms".toList)))) :=
  @decides_about_the_route Url.plainClient rappFinding .get "ran-nf-oam/alarms".toList
    "/ran-nf-oam".toList "alarms".toList "/alarms".toList Url.plainClient_keeps (by decide +kernel)
    (by decide +kernel)

/-- An rApp asks for `/ran-nf-oam/rapp-kill%3Fx` and is told who is stopped. -/
theorem reaches_internal_only :
    Url.fullPath ['/'] (unquote "/ran-nf-oam/rapp-kill%3Fx".toList) =
        some "ran-nf-oam/rapp-kill?x".toList ∧
      proxy rappFinding .get "ran-nf-oam/rapp-kill?x".toList =
        .forwarded "/ran-nf-oam".toList "rapp-kill?x".toList ∧
      Url.plainClient.path "/rapp-kill?x".toList = some "/rapp-kill".toList ∧
      routed (unquote "/rapp-kill".toList) ≠ "/rapp-kill?x".toList ∧
      ListsInternal "/ran-nf-oam".toList .get (routed (unquote "/rapp-kill".toList)) := by
  refine ⟨by decide +kernel, by decide +kernel, by decide +kernel, by decide +kernel, ?_⟩
  exact ⟨⟨"/ran-nf-oam", [.get], ["/rapp-kill"]⟩, by simp [RolePolicy.internalOnlyTable], rfl,
    by decide, Pattern.fullmatch_iff.mp (by decide +kernel)⟩

end Example

end Smo.R1Termination
