import Mathlib.Algebra.GroupWithZero.Nat
import Smo.Lib.Percent
import Smo.Shared.Str

/-! What the services read of a URL: the ASGI server decodes the path once, Starlette takes a
`{full_path:path}` parameter and the query parameters from it, and `httpx` sends the path of a URL
text with its dot segments resolved. -/
namespace Smo.Url

open Percent (unquote)

inductive Method
  | get
  | post
  | put
  | patch
  | delete
  deriving DecidableEq, Repr

/-- The parameter of a route `<before>{full_path:path}`: it holds no line break, and a last one
stands behind it. -/
def fullPath (before path : Str) : Option Str :=
  if before.isPrefixOf path then
    match Text.partition '\n' (path.drop before.length) with
    | (line, none) => some line
    | (line, some []) => some line
    | (_, some _) => none
  else none

/-- The path of a URL text: what stands before the first `?` or `#`. -/
def cut (url : Str) : Str := url.takeWhile fun c => c != '?' && c != '#'

def isDots (part : Str) : Bool := part == ['.'] || part == ['.', '.']

def resolvePart (output : List Str) (part : Str) : List Str :=
  if part = ['.'] then output
  else if part = ['.', '.'] then
    if output = [] ∨ output = [[]] then output else output.dropLast
  else output ++ [part]

/-- `normalize_path`. -/
def resolve (path : Str) : Str :=
  let parts := Str.split '/' path
  if parts.any isDots then Str.join '/' (parts.foldl resolvePart []) else path

def target (url : Str) : Str :=
  match resolve (cut url) with
  | [] => ['/']
  | path => path

def routed (path : Str) : Str :=
  match Str.rstrip '/' path with
  | [] => ['/']
  | path => path

/-- `parse_qsl` with blank values kept, of one piece of the query. -/
def queryParam (piece : Str) : Option (Str × Str) :=
  if piece = [] then none
  else
    let read (text : Str) : Str := unquote (text.map fun c => if c = '+' then ' ' else c)
    let (name, value) := Text.partition '=' piece
    some (read name, read (value.getD []))

def queryParams (query : Str) : List (Str × Str) := (Str.split '&' query).filterMap queryParam

def valuesOf (params : List (Str × Str)) (name : Str) : List Str :=
  (params.filter (·.1 == name)).map Prod.snd

def lastOnes : List (Str × Str) → List (Str × Str)
  | [] => []
  | (name, value) :: rest =>
    (name, (valuesOf rest name).getLast?.getD value) :: (lastOnes rest).filter (·.1 != name)

/-- The HTTP client: the path that it puts on the wire for a URL text (none when it refuses the
text), and the query for parameters. -/
structure HttpClient where
  path : Str → Option Str
  query : List (Str × Str) → Str

/-- The client leaves valid percent-escapes as they are and escapes what may not stand in a URL, so
what it sends is read as the path it was given; parameters are read back with all their values. -/
structure HttpClient.Keeps (client : HttpClient) : Prop where
  path : ∀ {url wire : Str}, client.path url = some wire → unquote wire = unquote (target url)
  query : ∀ (params : List (Str × Str)) (name : Str),
    valuesOf (queryParams (client.query params)) name = valuesOf params name

section Parameter

variable {before path line : Str}

theorem fullPath_some (taken : fullPath before path = some line) :
    '\n' ∉ line ∧ (path = before ++ line ∨ path = before ++ line ++ ['\n']) := by
  unfold fullPath at taken
  split at taken
  · next starts =>
    obtain ⟨rest, rfl⟩ := List.isPrefixOf_iff_prefix.mp starts
    rw [List.drop_left] at taken
    split at taken
    · next found is =>
      cases taken
      have absent := Text.partition_none is
      rw [Text.partition_of_not_mem absent] at is
      cases is
      exact ⟨absent, .inl rfl⟩
    · next found is =>
      cases taken
      obtain ⟨whole, absent⟩ := Text.partition_some is
      exact ⟨absent, .inr (by rw [whole, List.append_assoc])⟩
    · cases taken
  · cases taken

theorem fullPath_append (absent : '\n' ∉ line) : fullPath before (before ++ line) = some line := by
  rw [fullPath, if_pos (List.isPrefixOf_iff_prefix.mpr (List.prefix_append _ _)), List.drop_left,
    Text.partition_of_not_mem absent]

end Parameter

section Length

variable {path url : Str}

def weight (parts : List Str) : Nat := (parts.map fun part => part.length + 1).sum

theorem weight_join {parts : List Str} (some : parts ≠ []) :
    (Str.join '/' parts).length + 1 = weight parts := by
  induction parts with
  | nil => exact absurd rfl some
  | cons part rest ih =>
    rw [Str.join, Text.join_cons]
    cases rest with
    | nil => simp [weight, Text.tail]
    | cons next rest =>
      have later := ih (List.cons_ne_nil _ _)
      rw [Str.join] at later
      rw [Text.tail_of_ne_nil (List.cons_ne_nil _ _)]
      simp only [weight, List.map_cons, List.sum_cons, List.length_append, List.length_cons] at later ⊢
      omega

theorem join_split (path : Str) : Str.join '/' (Str.split '/' path) = path :=
  List.intercalate_splitOn '/'

theorem weight_split (path : Str) : weight (Str.split '/' path) = path.length + 1 := by
  have joined := @weight_join (Str.split '/' path) (List.splitOn_ne_nil '/' path)
  rw [join_split] at joined
  exact joined.symm

theorem weight_resolvePart (output : List Str) (part : Str) :
    weight (resolvePart output part) + 2 * (isDots part).toNat ≤ weight output + (part.length + 1) := by
  unfold resolvePart
  split
  · next is =>
    subst is
    simp [isDots]
  · split
    · next is =>
      subst is
      have shorter : weight output.dropLast ≤ weight output := by
        rcases List.eq_nil_or_concat output with rfl | ⟨front, last, rfl⟩
        · exact le_refl _
        · simp [weight]
      split
      · simp [isDots]
      · simp only [isDots, beq_self_eq_true, Bool.or_true, Bool.toNat_true, List.length_cons]
        omega
    · next one two =>
      have other : isDots part = false := by simp [isDots, one, two]
      simp [weight, other]

theorem weight_foldl (output parts : List Str) :
    weight (parts.foldl resolvePart output) + 2 * parts.countP isDots ≤ weight output + weight parts := by
  induction parts generalizing output with
  | nil => simp [weight]
  | cons part rest ih =>
    have first := weight_resolvePart output part
    have later := ih (resolvePart output part)
    have whole : weight (part :: rest) = part.length + 1 + weight rest := by
      simp only [weight, List.map_cons, List.sum_cons]
    rw [List.foldl_cons, List.countP_cons, whole]
    cases h : isDots part with
    | false =>
      rw [h, Bool.toNat_false] at first
      rw [if_neg Bool.false_ne_true]
      omega
    | true =>
      rw [h, Bool.toNat_true] at first
      rw [if_pos rfl]
      omega

theorem cut_length_le : (cut url).length ≤ url.length := (List.takeWhile_sublist _).length_le

theorem cut_of_plain (question : '?' ∉ url) (number : '#' ∉ url) : cut url = url := by
  refine List.takeWhile_eq_self_iff.mpr fun c mem => ?_
  have notQuestion : c ≠ '?' := ne_of_mem_of_not_mem mem question
  have notNumber : c ≠ '#' := ne_of_mem_of_not_mem mem number
  simp [notQuestion, notNumber]

theorem cut_eq_self_iff : cut url = url ↔ '?' ∉ url ∧ '#' ∉ url := by
  refine ⟨fun same => ?_, fun plain => cut_of_plain plain.1 plain.2⟩
  have all := List.takeWhile_eq_self_iff.mp same
  exact ⟨fun mem => absurd (all _ mem) (by decide), fun mem => absurd (all _ mem) (by decide)⟩

theorem resolve_of_plain (plain : (Str.split '/' path).any isDots = false) : resolve path = path := by
  simp [resolve, plain]

theorem target_length (rooted : path.head? = some '/') (whole : cut url = path) :
    (target url).length ≤ path.length ∧
      ((target url).length = path.length → (Str.split '/' path).any isDots = false) := by
  obtain ⟨rest, rfl⟩ : ∃ rest, path = '/' :: rest := by
    cases path with
    | nil => cases rooted
    | cons c rest => exact ⟨rest, by rw [Option.some.inj rooted]⟩
  have asked : target url = match resolve ('/' :: rest) with
      | [] => ['/']
      | path => path := by rw [target, whole]
  cases dots : (Str.split '/' ('/' :: rest)).any isDots with
  | false =>
    rw [resolve_of_plain dots] at asked
    rw [asked]
    exact ⟨le_refl _, fun _ => rfl⟩
  | true =>
    have sum := weight_foldl [] (Str.split '/' ('/' :: rest))
    have some := List.countP_pos_iff.mpr (List.any_eq_true.mp dots)
    rw [weight_split] at sum
    have resolved : resolve ('/' :: rest) =
        Str.join '/' ((Str.split '/' ('/' :: rest)).foldl resolvePart []) := by
      simp [resolve, dots]
    rw [resolved] at asked
    have shorter : (target url).length < ('/' :: rest).length := by
      cases parts : (Str.split '/' ('/' :: rest)).foldl resolvePart [] with
      | nil =>
        have long : 0 < rest.length := by
          refine List.length_pos_of_ne_nil ?_
          rintro rfl
          exact absurd dots (by decide)
        rw [asked, parts]
        exact Nat.succ_lt_succ long
      | cons part others =>
        have joined := weight_join (List.cons_ne_nil part others)
        rw [parts] at sum asked
        simp only [weight, List.map_nil, List.sum_nil, List.length_cons] at sum joined ⊢
        rw [asked]
        split
        · simp only [List.length_singleton]
          omega
        · simp only [List.map_cons, List.sum_cons] at sum joined
          omega
    exact ⟨le_of_lt shorter, fun same => absurd same (Nat.ne_of_lt shorter)⟩

end Length

section Hop

variable {client : HttpClient} {url wire : Str}

/-- A path that reads the same at every hop: no `?`, no `#` and no escape. -/
structure Plain (path : Str) : Prop where
  question : '?' ∉ path
  number : '#' ∉ path
  escape : Percent.hasEscape path = false

theorem Plain.tail {c : Char} {path : Str} (plain : Plain (c :: path)) : Plain path :=
  ⟨fun mem => plain.question (List.mem_cons_of_mem _ mem),
    fun mem => plain.number (List.mem_cons_of_mem _ mem), Percent.hasEscape_tail plain.escape⟩

theorem Plain.suffix {before path : Str} (plain : Plain (before ++ path)) : Plain path := by
  induction before with
  | nil => exact plain
  | cons c before ih => exact ih plain.tail

instance (path : Str) : Decidable (Plain path) :=
  decidable_of_iff ('?' ∉ path ∧ '#' ∉ path ∧ Percent.hasEscape path = false)
    ⟨fun ⟨question, number, escape⟩ => ⟨question, number, escape⟩,
      fun ⟨question, number, escape⟩ => ⟨question, number, escape⟩⟩

theorem cut_rooted (starts : url.head? = some '/') : (cut url).head? = some '/' := by
  cases url with
  | nil => cases starts
  | cons c rest =>
    rw [Option.some.inj starts]
    rfl

theorem read_length_le (keeps : client.Keeps) (sent : client.path url = some wire)
    (starts : url.head? = some '/') : (unquote wire).length ≤ url.length := by
  rw [keeps.path sent]
  have resolved := (@target_length (cut url) url (cut_rooted starts) rfl).1
  have cut := @cut_length_le url
  have read := @Percent.unquote_length_le (target url)
  omega

theorem target_of_plain (starts : url.head? = some '/') (plain : Plain url)
    (segments : (Str.split '/' url).any isDots = false) : target url = url := by
  rw [target, cut_of_plain plain.question plain.number, resolve_of_plain segments]
  cases url with
  | nil => cases starts
  | cons c rest => rfl

theorem read_eq_iff (keeps : client.Keeps) (sent : client.path url = some wire)
    (starts : url.head? = some '/') :
    unquote wire = url ↔ Plain url ∧ (Str.split '/' url).any isDots = false := by
  rw [keeps.path sent]
  constructor
  · intro same
    have resolved := @target_length (cut url) url (cut_rooted starts) rfl
    have shorter := @cut_length_le url
    have read := @Percent.unquote_length_le (target url)
    rw [same] at read
    have whole : cut url = url := (List.takeWhile_prefix _).eq_of_length (by
      rw [← cut]
      omega)
    rw [whole] at resolved
    have segments := resolved.2 (by omega)
    obtain ⟨question, number⟩ := cut_eq_self_iff.mp whole
    have asked : target url = url := by
      rw [target, whole, resolve_of_plain segments]
      cases url with
      | nil => cases starts
      | cons c rest => rfl
    rw [asked] at same
    exact ⟨⟨question, number, Percent.unquote_eq_self_iff.mp same⟩, segments⟩
  · rintro ⟨plain, segments⟩
    rw [target_of_plain starts plain segments, Percent.unquote_of_plain plain.escape]

theorem routed_length (path : Str) : (routed path).length ≤ max 1 path.length := by
  have shorter := (List.rdropWhile_prefix (· == '/') path).length_le
  rw [← Str.rstrip] at shorter
  unfold routed
  split
  · exact le_max_left _ _
  · exact le_trans shorter (le_max_right _ _)

end Hop

section Example

def special (c : Char) : Bool := ['%', '&', '=', '+'].contains c

def queryPiece (param : Str × Str) : Str :=
  Percent.quote special param.1 ++ '=' :: Percent.quote special param.2

def plainClient : HttpClient where
  path url := some (target url)
  query params := Str.join '&' (params.map queryPiece)

theorem special_ascii (c : Char) (is : special c = true) : c.toNat < 128 := by
  simp only [special, List.contains_iff_mem, List.mem_cons, List.not_mem_nil, or_false] at is
  rcases is with rfl | rfl | rfl | rfl <;> decide

theorem unquote_special (text : Str) : unquote (Percent.quote special text) = text :=
  Percent.unquote_quote rfl special_ascii

theorem ampersand_not_mem (text : Str) : '&' ∉ Percent.quote special text :=
  Percent.not_mem_quote special_ascii rfl (by decide) (by decide)

theorem equals_not_mem (text : Str) : '=' ∉ Percent.quote special text :=
  Percent.not_mem_quote special_ascii rfl (by decide) (by decide)

theorem plus_not_mem (text : Str) : '+' ∉ Percent.quote special text :=
  Percent.not_mem_quote special_ascii rfl (by decide) (by decide)

theorem spaces_of_not_mem {text : Str} (absent : '+' ∉ text) :
    (text.map fun c => if c = '+' then ' ' else c) = text := by
  refine (List.map_congr_left fun c mem => ?_).trans (List.map_id text)
  rw [if_neg (ne_of_mem_of_not_mem mem absent)]
  rfl

theorem queryParam_piece (param : Str × Str) : queryParam (queryPiece param) = some param := by
  obtain ⟨name, value⟩ := param
  have nonempty : queryPiece (name, value) ≠ [] := by simp [queryPiece]
  rw [queryParam, if_neg nonempty, queryPiece, Text.partition_append _ (equals_not_mem name)]
  simp only [Option.getD_some, spaces_of_not_mem (plus_not_mem _), unquote_special]

theorem queryParams_query (params : List (Str × Str)) :
    queryParams (plainClient.query params) = params := by
  rw [queryParams]
  cases params with
  | nil => rfl
  | cons param rest =>
    have pieces : Str.split '&' (plainClient.query (param :: rest)) =
        (param :: rest).map queryPiece := by
      refine List.splitOn_intercalate '&' (fun piece mem => ?_) (by simp)
      obtain ⟨of, -, rfl⟩ := List.mem_map.mp mem
      simp [queryPiece, ampersand_not_mem]
    rw [pieces, List.filterMap_map, show queryParam ∘ queryPiece = some from funext queryParam_piece,
      List.filterMap_some]

theorem plainClient_keeps : plainClient.Keeps where
  path := by
    rintro url _ ⟨⟩
    rfl
  query params name := by rw [queryParams_query]

end Example

end Smo.Url
