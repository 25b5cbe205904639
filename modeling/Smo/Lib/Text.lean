import Mathlib.Data.List.DropRight

/-! Sequences of symbols over an arbitrary alphabet: partition at a separator,
stripping, joining and `*` patterns, with the facts that decide when two joined
texts are the same. Nothing here names a program. -/
namespace Smo.Text

variable {α : Type} [DecidableEq α]

/-- The part before the first separator and, if there is one, the part after it. -/
def partition (sep : α) : List α → List α × Option (List α)
  | [] => ([], none)
  | c :: rest =>
    if c = sep then ([], some rest)
    else
      let (before, after) := partition sep rest
      (c :: before, after)

theorem partition_of_not_mem {sep : α} {text : List α} (absent : sep ∉ text) :
    partition sep text = (text, none) := by
  induction text with
  | nil => rfl
  | cons c rest ih =>
    simp only [List.mem_cons, not_or] at absent
    rw [partition, if_neg (Ne.symm absent.1), ih absent.2]

theorem partition_append {sep : α} {before : List α} (after : List α) (absent : sep ∉ before) :
    partition sep (before ++ sep :: after) = (before, some after) := by
  induction before with
  | nil => simp [partition]
  | cons c rest ih =>
    simp only [List.mem_cons, not_or] at absent
    rw [List.cons_append, partition, if_neg (Ne.symm absent.1), ih absent.2]

theorem partition_some {sep : α} {text before after : List α}
    (h : partition sep text = (before, some after)) :
    text = before ++ sep :: after ∧ sep ∉ before := by
  induction text generalizing before with
  | nil => simp [partition] at h
  | cons c rest ih =>
    rw [partition] at h
    split at h
    next equal =>
      simp only [Prod.mk.injEq, Option.some.injEq] at h
      obtain ⟨rfl, rfl⟩ := h
      simp [equal]
    next different =>
      simp only [Prod.mk.injEq] at h
      obtain ⟨rfl, hafter⟩ := h
      obtain ⟨restEq, absent⟩ := ih (Prod.ext rfl hafter)
      exact ⟨by rw [List.cons_append, ← restEq], by simp [Ne.symm different, absent]⟩

theorem partition_none {sep : α} {text before : List α}
    (h : partition sep text = (before, none)) : sep ∉ text := by
  induction text generalizing before with
  | nil => simp
  | cons c rest ih =>
    rw [partition] at h
    split at h
    · simp at h
    next different =>
      simp only [Prod.mk.injEq] at h
      have absent := ih (Prod.ext rfl h.2)
      simp [Ne.symm different, absent]

theorem headed_injective {sep : α} {head head' body body' : List α} (absent : sep ∉ head)
    (absent' : sep ∉ head') (h : head ++ sep :: body = head' ++ sep :: body') :
    head = head' ∧ body = body' := by
  have parts := congrArg (partition sep) h
  rw [partition_append _ absent, partition_append _ absent'] at parts
  simpa using parts

/-- The text without the symbols in `drop` at either end. -/
def strip (drop : α → Bool) (text : List α) : List α :=
  List.rdropWhile drop (List.dropWhile drop text)

section Join

variable {β : Type} {sep : β} {piece piece' extra : List β} {pieces pieces' : List (List β)}

/-- `sep.join(pieces)`. -/
def join (sep : β) (pieces : List (List β)) : List β := [sep].intercalate pieces

/-- What follows the first piece in a joined text. -/
def tail (sep : β) : List (List β) → List β
  | [] => []
  | piece :: pieces => sep :: join sep (piece :: pieces)

theorem tail_of_ne_nil (more : pieces ≠ []) : tail sep pieces = sep :: join sep pieces := by
  cases pieces with
  | nil => exact absurd rfl more
  | cons next rest => rfl

theorem join_cons (sep : β) (piece : List β) (pieces : List (List β)) :
    join sep (piece :: pieces) = piece ++ tail sep pieces := by
  cases pieces with
  | nil => simp [join, tail]
  | cons next rest => simp [join, tail]

theorem join_over (first : piece' = piece ++ sep :: extra) :
    join sep (piece' :: pieces) = piece ++ sep :: join sep (extra :: pieces) := by
  rw [join_cons, join_cons, first, List.append_assoc, List.cons_append]

theorem join_eq_over_iff (first : piece' = piece ++ sep :: extra) :
    join sep (piece :: pieces) = join sep (piece' :: pieces') ↔
      pieces ≠ [] ∧ join sep pieces = join sep (extra :: pieces') := by
  rw [join_over first, join_cons, List.append_cancel_left_eq]
  cases pieces with
  | nil => simp [tail]
  | cons next rest => simp [tail]

theorem join_first_differs (h : join sep (piece :: pieces) = join sep (piece' :: pieces'))
    (differ : piece ≠ piece') :
    (∃ extra, piece' = piece ++ sep :: extra) ∨ (∃ extra, piece = piece' ++ sep :: extra) := by
  have starts (more : List β) (rest : List (List β)) (text : List β)
      (htail : tail sep rest = more ++ text) (nonempty : more ≠ []) :
      ∃ extra, more = sep :: extra := by
    cases more with
    | nil => exact absurd rfl nonempty
    | cons c extra =>
      cases rest with
      | nil => simp [tail] at htail
      | cons next rest =>
        simp only [tail, List.cons_append, List.cons.injEq] at htail
        exact ⟨extra, by rw [htail.1]⟩
  rw [join_cons, join_cons] at h
  rcases List.append_eq_append_iff.mp h with ⟨more, rfl, htail⟩ | ⟨more, rfl, htail⟩
  · obtain ⟨extra, rfl⟩ := starts more _ _ htail (by rintro rfl; simp at differ)
    exact Or.inl ⟨extra, rfl⟩
  · obtain ⟨extra, rfl⟩ := starts more _ _ htail (by rintro rfl; simp at differ)
    exact Or.inr ⟨extra, rfl⟩

theorem join_cons_inj :
    join sep (piece :: pieces) = join sep (piece :: pieces') ↔
      tail sep pieces = tail sep pieces' := by
  rw [join_cons, join_cons, List.append_cancel_left_eq]

theorem length_join_append (sep : β) (pieces pieces' : List (List β)) (some : pieces ≠ [])
    (some' : pieces' ≠ []) :
    (join sep pieces').length < (join sep (pieces ++ pieces')).length := by
  induction pieces with
  | nil => exact absurd rfl some
  | cons piece rest ih =>
    rw [List.cons_append, join_cons, tail_of_ne_nil (by simp [some']), List.length_append,
      List.length_cons]
    cases rest with
    | nil => simp only [List.nil_append]; omega
    | cons next more =>
      have longer := ih (by simp)
      omega

theorem mem_join {c : β} (mem : c ∈ join sep pieces) : c = sep ∨ ∃ piece ∈ pieces, c ∈ piece := by
  induction pieces with
  | nil => cases mem
  | cons piece rest ih =>
    rw [join_cons] at mem
    rcases List.mem_append.mp mem with here | later
    · exact .inr ⟨piece, List.mem_cons_self, here⟩
    · cases rest with
      | nil => cases later
      | cons next more =>
        rcases List.mem_cons.mp later with equal | inner
        · exact .inl equal
        · rcases ih inner with equal | ⟨other, known, within⟩
          · exact .inl equal
          · exact .inr ⟨other, List.mem_cons_of_mem _ known, within⟩

theorem map_join {γ : Type} (f : β → γ) :
    (join sep pieces).map f = join (f sep) (pieces.map (List.map f)) := by
  induction pieces with
  | nil => rfl
  | cons piece rest ih =>
    rw [List.map_cons, join_cons, join_cons, List.map_append]
    cases rest with
    | nil => rfl
    | cons next more => rw [tail, List.map_cons, ih, List.map_cons, tail]

theorem join_ends (some : pieces ≠ []) (full : ∀ piece ∈ pieces, piece ≠ [] ∧ sep ∉ piece) :
    ∃ front c, join sep pieces = front ++ [c] ∧ c ≠ sep := by
  induction pieces with
  | nil => exact absurd rfl some
  | cons piece rest ih =>
    rw [join_cons]
    cases rest with
    | nil =>
      obtain ⟨filled, absent⟩ := full piece List.mem_cons_self
      rcases List.eq_nil_or_concat piece with empty | ⟨front, c, is⟩
      · exact absurd empty filled
      · refine ⟨front, c, by rw [is, tail, List.append_nil, List.concat_eq_append], ?_⟩
        rintro rfl
        exact absent (by simp [is])
    | cons next more =>
      obtain ⟨front, c, is, other⟩ := ih (by simp) fun piece known =>
        full piece (List.mem_cons_of_mem _ known)
      exact ⟨piece ++ sep :: front, c, by rw [tail, is]; simp, other⟩

theorem strip_sublist (drop : β → Bool) (text : List β) : (strip drop text).Sublist text :=
  (List.rdropWhile_prefix drop _).sublist.trans (List.dropWhile_sublist drop)

theorem join_sublist (parts : List.Forall₂ List.Sublist pieces pieces') :
    (join sep pieces).Sublist (join sep pieces') := by
  induction parts with
  | nil => exact List.Sublist.refl _
  | cons first rest ih =>
    rw [join_cons, join_cons]
    refine first.append ?_
    cases rest with
    | nil => exact List.Sublist.refl _
    | cons => exact ih.cons_cons sep

theorem join_take_sublist (sep : β) (pieces : List (List β)) (n : Nat) :
    (join sep (pieces.take n)).Sublist (join sep pieces) := by
  induction pieces generalizing n with
  | nil => simp
  | cons piece rest ih =>
    cases n with
    | zero => exact List.nil_sublist _
    | succ n =>
      rw [List.take_succ_cons, join_cons, join_cons]
      refine List.Sublist.append (List.Sublist.refl _) ?_
      cases later : rest.take n with
      | nil => exact List.nil_sublist _
      | cons next more =>
        cases rest with
        | nil => simp at later
        | cons =>
          have inner := ih n
          rw [later] at inner
          exact inner.cons_cons sep

end Join

section Glob

/-- A pattern of symbols in which `wild` stands for any run of symbols in `any`. -/
def runMatch (any : α → Bool) (follow : List α → Bool) : List α → Bool
  | [] => follow []
  | c :: rest => follow (c :: rest) || (any c && runMatch any follow rest)

def globMatch (wild : α) (any : α → Bool) : List α → List α → Bool
  | [], text => text.isEmpty
  | w :: pattern, text =>
    if w = wild then runMatch any (globMatch wild any pattern) text
    else match text with
      | [] => false
      | c :: rest => c == w && globMatch wild any pattern rest

end Glob

end Smo.Text
