import Mathlib.Data.List.Nodup

/-! Tables of rows with a key: what a row reads as after rows are changed, added or removed. -/
namespace Smo.Table

variable {α κ : Type} [DecidableEq κ] {key : α → κ}

/-- The first row with a key. -/
def get (key : α → κ) (rows : List α) (k : κ) : Option α := rows.find? (key · = k)

/-- The rows with a change made to those with a key. -/
def modify (key : α → κ) (rows : List α) (k : κ) (change : α → α) : List α :=
  rows.map fun row => if key row = k then change row else row

section Rows

variable {rows : List α} {j k : κ} {row : α}

theorem key_of_get (found : get key rows k = some row) : key row = k := by
  simpa using List.find?_some found

theorem mem_of_get (found : get key rows k = some row) : row ∈ rows := List.mem_of_find?_eq_some found

theorem get_of_mem (distinct : (rows.map key).Nodup) (mem : row ∈ rows) :
    get key rows (key row) = some row := by
  cases found : get key rows (key row) with
  | none => simpa using List.find?_eq_none.mp found row mem
  | some other =>
    rw [List.inj_on_of_nodup_map distinct (mem_of_get found) mem (key_of_get found)]

theorem get_eq_none (absent : ∀ row ∈ rows, key row ≠ k) : get key rows k = none :=
  List.find?_eq_none.mpr fun row mem => by simpa using absent row mem

theorem get_modify (change : α → α) (keeps : ∀ row, key (change row) = key row) :
    get key (modify key rows k change) j =
      if k = j then (get key rows j).map change else get key rows j := by
  have same : ((fun row => decide (key row = j)) ∘ fun row => if key row = k then change row else row) =
      fun row => decide (key row = j) := by
    funext row
    simp only [Function.comp]
    split <;> simp [keeps]
  simp only [get, modify, List.find?_map, same]
  cases found : rows.find? (key · = j) with
  | none => simp
  | some row =>
    have is : key row = j := by simpa using List.find?_some found
    by_cases mine : k = j
    · simp [is, mine]
    · simp [is, mine, Ne.symm mine]

theorem get_put (row : α) : get key (modify key rows (key row) fun _ => row) j =
    if key row = j then (get key rows j).map fun _ => row else get key rows j := by
  induction rows with
  | nil => simp [get, modify]
  | cons first rest ih =>
    simp only [get, modify, List.map_cons, List.find?_cons] at ih ⊢
    by_cases mine : key first = key row
    · by_cases same : key row = j
      · simp [mine, same]
      · simp only [mine, same, if_true, if_false, decide_false] at ih ⊢
        exact ih
    · by_cases found : key first = j
      · have apart : key row ≠ j := fun same => mine (found.trans same.symm)
        simp [apart.symm, apart, found]
      · simp only [mine, found, if_false, decide_false] at ih ⊢
        exact ih

theorem keys_put (row : α) : (modify key rows (key row) fun _ => row).map key = rows.map key := by
  rw [modify, List.map_map]
  refine List.map_congr_left fun first _ => ?_
  simp only [Function.comp]
  split
  · next mine => exact mine.symm
  · rfl

theorem get_append (rows more : List α) : get key (rows ++ more) k = (get key rows k).or (get key more k) :=
  List.find?_append

theorem get_filter (distinct : (rows.map key).Nodup) (p : α → Bool) :
    get key (rows.filter p) k = (get key rows k).filter p := by
  induction rows with
  | nil => rfl
  | cons row rows ih =>
    obtain ⟨fresh, distinct⟩ := List.nodup_cons.mp distinct
    have later : key row = k → get key rows k = none := by
      rintro rfl
      exact get_eq_none fun other mem same => fresh (List.mem_map.mpr ⟨other, mem, same⟩)
    have ih := ih distinct
    simp only [get, List.filter_cons, List.find?_cons] at ih later ⊢
    by_cases mine : key row = k
    · cases keeps : p row
      · simp [mine, ih, later mine, keeps, Option.filter]
      · simp [mine, keeps, Option.filter]
    · cases keeps : p row <;> simp [mine, ih]

theorem get_filter_key (p : κ → Bool) :
    get key (rows.filter fun row => p (key row)) j = if p j then get key rows j else none := by
  rw [get, List.find?_filter]
  split_ifs with keeps
  · refine congrArg (List.find? · rows) (funext fun row => ?_)
    by_cases mine : key row = j <;> simp [mine, keeps]
  · rw [List.find?_eq_none]
    rintro row - found
    simp only [decide_eq_true_eq] at found
    exact keeps (found.2 ▸ found.1)

theorem filter_key (distinct : (rows.map key).Nodup) :
    rows.filter (key · = k) = (get key rows k).toList := by
  induction rows with
  | nil => rfl
  | cons row rows ih =>
    obtain ⟨fresh, distinct⟩ := List.nodup_cons.mp distinct
    rw [List.filter_cons, get, List.find?_cons]
    by_cases mine : key row = k
    · have others : get key rows k = none := by
        refine get_eq_none fun other mem same => fresh ?_
        exact List.mem_map.mpr ⟨other, mem, same.trans mine.symm⟩
      simp [mine, ih distinct, others]
    · simpa [mine, get] using ih distinct

theorem keys_modify (change : α → α) (keeps : ∀ row, key (change row) = key row) :
    (modify key rows k change).map key = rows.map key := by
  rw [modify, List.map_map]
  refine List.map_congr_left fun row _ => ?_
  simp only [Function.comp]
  split <;> simp [keeps]

theorem mem_rewrite {next : α} (mem : row ∈ modify key rows k fun _ => next) :
    row = next ∨ row ∈ rows ∧ key row ≠ k := by
  obtain ⟨old, inRows, rfl⟩ := List.mem_map.mp mem
  by_cases mine : key old = k
  · exact .inl (if_pos mine)
  · rw [if_neg mine]
    exact .inr ⟨inRows, mine⟩

theorem mem_rewrite_of_ne {next : α} (mem : row ∈ rows) (other : key row ≠ k) :
    row ∈ modify key rows k fun _ => next :=
  List.mem_map.mpr ⟨row, mem, if_neg other⟩

theorem mem_rewrite_self {next : α} (mem : row ∈ rows) :
    next ∈ modify key rows (key row) fun _ => next :=
  List.mem_map.mpr ⟨row, mem, if_pos rfl⟩

theorem nodup_rewrite {next : α} (distinct : (rows.map key).Nodup)
    (free : ∀ row ∈ rows, key row ≠ k → key row ≠ key next) :
    ((modify key rows k fun _ => next).map key).Nodup := by
  rw [modify, List.map_map, List.Nodup, List.pairwise_map]
  refine (List.pairwise_map.mp distinct).imp_of_mem fun {first second} mem mem' differ => ?_
  simp only [Function.comp]
  split_ifs with isFirst isSecond isSecond
  · exact absurd (isFirst.trans isSecond.symm) differ
  · exact (free second mem' isSecond).symm
  · exact free first mem isFirst
  · exact differ

theorem get_snoc (absent : get key rows (key row) = none) :
    get key (rows ++ [row]) j = if key row = j then some row else get key rows j := by
  rw [get_append]
  by_cases mine : key row = j
  · rw [← mine, absent, if_pos rfl]
    simp [get]
  · simp [mine, get]

theorem nodup_snoc (distinct : (rows.map key).Nodup) (absent : get key rows (key row) = none) :
    ((rows ++ [row]).map key).Nodup := by
  rw [List.map_append, List.nodup_append]
  refine ⟨distinct, List.nodup_singleton _, fun name mem name' mem' same => ?_⟩
  obtain ⟨other, here, rfl⟩ := List.mem_map.mp mem
  obtain rfl := List.mem_singleton.mp mem'
  simpa [same] using List.find?_eq_none.mp absent other here

end Rows

theorem lookup_of_mem {β : Type} {entries : List (κ × β)} {k : κ} {value : β}
    (distinct : (entries.map (·.1)).Nodup) (mem : (k, value) ∈ entries) :
    entries.lookup k = some value := by
  obtain ⟨front, back, rfl⟩ := List.append_of_mem mem
  refine List.lookup_eq_some_iff.mpr ⟨front, back, rfl, fun entry there => ?_⟩
  rw [List.map_append, List.map_cons] at distinct
  have apart := (List.nodup_append.mp distinct).2.2 entry.1 (List.mem_map_of_mem there) k
    List.mem_cons_self
  simpa using Ne.symm apart

/-! Rows that are known by their place. -/
section Places

variable {rows : List α} {row next : α} {i j : Nat}

theorem set_cases (found : (rows.set i next)[j]? = some row) :
    (j = i ∧ row = next) ∨ (j ≠ i ∧ rows[j]? = some row) := by
  rw [List.getElem?_set] at found
  split at found
  · next same =>
    split at found <;> cases found
    exact .inl ⟨same.symm, rfl⟩
  · next differs => exact .inr ⟨fun same => differs same.symm, found⟩

theorem set_holds {P : Nat → α → Prop} (new : P i next)
    (found : (rows.set i next)[j]? = some row) : rows[j]? = some row ∨ P j row := by
  rcases set_cases found with ⟨rfl, rfl⟩ | ⟨-, was⟩
  · exact .inr new
  · exact .inl was

theorem set_join_cases {places : List (Option α)} {entry : Option α}
    (found : (places.set i entry)[j]?.join = some row) :
    entry = some row ∨ places[j]?.join = some row := by
  rcases set_cases (Option.join_eq_some_iff.mp found) with ⟨-, rfl⟩ | ⟨-, was⟩
  · exact .inl rfl
  · exact .inr (Option.join_eq_some_iff.mpr was)

theorem set_self {i : Nat} (found : rows[i]? = some row) : rows.set i row = rows := by
  obtain ⟨within, rfl⟩ := List.getElem?_eq_some_iff.mp found
  exact List.set_getElem_self within

theorem mem_set_cases (mem : row ∈ rows.set i next) :
    row = next ∨ ∃ j, j ≠ i ∧ rows[j]? = some row := by
  obtain ⟨j, found⟩ := List.mem_iff_getElem?.mp mem
  exact (set_cases found).imp And.right fun other => ⟨j, other⟩

theorem filter_set {passes : α → Bool} {old : α} (found : rows[i]? = some old)
    (out : passes old = false) (out' : passes next = false) :
    (rows.set i next).filter passes = rows.filter passes := by
  induction rows generalizing i with
  | nil => cases found
  | cons row rows ih =>
    cases i with
    | zero =>
      cases found
      simp [out, out']
    | succ i =>
      rw [List.set_cons_succ, List.filter_cons, List.filter_cons, ih (by simpa using found)]

theorem append_cases (found : (rows ++ [next])[j]? = some row) :
    (j = rows.length ∧ row = next) ∨ rows[j]? = some row := by
  rcases Nat.lt_or_ge j rows.length with within | beyond
  · exact .inr (List.getElem?_append_left within ▸ found)
  · rw [List.getElem?_append_right beyond] at found
    obtain ⟨small, rfl⟩ := List.getElem?_eq_some_iff.mp found
    have first : j - rows.length = 0 := by simpa using small
    exact .inl ⟨by omega, by simp [first]⟩

end Places

end Smo.Table
