import Mathlib
import Smo.Lib.Json.Dump

/-! What `json.dumps` writes with sorted names tells the value: no two values are written alike,
whatever follows them in a list or an object. -/
namespace Smo.Json

/-- What follows a value in a list or an object. -/
def isEnd (c : Char) : Bool := c = ',' || c = ']' || c = '\x7d'

def Ended (rest : List Char) : Prop := ∀ c ∈ rest.head?, isEnd c

def numeric (c : Char) : Bool := isDigit c || c = '-' || c = '+' || c = '.' || c = 'e'

/-- The text of a float, which is not that of an integer. -/
def floatText (text : List Char) : Bool :=
  text = "NaN".toList || text = "Infinity".toList || text = "-Infinity".toList ||
    (text.head?.any fun c => isDigit c || c = '-') && text.all numeric &&
      text.any fun c => c = '.' || c = 'e'

/-- A code point of a Unicode character. -/
def isScalar (point : Nat) : Bool := point < 0xD800 || 0xE000 ≤ point && point < 0x110000

mutual

/-- A value whose strings are Unicode text and whose dicts are listed by name. -/
def canonical : Value → Bool
  | .null => true
  | .bool _ => true
  | .int _ => true
  | .float text => floatText text
  | .str text => text.all isScalar
  | .arr items => canonicalItems items
  | .obj entries => decide ((entries.map (·.1)).Pairwise (· < ·)) && canonicalEntries entries

def canonicalItems : List Value → Bool
  | [] => true
  | item :: items => canonical item && canonicalItems items

def canonicalEntries : List (Text × Value) → Bool
  | [] => true
  | entry :: entries => entry.1.all isScalar && canonical entry.2 && canonicalEntries entries

end

section Bare

/-- Neither a string nor a list nor a dict. -/
def bare : Value → Bool
  | .str _ | .arr _ | .obj _ => false
  | _ => true

theorem intText_eq (value : Int) :
    intText value = if 0 ≤ value then Nat.toDigits 10 value.toNat
      else '-' :: Nat.toDigits 10 (-value).toNat := by
  rw [intText, Int.toString_eq_repr, Int.repr_eq_if]
  split <;> simp [Nat.repr]

variable {c : Char} {v : Value}

theorem digit_of_mem {n : Nat} (mem : c ∈ Nat.toDigits 10 n) : isDigit c = true := by
  have digit := Nat.isDigit_of_mem_toDigits (by decide) (by decide) mem
  simpa [Char.isDigit, isDigit, Char.le_def] using digit

theorem intText_digit (value : Int) : ∀ c ∈ intText value, isDigit c = true ∨ c = '-' := by
  intro c mem
  rw [intText_eq] at mem
  split at mem
  · exact .inl (digit_of_mem mem)
  · rcases List.mem_cons.mp mem with rfl | mem
    · exact .inr rfl
    · exact .inl (digit_of_mem mem)

theorem intText_ne_nil (value : Int) : intText value ≠ [] := by
  rw [intText_eq]
  split
  · exact Nat.toDigits_ne_nil
  · exact List.cons_ne_nil _ _

theorem intText_injective {value value' : Int} (same : intText value = intText value') :
    value = value' :=
  Int.repr_injective (String.toList_injective same)

theorem floatText_cases {text : List Char} (float : floatText text = true) :
    (text = "NaN".toList ∨ text = "Infinity".toList ∨ text = "-Infinity".toList) ∨
      (∃ c ∈ text.head?, isDigit c = true ∨ c = '-') ∧ (∀ c ∈ text, numeric c = true) ∧
        ∃ c ∈ text, c = '.' ∨ c = 'e' := by
  simp only [floatText, Bool.or_eq_true, Bool.and_eq_true, decide_eq_true_eq, Option.any_eq_true,
    List.all_eq_true, List.any_eq_true] at float
  rcases float with named | ⟨⟨starts, made⟩, marked⟩
  · exact .inl (or_assoc.mp named)
  · exact .inr ⟨starts, made, marked⟩

theorem floatText_intText (value : Int) : floatText (intText value) ≠ true := by
  intro float
  have digits := intText_digit value
  rcases floatText_cases float with (same | same | same) | ⟨-, -, c, mem, mark⟩
  · rw [same] at digits
    exact absurd (digits 'N' (by decide)) (by decide)
  · rw [same] at digits
    exact absurd (digits 'I' (by decide)) (by decide)
  · rw [same] at digits
    exact absurd (digits 'I' (by decide)) (by decide)
  · have := digits c mem
    rcases mark with rfl | rfl <;> exact absurd this (by decide)

theorem isEnd_of_numeric (is : numeric c = true) : isEnd c = false := by
  by_contra ends
  simp only [Bool.not_eq_false, isEnd, Bool.or_eq_true, decide_eq_true_eq] at ends
  rcases ends with (rfl | rfl) | rfl <;> exact absurd is (by decide)

theorem numeric_of_digit (is : isDigit c = true ∨ c = '-') : numeric c = true := by
  rcases is with digit | rfl
  · simp [numeric, digit]
  · decide

theorem opens_of_digit (is : isDigit c = true ∨ c = '-') : c ≠ '"' ∧ c ≠ '[' ∧ c ≠ '\x7b' := by
  refine ⟨?_, ?_, ?_⟩ <;> rintro rfl <;> exact absurd is (by decide)

theorem bare_text (isBare : bare v = true) (canon : canonical v = true) :
    (∀ c ∈ dumps false true v, isEnd c = false) ∧
      ∃ c ∈ (dumps false true v).head?, c ≠ '"' ∧ c ≠ '[' ∧ c ≠ '\x7b' := by
  cases v with
  | null => exact ⟨by simp [dumps, isEnd], 'n', rfl, by decide⟩
  | bool value =>
    cases value
    · exact ⟨by simp [dumps, isEnd], 'f', rfl, by decide⟩
    · exact ⟨by simp [dumps, isEnd], 't', rfl, by decide⟩
  | int value =>
    have digits := intText_digit value
    refine ⟨fun c mem => isEnd_of_numeric (numeric_of_digit (digits c mem)), ?_⟩
    obtain ⟨c, rest, same⟩ := List.exists_cons_of_ne_nil (intText_ne_nil value)
    rw [dumps, same]
    exact ⟨c, rfl, opens_of_digit (digits c (by rw [same]; exact List.mem_cons_self))⟩
  | float text =>
    rw [dumps]
    rcases floatText_cases canon with (rfl | rfl | rfl) | ⟨⟨c, starts, is⟩, made, -⟩
    · exact ⟨by simp [isEnd], 'N', rfl, by decide⟩
    · exact ⟨by simp [isEnd], 'I', rfl, by decide⟩
    · exact ⟨by simp [isEnd], '-', rfl, by decide⟩
    · exact ⟨fun c mem => isEnd_of_numeric (made c mem), c, starts, opens_of_digit is⟩
  | str | arr | obj => cases isBare

theorem word_ne_intText {word : List Char} (mem : c ∈ word) (other : ¬ (isDigit c = true ∨ c = '-'))
    (value : Int) : word ≠ intText value := by
  rintro rfl
  exact other (intText_digit value c mem)

theorem bare_injective {w : Value} (isBare : bare v = true) (isBare' : bare w = true)
    (canon : canonical v = true) (canon' : canonical w = true)
    (same : dumps false true v = dumps false true w) : v = w := by
  cases v with
  | null =>
    cases w with
    | null => rfl
    | bool value => cases value <;> exact absurd same (by decide)
    | int value => exact absurd same (word_ne_intText (c := 'n') (by decide) (by decide) value)
    | float text => cases same; exact absurd canon' (by decide)
    | str | arr | obj => cases isBare'
  | bool value =>
    cases w with
    | null => cases value <;> exact absurd same (by decide)
    | bool value' => cases value <;> cases value' <;> first | rfl | exact absurd same (by decide)
    | int value' =>
      cases value
      · exact absurd same (word_ne_intText (c := 'f') (by decide) (by decide) value')
      · exact absurd same (word_ne_intText (c := 't') (by decide) (by decide) value')
    | float text => cases value <;> cases same <;> exact absurd canon' (by decide)
    | str | arr | obj => cases isBare'
  | int value =>
    cases w with
    | null => exact absurd same.symm (word_ne_intText (c := 'n') (by decide) (by decide) value)
    | bool value' =>
      cases value'
      · exact absurd same.symm (word_ne_intText (c := 'f') (by decide) (by decide) value)
      · exact absurd same.symm (word_ne_intText (c := 't') (by decide) (by decide) value)
    | int value' => exact congrArg Value.int (intText_injective same)
    | float text =>
      have is : intText value = text := same
      rw [canonical, ← is] at canon'
      exact absurd canon' (floatText_intText value)
    | str | arr | obj => cases isBare'
  | float text =>
    have is : text = dumps false true w := same
    rw [canonical] at canon
    cases w with
    | null => subst is; exact absurd canon (by decide)
    | bool value => cases value <;> subst is <;> exact absurd canon (by decide)
    | int value =>
      subst is
      exact absurd canon (floatText_intText value)
    | float text' => exact congrArg Value.float is
    | str | arr | obj => cases isBare'
  | str | arr | obj => cases isBare

end Bare

section Prefix

variable {rest rest' : List Char} {v w : Value} {close : Char}

theorem takeWhile_ended {text : List Char} (solid : ∀ c ∈ text, isEnd c = false)
    (ended : Ended rest) : (text ++ rest).takeWhile (fun c => ¬ isEnd c) = text := by
  rw [List.takeWhile_append_of_pos fun c mem => by simp [solid c mem]]
  cases rest with
  | nil => simp
  | cons c rest =>
    have : isEnd c = true := ended c rfl
    simp [this]

theorem bare_front (isBare : bare v = true) (isBare' : bare w = true) (canon : canonical v = true)
    (canon' : canonical w = true) (ended : Ended rest) (ended' : Ended rest')
    (same : dumps false true v ++ rest = dumps false true w ++ rest') : v = w ∧ rest = rest' := by
  have texts : dumps false true v = dumps false true w := by
    rw [← takeWhile_ended (bare_text isBare canon).1 ended, same,
      takeWhile_ended (bare_text isBare' canon').1 ended']
  refine ⟨bare_injective isBare isBare' canon canon' texts, ?_⟩
  rw [texts] at same
  exact List.append_cancel_left same

theorem quoted_front {name name' : Text} (scalar : name.all isScalar = true)
    (scalar' : name'.all isScalar = true)
    (same : quoted false name ++ rest = quoted false name' ++ rest') :
    name = name' ∧ rest = rest' := by
  have single : ∀ {name : Text}, name.all isScalar = true → ∀ point ∈ name, Single false point := by
    intro name scalar point mem
    have := List.all_eq_true.mp scalar point mem
    simp only [isScalar, Bool.or_eq_true, Bool.and_eq_true, decide_eq_true_eq] at this
    exact ⟨this, nofun⟩
  simp only [quoted, List.cons_append, List.append_assoc, List.nil_append, List.cons.injEq,
    true_and] at same
  have read := scanString_quoted (single scalar) rest
  rw [same, scanString_quoted (single scalar')] at read
  simp only [Except.ok.injEq, Prod.mk.injEq] at read
  exact ⟨read.1.symm, read.2.symm⟩

theorem dumps_head (canon : canonical v = true) :
    ∃ c tail, dumps false true v = c :: tail ∧ isEnd c = false := by
  cases v with
  | str text => exact ⟨'"', _, rfl, by decide⟩
  | arr items => exact ⟨'[', _, by rw [dumps]; rfl, by decide⟩
  | obj entries => exact ⟨'\x7b', _, by rw [dumps]; rfl, by decide⟩
  | null | bool | int | float =>
    obtain ⟨solid, c, head, -⟩ := bare_text rfl canon
    obtain ⟨tail, same⟩ := List.head?_eq_some_iff.mp head
    exact ⟨c, tail, same, solid c (List.mem_of_mem_head? head)⟩

/-- What follows the first part of a list. -/
def afterFirst (parts : List (List Char)) (close : Char) (rest : List Char) : List Char :=
  match parts with
  | [] => close :: rest
  | part :: parts => ',' :: (commaJoined (part :: parts) ++ close :: rest)

theorem commaJoined_cons (part : List Char) (parts : List (List Char)) (close : Char)
    (rest : List Char) :
    commaJoined (part :: parts) ++ close :: rest = part ++ afterFirst parts close rest := by
  cases parts <;> simp [commaJoined, afterFirst]

theorem ended_afterFirst (ends : isEnd close = true) (parts : List (List Char)) (rest : List Char) :
    Ended (afterFirst parts close rest) := by
  cases parts with
  | nil => rintro c ⟨⟩; exact ends
  | cons part parts => rintro c ⟨⟩; decide

theorem joined_front {α : Type} {write : α → List Char} (ends : isEnd close = true)
    (apart : close ≠ ',') {xs ys : List α}
    (opens : ∀ x, x ∈ xs ∨ x ∈ ys → ∃ c tail, write x = c :: tail ∧ isEnd c = false)
    (each : ∀ x ∈ xs, ∀ y ∈ ys, ∀ rest rest', Ended rest → Ended rest' →
      write x ++ rest = write y ++ rest' → x = y ∧ rest = rest')
    (same : commaJoined (xs.map write) ++ close :: rest =
      commaJoined (ys.map write) ++ close :: rest') : xs = ys ∧ rest = rest' := by
  induction xs generalizing ys with
  | nil =>
    cases ys with
    | nil => exact ⟨rfl, (List.cons.inj same).2⟩
    | cons y ys =>
      obtain ⟨c, tail, starts, solid⟩ := opens y (.inr List.mem_cons_self)
      rw [List.map_cons, commaJoined_cons, starts] at same
      have : close = c := (List.cons.inj same).1
      rw [this, solid] at ends
      cases ends
  | cons x xs ih =>
    cases ys with
    | nil =>
      obtain ⟨c, tail, starts, solid⟩ := opens x (.inl List.mem_cons_self)
      rw [List.map_cons, commaJoined_cons, starts] at same
      have : c = close := (List.cons.inj same).1
      rw [← this, solid] at ends
      cases ends
    | cons y ys =>
      rw [List.map_cons, List.map_cons, commaJoined_cons, commaJoined_cons] at same
      obtain ⟨rfl, later⟩ := each x List.mem_cons_self y List.mem_cons_self _ _
        (ended_afterFirst ends _ _) (ended_afterFirst ends _ _) same
      have inner : commaJoined (xs.map write) ++ close :: rest =
          commaJoined (ys.map write) ++ close :: rest' ∧ (xs = [] ↔ ys = []) := by
        cases xs with
        | nil =>
          cases ys with
          | nil => exact ⟨later, Iff.rfl⟩
          | cons => exact absurd (List.cons.inj later).1 apart
        | cons =>
          cases ys with
          | nil => exact absurd (List.cons.inj later).1.symm apart
          | cons => exact ⟨(List.cons.inj later).2, by simp⟩
      obtain ⟨rfl, rfl⟩ := @ih ys (fun z mem => opens z (mem.imp (List.mem_cons_of_mem _)
        (List.mem_cons_of_mem _))) (fun x mem y mem' => each x (List.mem_cons_of_mem _ mem) y
        (List.mem_cons_of_mem _ mem')) inner.1
      exact ⟨rfl, rfl⟩

/-- How an entry is written. -/
def written (entry : Text × Value) : List Char := quoted false entry.1 ++ ':' :: dumps false true entry.2

theorem canonicalItems_iff (items : List Value) :
    canonicalItems items = true ↔ ∀ item ∈ items, canonical item = true := by
  induction items with
  | nil => simp [canonicalItems]
  | cons item items ih => simp [canonicalItems, ih]

theorem canonicalEntries_iff (entries : List (Text × Value)) :
    canonicalEntries entries = true ↔
      ∀ entry ∈ entries, entry.1.all isScalar = true ∧ canonical entry.2 = true := by
  induction entries with
  | nil => simp [canonicalEntries]
  | cons entry entries ih => simp [canonicalEntries, ih]

theorem dumps_arr (items : List Value) :
    dumps false true (.arr items) = '[' :: (commaJoined (items.map (dumps false true)) ++ [']']) := by
  rw [dumps, dumpsItems_eq]
  rfl

theorem dumps_obj {entries : List (Text × Value)} (canon : canonical (.obj entries) = true) :
    dumps false true (.obj entries) = '\x7b' :: (commaJoined (entries.map written) ++ ['\x7d']) := by
  rw [canonical, Bool.and_eq_true, decide_eq_true_eq] at canon
  have sorted : arranged true (dumpsEntries false true entries) = dumpsEntries false true entries := by
    rw [arranged, if_pos rfl]
    refine List.Pairwise.insertionSort_eq ?_
    rw [dumpsEntries_eq, List.pairwise_map]
    exact (List.pairwise_map.mp canon.1).imp le_of_lt
  rw [dumps, sorted, dumpsEntries_eq, List.map_map]
  rfl

inductive Shape where
  | bare | str | arr | obj
  deriving DecidableEq

def shape : Value → Shape
  | .str _ => .str
  | .arr _ => .arr
  | .obj _ => .obj
  | _ => .bare

/-- The shape of a value whose text starts with a character. -/
def opened (c : Char) : Shape :=
  if c = '"' then .str else if c = '[' then .arr else if c = '\x7b' then .obj else .bare

theorem opened_shape (canon : canonical v = true) (rest : List Char) :
    ∃ c tail, dumps false true v ++ rest = c :: tail ∧ opened c = shape v := by
  cases v with
  | str text => exact ⟨'"', _, rfl, rfl⟩
  | arr items => exact ⟨'[', _, by rw [dumps]; rfl, rfl⟩
  | obj entries => exact ⟨'\x7b', _, by rw [dumps]; rfl, rfl⟩
  | null | bool | int | float =>
    obtain ⟨-, c, head, quote, bracket, brace⟩ := bare_text rfl canon
    obtain ⟨tail, same⟩ := List.head?_eq_some_iff.mp head
    exact ⟨c, tail ++ rest, by rw [same]; rfl, by simp [opened, shape, quote, bracket, brace]⟩

theorem dumps_front (v w : Value) {rest rest' : List Char} (canon : canonical v = true)
    (canon' : canonical w = true) (ended : Ended rest) (ended' : Ended rest')
    (same : dumps false true v ++ rest = dumps false true w ++ rest') : v = w ∧ rest = rest' := by
  have shapes : shape v = shape w := by
    obtain ⟨c, tail, text, is⟩ := opened_shape canon rest
    obtain ⟨c', tail', text', is'⟩ := opened_shape canon' rest'
    rw [text, text'] at same
    rw [← is, ← is', (List.cons.inj same).1]
  match v, w, shapes with
  | .str text, .str text', _ =>
    obtain ⟨rfl, rest⟩ := quoted_front canon canon' same
    exact ⟨rfl, rest⟩
  | .arr items, .arr items', _ =>
    rw [dumps_arr, dumps_arr] at same
    simp only [List.cons_append, List.append_assoc, List.nil_append, List.cons.injEq,
      true_and] at same
    rw [canonical, canonicalItems_iff] at canon canon'
    obtain ⟨rfl, rest⟩ := joined_front (by decide) (by decide)
      (fun item mem => dumps_head (mem.elim (canon item) (canon' item)))
      (fun item mem item' mem' _ _ ended ended' same =>
        dumps_front item item' (canon item mem) (canon' item' mem') ended ended' same) same
    exact ⟨rfl, rest⟩
  | .obj entries, .obj entries', _ =>
    rw [dumps_obj canon, dumps_obj canon'] at same
    simp only [List.cons_append, List.append_assoc, List.nil_append, List.cons.injEq,
      true_and] at same
    have inside := (canonicalEntries_iff entries).mp (Bool.and_eq_true_iff.mp canon).2
    have inside' := (canonicalEntries_iff entries').mp (Bool.and_eq_true_iff.mp canon').2
    have starts : ∀ entry, ∃ c tail, written entry = c :: tail ∧ isEnd c = false :=
      fun entry => ⟨'"', _, rfl, by decide⟩
    obtain ⟨rfl, rest⟩ := joined_front (by decide) (by decide) (fun entry _ => starts entry)
      (fun entry mem entry' mem' rest rest' ended ended' same => by
        simp only [written, List.append_assoc, List.cons_append] at same
        obtain ⟨name, same⟩ := quoted_front (inside entry mem).1 (inside' entry' mem').1 same
        obtain ⟨value, rest⟩ := dumps_front entry.2 entry'.2 (inside entry mem).2
          (inside' entry' mem').2 ended ended' (List.cons.inj same).2
        exact ⟨Prod.ext name value, rest⟩) same
    exact ⟨rfl, rest⟩
  | .null, .null, _ | .null, .bool _, _ | .null, .int _, _ | .null, .float _, _
  | .bool _, .null, _ | .bool _, .bool _, _ | .bool _, .int _, _ | .bool _, .float _, _
  | .int _, .null, _ | .int _, .bool _, _ | .int _, .int _, _ | .int _, .float _, _
  | .float _, .null, _ | .float _, .bool _, _ | .float _, .int _, _ | .float _, .float _, _ =>
    exact bare_front rfl rfl canon canon' ended ended' same
termination_by sizeOf v
decreasing_by
  · have := List.sizeOf_lt_of_mem mem
    simp only [Value.arr.sizeOf_spec]
    omega
  · have := List.sizeOf_lt_of_mem mem
    simp only [Value.obj.sizeOf_spec]
    have : sizeOf entry.2 < sizeOf entry := by
      obtain ⟨name, value⟩ := entry
      simp
    omega

theorem dumps_injective (canon : canonical v = true) (canon' : canonical w = true)
    (same : dumps false true v = dumps false true w) : v = w :=
  (@dumps_front v w [] [] canon canon' nofun nofun (by rw [same])).1

end Prefix

end Smo.Json
