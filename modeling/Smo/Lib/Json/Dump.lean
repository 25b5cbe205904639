import Mathlib.Data.List.Lex
import Mathlib.Data.List.Sort
import Smo.Lib.Json.Load

/-! Writing JSON as Python's `json.dumps` does, and the round trip: a value without numbers
that is written is loaded again. -/
namespace Smo.Json

section Writing

def hexChar (digit : Nat) : Char :=
  Char.ofNat (if digit < 10 then '0'.toNat + digit else 'a'.toNat + (digit - 10))

/-- A `\u` escape. -/
def hexEscape (unit : Nat) : List Char :=
  ['\\', 'u', hexChar (unit / 4096 % 16), hexChar (unit / 256 % 16), hexChar (unit / 16 % 16),
    hexChar (unit % 16)]

def namedEscape (point : Nat) : Option Char :=
  if point = 0x22 then some '"'
  else if point = 0x5C then some '\\'
  else if point = 0x0A then some 'n'
  else if point = 0x0D then some 'r'
  else if point = 0x09 then some 't'
  else if point = 0x0C then some 'f'
  else if point = 0x08 then some 'b'
  else none

/-- A code point in a string; `ascii` is `ensure_ascii`. -/
def escape (ascii : Bool) (point : Nat) : List Char :=
  match namedEscape point with
  | some c => ['\\', c]
  | none =>
    if point < 0x20 then hexEscape point
    else if ascii && 0x7F ≤ point then
      if point < 0x10000 then hexEscape point
      else
        hexEscape (0xD800 + (point - 0x10000) / 0x400) ++
          hexEscape (0xDC00 + (point - 0x10000) % 0x400)
    else [Char.ofNat point]

def quoted (ascii : Bool) (text : Text) : List Char := '"' :: text.flatMap (escape ascii) ++ ['"']

def commaJoined : List (List Char) → List Char
  | [] => []
  | [part] => part
  | part :: parts => part ++ ',' :: commaJoined parts

def intText (value : Int) : List Char := (toString value).toList

/-- The printed entries of an object, by name when they are sorted. -/
def arranged (sorts : Bool) (printed : List (Text × List Char)) : List (Text × List Char) :=
  if sorts then printed.insertionSort (·.1 ≤ ·.1) else printed

mutual

/-- `json.dumps` with the separators `,` and `:`; `sorts` is `sort_keys`. -/
def dumps (ascii sorts : Bool) : Value → List Char
  | .null => ['n', 'u', 'l', 'l']
  | .bool true => ['t', 'r', 'u', 'e']
  | .bool false => ['f', 'a', 'l', 's', 'e']
  | .int value => intText value
  | .float text => text
  | .str text => quoted ascii text
  | .arr items => '[' :: commaJoined (dumpsItems ascii sorts items) ++ [']']
  | .obj entries =>
    let printed := arranged sorts (dumpsEntries ascii sorts entries)
    '\x7b' :: commaJoined (printed.map fun entry => quoted ascii entry.1 ++ ':' :: entry.2) ++
      ['\x7d']

def dumpsItems (ascii sorts : Bool) : List Value → List (List Char)
  | [] => []
  | item :: items => dumps ascii sorts item :: dumpsItems ascii sorts items

def dumpsEntries (ascii sorts : Bool) : List (Text × Value) → List (Text × List Char)
  | [] => []
  | entry :: entries => (entry.1, dumps ascii sorts entry.2) :: dumpsEntries ascii sorts entries

end

end Writing

section Strings

/-- A code point of a Unicode character that is written as one escape at most. -/
def Single (ascii : Bool) (point : Nat) : Prop :=
  (point < 0xD800 ∨ 0xE000 ≤ point ∧ point < 0x110000) ∧ (ascii = true → point < 0x10000)

theorem hexDigit_hexChar {digit : Nat} (h : digit < 16) : hexDigit (hexChar digit) = some digit := by
  revert digit
  decide

theorem units_hexEscape {unit : Nat} (h : unit < 0x10000) (rest : List Char) :
    units .plain (hexEscape unit ++ rest) =
      (units .plain rest).map fun read => ((unit, true) :: read.1, read.2) := by
  have bound : ∀ n, n % 16 < 16 := fun n => Nat.mod_lt n (by decide)
  have same : 16 * (16 * (16 * (16 * 0 + unit / 4096 % 16) + unit / 256 % 16) + unit / 16 % 16) +
      unit % 16 = unit := by omega
  simp only [hexEscape, List.cons_append, List.nil_append, units, hexDigit_hexChar (bound _), same]
  rfl

variable {point : Nat} {ascii : Bool}

theorem units_namedEscape {c : Char} (h : namedEscape point = some c) (rest : List Char) :
    units .plain ('\\' :: c :: rest) =
      (units .plain rest).map fun read => ((point, false) :: read.1, read.2) := by
  have cases : (point, c) ∈ [(0x22, '"'), (0x5C, '\\'), (0x0A, 'n'), (0x0D, 'r'), (0x09, 't'),
      (0x0C, 'f'), (0x08, 'b')] := by
    revert h
    unfold namedEscape
    repeat' split
    all_goals rintro ⟨⟩
    all_goals simp [*]
  simp only [List.mem_cons, Prod.mk.injEq, List.not_mem_nil, or_false] at cases
  obtain ⟨rfl, rfl⟩ | ⟨rfl, rfl⟩ | ⟨rfl, rfl⟩ | ⟨rfl, rfl⟩ | ⟨rfl, rfl⟩ | ⟨rfl, rfl⟩ | ⟨rfl, rfl⟩ :=
    cases <;> rfl

theorem toNat_ofNat (single : point < 0xD800 ∨ 0xE000 ≤ point ∧ point < 0x110000) :
    (Char.ofNat point).toNat = point := by
  have valid : point.isValidChar := by
    rcases single with low | high
    · exact Or.inl low
    · exact Or.inr ⟨by omega, high.2⟩
  rw [Char.ofNat, dif_pos valid]
  rfl

theorem units_char (single : point < 0xD800 ∨ 0xE000 ≤ point ∧ point < 0x110000)
    (unnamed : namedEscape point = none) (printable : 0x20 ≤ point) (rest : List Char) :
    units .plain (Char.ofNat point :: rest) =
      (units .plain rest).map fun read => ((point, false) :: read.1, read.2) := by
  have toNat := toNat_ofNat single
  have notQuote : Char.ofNat point ≠ '"' := by
    intro same
    rw [same] at toNat
    subst toNat
    simp [namedEscape] at unnamed
  have notSlash : Char.ofNat point ≠ '\\' := by
    intro same
    rw [same] at toNat
    subst toNat
    simp [namedEscape] at unnamed
  rw [units, if_neg notQuote, if_neg notSlash, toNat, if_neg (by omega)]

theorem units_escape (single : Single ascii point) (rest : List Char) :
    ∃ escaped, units .plain (escape ascii point ++ rest) =
      (units .plain rest).map fun read => ((point, escaped) :: read.1, read.2) := by
  rw [escape]
  cases named : namedEscape point with
  | some c => exact ⟨false, units_namedEscape named rest⟩
  | none =>
    dsimp only
    split
    · exact ⟨true, units_hexEscape (by omega) rest⟩
    next printable =>
      split
      next escapes =>
        simp only [Bool.and_eq_true, decide_eq_true_eq] at escapes
        rw [if_pos (single.2 escapes.1)]
        exact ⟨true, units_hexEscape (single.2 escapes.1) rest⟩
      · exact ⟨false, units_char single.1 named (by omega) rest⟩

theorem paired_cons {escaped : Bool} (plain : isHigh point = false) (rest : List (Nat × Bool)) :
    paired ((point, escaped) :: rest) = point :: paired rest := by
  cases rest with
  | nil => rfl
  | cons next rest => simp [paired, plain]

theorem scanString_quoted {text : Text} (single : ∀ point ∈ text, Single ascii point)
    (rest : List Char) :
    scanString (text.flatMap (escape ascii) ++ '"' :: rest) = .ok (text, rest) := by
  have read : ∃ read, units .plain (text.flatMap (escape ascii) ++ '"' :: rest) =
      .ok (read, rest) ∧ paired read = text := by
    induction text with
    | nil => exact ⟨[], rfl, rfl⟩
    | cons point text ih =>
      obtain ⟨read, hread, same⟩ := ih fun other member => single other (List.mem_cons_of_mem _ member)
      have first := single point (List.mem_cons_self ..)
      rw [List.flatMap_cons, List.append_assoc]
      obtain ⟨escaped, hescaped⟩ := units_escape first
        (text.flatMap (escape ascii) ++ '"' :: rest)
      refine ⟨(point, escaped) :: read, ?_, ?_⟩
      · rw [hescaped, hread]
        rfl
      · have plain : isHigh point = false := by
          simp only [isHigh, Bool.and_eq_false_iff, decide_eq_false_iff_not]
          have := first.1
          omega
        rw [paired_cons plain, same]
  obtain ⟨read, hread, same⟩ := read
  rw [scanString, hread, ← same]
  rfl

end Strings

section Values

/-- A text that a value was written as: read back whatever follows it. -/
structure Reads (depth : Nat) (text : List Char) (value : Value) : Prop where
  scans : ∀ rest, scanOnce depth (text ++ rest) = .ok (value, rest)
  starts : ∃ c tail, text = c :: tail ∧ isBlank c = false ∧ c ≠ ']' ∧ c ≠ '\ufeff'

variable {ascii : Bool} {depth fuel : Nat}

theorem reads_str {text : Text} (depth : Nat) (single : ∀ point ∈ text, Single ascii point) :
    Reads depth (quoted ascii text) (.str text) := by
  refine ⟨fun rest => ?_, '"', _, rfl, rfl, by decide⟩
  have read := scanString_quoted single rest
  rw [quoted, List.cons_append, List.cons_append, List.append_assoc, List.singleton_append]
  cases depth <;> rw [scanOnce, read] <;> rfl

theorem skip_commaJoined {first : List Char} {parts : List (List Char)} {rest : List Char}
    {c : Char} {tail : List Char} (starts : first = c :: tail) (solid : isBlank c = false) :
    skip (commaJoined (first :: parts) ++ rest) = commaJoined (first :: parts) ++ rest ∧
      ∃ tail, commaJoined (first :: parts) ++ rest = c :: tail := by
  subst starts
  cases parts <;> simp [commaJoined, skip, solid]

theorem length_commaJoined {parts : List (List Char)} (solid : ∀ part ∈ parts, part ≠ []) :
    parts.length ≤ (commaJoined parts).length := by
  induction parts with
  | nil => simp
  | cons part parts ih =>
    have rest := ih fun other member => solid other (List.mem_cons_of_mem _ member)
    have pos := List.length_pos_iff.2 (solid part (List.mem_cons_self ..))
    cases parts with
    | nil => exact pos
    | cons next parts =>
      simp only [commaJoined, List.length_append, List.length_cons] at rest ⊢
      omega

theorem scanItems_reads {written : List (List Char × Value)} (some : written ≠ [])
    (reads : ∀ item ∈ written, Reads depth item.1 item.2) (enough : written.length ≤ fuel)
    (rest : List Char) :
    scanItems (scanOnce depth) fuel (commaJoined (written.map (·.1)) ++ ']' :: rest) =
      .ok (written.map (·.2), rest) := by
  induction written generalizing fuel with
  | nil => exact absurd rfl some
  | cons item written ih =>
    cases fuel with
    | zero => simp at enough
    | succ fuel =>
      have first := reads item (List.mem_cons_self ..)
      cases written with
      | nil =>
        simp only [List.map_cons, List.map_nil, commaJoined]
        rw [scanItems, first.scans]
        rfl
      | cons next written =>
        have others : ∀ item ∈ next :: written, Reads depth item.1 item.2 :=
          fun other member => reads other (List.mem_cons_of_mem _ member)
        have fits : (next :: written).length ≤ fuel := by simpa using enough
        have goesOn := ih (List.cons_ne_nil next written) others fits
        obtain ⟨c, tail, starts, solid, -⟩ := (others next (List.mem_cons_self ..)).starts
        simp only [List.map_cons, commaJoined, List.append_assoc, List.cons_append] at goesOn ⊢
        have comma : ∀ text, skip (',' :: text) = ',' :: text := fun _ => rfl
        rw [scanItems, first.scans]
        simp only [bind, Except.bind, comma, (skip_commaJoined starts solid).1, goesOn, pure,
          Except.pure]

theorem reads_arr {depth : Nat} {written : List (List Char × Value)}
    (reads : ∀ item ∈ written, Reads depth item.1 item.2) :
    Reads (depth + 1) ('[' :: commaJoined (written.map (·.1)) ++ [']'])
      (.arr (written.map (·.2))) := by
  refine ⟨fun rest => ?_, '[', _, rfl, rfl, by decide⟩
  rw [List.cons_append, List.cons_append, List.append_assoc, List.singleton_append, scanOnce]
  cases written with
  | nil => rfl
  | cons item written =>
    have enough : (item :: written).length ≤
        (commaJoined ((item :: written).map (·.1)) ++ ']' :: rest).length + 1 := by
      have solid : ∀ part ∈ (item :: written).map (·.1), part ≠ [] := by
        intro part member
        obtain ⟨other, inside, rfl⟩ := List.mem_map.1 member
        obtain ⟨c, tail, same, -⟩ := (reads other inside).starts
        rw [same]
        exact List.cons_ne_nil c tail
      have length := length_commaJoined solid
      rw [List.length_map] at length
      rw [List.length_append]
      omega
    have items := scanItems_reads (List.cons_ne_nil item written) reads enough rest
    obtain ⟨c, tail, starts, solid, opens⟩ := (reads item (List.mem_cons_self ..)).starts
    rw [List.map_cons] at items ⊢
    obtain ⟨skipped, tail', same⟩ :=
      @skip_commaJoined item.1 (written.map (·.1)) (']' :: rest) c tail starts solid
    rw [skipped]
    split
    next closed =>
      rw [same] at closed
      exact absurd (List.cons.inj closed).1 opens.1
    · rw [items]
      rfl

/-- How an entry of an object is written: its name, and the text of its value. -/
def entryText (ascii : Bool) (entry : Text × List Char × Value) : List Char :=
  quoted ascii entry.1 ++ ':' :: entry.2.1

theorem scanPairs_reads {written : List (Text × List Char × Value)} (some : written ≠ [])
    (names : ∀ entry ∈ written, ∀ point ∈ entry.1, Single ascii point)
    (reads : ∀ entry ∈ written, Reads depth entry.2.1 entry.2.2) (enough : written.length ≤ fuel)
    (rest : List Char) : scanPairs (scanOnce depth) fuel
        (commaJoined (written.map (entryText ascii)) ++ '\x7d' :: rest) =
      .ok (written.map fun entry => (entry.1, entry.2.2), rest) := by
  induction written generalizing fuel with
  | nil => exact absurd rfl some
  | cons entry written ih =>
    cases fuel with
    | zero => simp at enough
    | succ fuel =>
      have first := reads entry (List.mem_cons_self ..)
      have name := scanString_quoted (names entry (List.mem_cons_self ..))
      obtain ⟨c, tail, starts, solid, -⟩ := first.starts
      have skips : ∀ text, skip (entry.2.1 ++ text) = entry.2.1 ++ text := by
        intro text
        simp [starts, skip, solid]
      have colon : ∀ text, skip (':' :: text) = ':' :: text := fun _ => rfl
      cases written with
      | nil =>
        have brace : skip ('\x7d' :: rest) = '\x7d' :: rest := rfl
        simp only [List.map_cons, List.map_nil, commaJoined, entryText, quoted, List.cons_append,
          List.append_assoc, List.nil_append, scanPairs, name, bind,
          Except.bind, colon, skips, first.scans, brace, pure, Except.pure]
      | cons next written =>
        have fits : (next :: written).length ≤ fuel := by simpa using enough
        have goesOn := ih (List.cons_ne_nil next written)
          (fun other member => names other (List.mem_cons_of_mem _ member))
          (fun other member => reads other (List.mem_cons_of_mem _ member)) fits
        have comma : ∀ text, skip (',' :: text) = ',' :: text := fun _ => rfl
        have opens := (@skip_commaJoined (entryText ascii next) (written.map (entryText ascii))
          ('\x7d' :: rest) '"' _ rfl rfl).1
        have join : commaJoined ((entry :: next :: written).map (entryText ascii)) =
            entryText ascii entry ++ ',' :: commaJoined ((next :: written).map (entryText ascii)) :=
          rfl
        rw [← List.map_cons] at opens
        rw [join, List.append_assoc, List.cons_append]
        generalize commaJoined ((next :: written).map (entryText ascii)) ++ '\x7d' :: rest = others
          at goesOn opens
        simp only [entryText, quoted, List.cons_append, List.append_assoc, List.nil_append,
          scanPairs, name, bind, Except.bind, colon, skips, first.scans, comma, opens, goesOn, pure,
          Except.pure, List.map_cons]

theorem dict_distinct {pairs : List (Text × Value)} (distinct : (pairs.map (·.1)).Nodup) :
    dict pairs = pairs := by
  have go : ∀ before after : List (Text × Value), ((before ++ after).map (·.1)).Nodup →
      after.foldl (fun entries pair =>
        if entries.any (·.1 = pair.1) then
          entries.map fun entry => if entry.1 = pair.1 then pair else entry
        else entries ++ [pair]) before = before ++ after := by
    intro before after nodup
    induction after generalizing before with
    | nil => simp
    | cons pair after ih =>
      have absent : before.any (fun entry => decide (entry.1 = pair.1)) = false := by
        rw [List.any_eq_false]
        intro entry member
        rw [decide_eq_true_iff]
        intro same
        rw [List.map_append, List.nodup_append] at nodup
        exact nodup.2.2 _ (List.mem_map_of_mem member) _ (by simp) same
      rw [List.foldl_cons, if_neg (by simp [absent]), ih _ (by simpa using nodup),
        List.append_assoc, List.singleton_append]
  exact go [] pairs distinct

theorem reads_obj {ascii : Bool} {depth : Nat} {written : List (Text × List Char × Value)}
    (names : ∀ entry ∈ written, ∀ point ∈ entry.1, Single ascii point)
    (distinct : (written.map (·.1)).Nodup)
    (reads : ∀ entry ∈ written, Reads depth entry.2.1 entry.2.2) :
    Reads (depth + 1) ('\x7b' :: commaJoined (written.map (entryText ascii)) ++ ['\x7d'])
      (.obj (written.map fun entry => (entry.1, entry.2.2))) := by
  refine ⟨fun rest => ?_, '\x7b', _, rfl, rfl, by decide⟩
  rw [List.cons_append, List.cons_append, List.append_assoc, List.singleton_append, scanOnce]
  cases written with
  | nil => rfl
  | cons entry written =>
    have enough : (entry :: written).length ≤
        (commaJoined ((entry :: written).map (entryText ascii)) ++ '\x7d' :: rest).length + 1 := by
      have solid : ∀ part ∈ (entry :: written).map (entryText ascii), part ≠ [] := by
        intro part member
        obtain ⟨other, -, rfl⟩ := List.mem_map.1 member
        exact List.cons_ne_nil _ _
      have length := length_commaJoined solid
      rw [List.length_map] at length
      rw [List.length_append]
      omega
    have pairs := scanPairs_reads (List.cons_ne_nil entry written) names reads enough rest
    obtain ⟨skipped, tail, same⟩ :=
      @skip_commaJoined (entryText ascii entry) (written.map (entryText ascii)) ('\x7d' :: rest)
        '"' _ rfl rfl
    rw [List.map_cons] at pairs ⊢
    rw [skipped]
    split
    next closed =>
      rw [same] at closed
      exact absurd (List.cons.inj closed).1 (by decide)
    · rw [pairs]
      simp only [Except.map, Except.ok.injEq, Prod.mk.injEq, Value.obj.injEq, and_true]
      refine dict_distinct ?_
      rw [List.map_map]
      exact distinct

end Values

section RoundTrip

/-- A value without numbers, nested at most so deep, that is written as it stands: the names
of an object are distinct, and in order when they are sorted. -/
def Plain (ascii sorts : Bool) : Nat → Value → Prop
  | _, .null => True
  | _, .bool _ => True
  | _, .str text => ∀ point ∈ text, Single ascii point
  | depth + 1, .arr items => ∀ item ∈ items, Plain ascii sorts depth item
  | depth + 1, .obj entries =>
    (entries.map (·.1)).Nodup ∧ (sorts = true → (entries.map (·.1)).Pairwise (· ≤ ·)) ∧
      ∀ entry ∈ entries, (∀ point ∈ entry.1, Single ascii point) ∧
        Plain ascii sorts depth entry.2
  | _, _ => False

variable {ascii sorts : Bool} {depth : Nat} {value : Value}

theorem plain_str {text : Text} (single : ∀ point ∈ text, Single ascii point) :
    Plain ascii sorts depth (.str text) := by
  cases depth <;> exact single

theorem dumpsItems_eq (ascii sorts : Bool) (items : List Value) :
    dumpsItems ascii sorts items = items.map (dumps ascii sorts) := by
  induction items with
  | nil => rfl
  | cons item items ih => rw [dumpsItems, ih, List.map_cons]

theorem dumpsEntries_eq (ascii sorts : Bool) (entries : List (Text × Value)) :
    dumpsEntries ascii sorts entries =
      entries.map fun entry => (entry.1, dumps ascii sorts entry.2) := by
  induction entries with
  | nil => rfl
  | cons entry entries ih => rw [dumpsEntries, ih, List.map_cons]

theorem dumps_perm {entries entries' : List (Text × Value)} (distinct : (entries.map (·.1)).Nodup)
    (perm : entries.Perm entries') :
    dumps ascii true (.obj entries) = dumps ascii true (.obj entries') := by
  have names : ((dumpsEntries ascii true entries).map (·.1)).Nodup := by
    rw [dumpsEntries_eq, List.map_map]
    exact distinct
  have printed : (dumpsEntries ascii true entries).Perm (dumpsEntries ascii true entries') := by
    rw [dumpsEntries_eq, dumpsEntries_eq]
    exact perm.map _
  have same : arranged true (dumpsEntries ascii true entries) =
      arranged true (dumpsEntries ascii true entries') := by
    have sorted : ∀ xs : List (Text × List Char), (arranged true xs).Pairwise (·.1 ≤ ·.1) :=
      fun xs => List.pairwise_insertionSort (fun a b : Text × List Char => a.1 ≤ b.1) xs
    have here : ∀ xs : List (Text × List Char), (arranged true xs).Perm xs :=
      fun xs => List.perm_insertionSort (fun a b : Text × List Char => a.1 ≤ b.1) xs
    refine List.Perm.eq_of_pairwise (fun a b mem mem' less less' => ?_) (sorted _) (sorted _)
      ((here _).trans (printed.trans (here _).symm))
    exact List.inj_on_of_nodup_map names ((here _).mem_iff.mp mem)
      (printed.mem_iff.mpr ((here _).mem_iff.mp mem')) (le_antisymm less less')
  rw [dumps, dumps, same]


theorem dumps_reads (plain : Plain ascii sorts depth value) :
    Reads depth (dumps ascii sorts value) value := by
  induction depth generalizing value with
  | zero =>
    cases value with
    | null => exact ⟨fun rest => rfl, 'n', _, rfl, rfl, by decide⟩
    | bool value => cases value <;> exact ⟨fun rest => rfl, _, _, rfl, rfl, by decide⟩
    | str text => exact reads_str 0 plain
    | int value => exact absurd plain id
    | float text => exact absurd plain id
    | arr items => exact absurd plain id
    | obj entries => exact absurd plain id
  | succ depth ih =>
    cases value with
    | null => exact ⟨fun rest => rfl, 'n', _, rfl, rfl, by decide⟩
    | bool value => cases value <;> exact ⟨fun rest => rfl, _, _, rfl, rfl, by decide⟩
    | str text => exact reads_str (depth + 1) plain
    | int value => exact absurd plain id
    | float text => exact absurd plain id
    | arr items =>
      have written := @reads_arr depth (items.map fun item => (dumps ascii sorts item, item))
        (by
          intro pair member
          obtain ⟨item, inside, rfl⟩ := List.mem_map.1 member
          exact ih (plain item inside))
      simp only [List.map_map, Function.comp_def, List.map_id'] at written
      rw [dumps, dumpsItems_eq]
      exact written
    | obj entries =>
      obtain ⟨distinct, ordered, inside⟩ := plain
      have written := @reads_obj ascii depth
        (entries.map fun entry => (entry.1, dumps ascii sorts entry.2, entry.2))
        (by
          intro triple member
          obtain ⟨entry, there, rfl⟩ := List.mem_map.1 member
          exact (inside entry there).1)
        (by
          rw [List.map_map]
          exact distinct)
        (by
          intro triple member
          obtain ⟨entry, there, rfl⟩ := List.mem_map.1 member
          exact ih (inside entry there).2)
      have unsorted : arranged sorts (dumpsEntries ascii sorts entries) =
          dumpsEntries ascii sorts entries := by
        rw [arranged]
        split
        next sorting =>
          refine List.Pairwise.insertionSort_eq ?_
          rw [dumpsEntries_eq, List.pairwise_map]
          exact List.pairwise_map.1 (ordered sorting)
        · rfl
      simp only [List.map_map, Function.comp_def, entryText, Prod.mk.eta, List.map_id'] at written
      rw [dumps, unsorted, dumpsEntries_eq]
      simp only [List.map_map, Function.comp_def]
      exact written

theorem loads_dumps (plain : Plain ascii sorts depth value) :
    loads depth (dumps ascii sorts value) = .ok value := by
  have reads := dumps_reads plain
  obtain ⟨c, tail, same, solid, -, unmarked⟩ := reads.starts
  have scans := reads.scans []
  rw [List.append_nil] at scans
  have unskipped : skip (dumps ascii sorts value) = dumps ascii sorts value := by
    simp [same, skip, solid]
  rw [loads]
  · rw [unskipped, scans]
    rfl
  · intro tail' marked
    rw [same] at marked
    exact unmarked (List.cons.inj marked).1

end RoundTrip

end Smo.Json
