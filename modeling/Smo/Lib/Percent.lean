import Mathlib.Data.List.Basic
import Mathlib.Data.Char

/-! Percent-escapes in a text and their decoding as UTF-8, with a replacement character for what is
not UTF-8: a text is read again as itself exactly when it has no escape. Nothing here names a
program. -/
namespace Smo.Percent

/-- The value of a hexadecimal digit. -/
def hexValue (c : Char) : Option Nat :=
  if '0' ≤ c ∧ c ≤ '9' then some (c.toNat - '0'.toNat)
  else if 'a' ≤ c ∧ c ≤ 'f' then some (c.toNat - 'a'.toNat + 10)
  else if 'A' ≤ c ∧ c ≤ 'F' then some (c.toNat - 'A'.toNat + 10)
  else none

/-- The byte that three characters stand for. -/
def escaped (c high low : Char) : Option Nat :=
  if c = '%' then
    match hexValue high, hexValue low with
    | some high, some low => some (16 * high + low)
    | _, _ => none
  else none

inductive Token
  | char (c : Char)
  | byte (b : Nat)
  deriving DecidableEq

def Token.isByte : Token → Bool
  | char _ => false
  | byte _ => true

def tokens : List Char → List Token
  | [] => []
  | [c] => [.char c]
  | [c, d] => [.char c, .char d]
  | c :: high :: low :: rest =>
    match escaped c high low with
    | some b => .byte b :: tokens rest
    | none => .char c :: tokens (high :: low :: rest)

def hasEscape (text : List Char) : Bool := (tokens text).any Token.isByte

/-- A character of several bytes of which some are still to come, the next of them in a range. -/
structure Pending where
  value : Nat
  owed : Nat
  low : Nat := 0x80
  high : Nat := 0xBF

def replacement : Char := Char.ofNat 0xFFFD

/-- A byte that begins a character: what it gives at once, and what it leaves to come. -/
def begins (b : Nat) : List Char × Option Pending :=
  if b < 0x80 then ([Char.ofNat b], none)
  else if b < 0xC2 then ([replacement], none)
  else if b < 0xE0 then ([], some { value := b - 0xC0, owed := 1 })
  else if b = 0xE0 then ([], some { value := 0, owed := 2, low := 0xA0 })
  else if b = 0xED then ([], some { value := 0xD, owed := 2, high := 0x9F })
  else if b < 0xF0 then ([], some { value := b - 0xE0, owed := 2 })
  else if b = 0xF0 then ([], some { value := 0, owed := 3, low := 0x90 })
  else if b = 0xF4 then ([], some { value := 4, owed := 3, high := 0x8F })
  else if b < 0xF4 then ([], some { value := b - 0xF0, owed := 3 })
  else ([replacement], none)

/-- What is given up when the bytes that are to come do not. -/
def lost : Option Pending → List Char
  | none => []
  | some _ => [replacement]

def read (pending : Option Pending) : Token → List Char × Option Pending
  | .char c => (lost pending ++ [c], none)
  | .byte b =>
    match pending with
    | none => begins b
    | some p =>
      if p.low ≤ b ∧ b ≤ p.high then
        let value := p.value * 64 + (b - 0x80)
        if p.owed = 1 then ([Char.ofNat value], none)
        else ([], some { value, owed := p.owed - 1 })
      else (replacement :: (begins b).1, (begins b).2)

def decode (pending : Option Pending) : List Token → List Char
  | [] => lost pending
  | token :: rest => (read pending token).1 ++ decode (read pending token).2 rest

/-- The text with its escapes decoded once. -/
def unquote (text : List Char) : List Char := decode none (tokens text)

section Length

variable {pending : Option Pending} {text : List Char}

theorem begins_length (b : Nat) : (begins b).1.length + (lost (begins b).2).length ≤ 1 := by
  unfold begins
  repeat' split
  all_goals simp [lost]

theorem read_length (pending : Option Pending) (token : Token) :
    (read pending token).1.length + (lost (read pending token).2).length ≤
      (lost pending).length + 1 := by
  cases token with
  | char c => simp [read, lost]
  | byte b =>
    cases pending with
    | none =>
      rw [lost, List.length_nil, Nat.zero_add]
      exact begins_length b
    | some p =>
      have first := begins_length b
      simp only [read]
      split
      · split <;> simp [lost]
      · simp only [List.length_cons]
        rw [show lost (some p) = [replacement] from rfl, List.length_singleton]
        omega

theorem decode_length (pending : Option Pending) (items : List Token) :
    (decode pending items).length ≤ (lost pending).length + items.length := by
  induction items generalizing pending with
  | nil => simp [decode]
  | cons token rest ih =>
    have one := read_length pending token
    have later := ih (read pending token).2
    simp only [decode, List.length_append, List.length_cons]
    omega

theorem tokens_length (text : List Char) :
    (tokens text).length + 2 * (tokens text).countP Token.isByte ≤ text.length := by
  fun_induction tokens text with
  | case1 => simp
  | case2 c => simp [Token.isByte]
  | case3 c d => simp [Token.isByte]
  | case4 c high low rest b is ih =>
    simp only [List.length_cons, List.countP_cons, Token.isByte, if_true]
    omega
  | case5 c high low rest is ih =>
    simp only [List.length_cons, List.countP_cons, Token.isByte, Bool.false_eq_true, if_false] at ih ⊢
    omega

theorem unquote_length_le : (unquote text).length ≤ text.length := by
  have decoded := decode_length none (tokens text)
  have read := tokens_length text
  rw [lost, List.length_nil] at decoded
  unfold unquote
  omega

theorem unquote_length_lt (escape : hasEscape text = true) : (unquote text).length < text.length := by
  have decoded := decode_length none (tokens text)
  have read := tokens_length text
  have some := List.countP_pos_iff.mpr (List.any_eq_true.mp escape)
  rw [lost, List.length_nil] at decoded
  unfold unquote
  omega

end Length

section Plain

variable {text : List Char}

theorem tokens_of_plain (plain : hasEscape text = false) : tokens text = text.map .char := by
  unfold hasEscape at plain
  fun_induction tokens text with
  | case1 => rfl
  | case2 c => rfl
  | case3 c d => rfl
  | case4 c high low rest b is ih => simp [Token.isByte] at plain
  | case5 c high low rest is ih =>
    rw [List.any_cons, Bool.or_eq_false_iff] at plain
    rw [ih plain.2]
    rfl

theorem decode_chars (text : List Char) : decode none (text.map .char) = text := by
  induction text with
  | nil => rfl
  | cons c rest ih =>
    rw [List.map_cons, decode]
    simp [read, lost, ih]

theorem unquote_of_plain (plain : hasEscape text = false) : unquote text = text := by
  rw [unquote, tokens_of_plain plain, decode_chars]

theorem hasEscape_tail {c : Char} (plain : hasEscape (c :: text) = false) : hasEscape text = false := by
  match text with
  | [] => rfl
  | [d] => rfl
  | high :: low :: rest =>
    rw [hasEscape, tokens] at plain
    split at plain
    · simp [Token.isByte] at plain
    · exact (Bool.or_eq_false_iff.mp plain).2

theorem unquote_eq_self_iff : unquote text = text ↔ hasEscape text = false := by
  refine ⟨fun same => ?_, unquote_of_plain⟩
  by_contra escape
  have shorter := unquote_length_lt (Bool.not_eq_false _ ▸ escape)
  rw [same] at shorter
  omega

end Plain

section Quote

variable {special : Char → Bool} {c : Char} {text : List Char}

def hexDigit (n : Nat) : Char :=
  if n < 10 then Char.ofNat ('0'.toNat + n) else Char.ofNat ('A'.toNat + (n - 10))

/-- An ASCII character that is special, as its escape. -/
def quoteChar (special : Char → Bool) (c : Char) : List Char :=
  if special c then ['%', hexDigit (c.toNat / 16), hexDigit (c.toNat % 16)] else [c]

def quote (special : Char → Bool) (text : List Char) : List Char := text.flatMap (quoteChar special)

theorem escaped_hexDigits : ∀ n < 128, escaped '%' (hexDigit (n / 16)) (hexDigit (n % 16)) = some n := by
  decide

theorem tokens_cons (other : c ≠ '%') : tokens (c :: text) = .char c :: tokens text := by
  match text with
  | [] => rfl
  | [d] => rfl
  | high :: low :: rest => simp [tokens, escaped, other]

theorem unquote_quote (percent : special '%' = true) (ascii : ∀ c, special c = true → c.toNat < 128) :
    unquote (quote special text) = text := by
  unfold unquote
  induction text with
  | nil => rfl
  | cons c rest ih =>
    rw [quote, List.flatMap_cons, quoteChar]
    split
    · next is =>
      have small := ascii c is
      have first : tokens ('%' :: hexDigit (c.toNat / 16) :: hexDigit (c.toNat % 16) :: quote special rest) =
          .byte c.toNat :: tokens (quote special rest) := by
        rw [tokens, escaped_hexDigits c.toNat small]
      rw [List.cons_append, List.cons_append, List.cons_append, List.nil_append]
      rw [show rest.flatMap (quoteChar special) = quote special rest from rfl, first, decode]
      simp [read, begins, small, ih]
    · next plain =>
      have other : c ≠ '%' := by
        rintro rfl
        exact plain percent
      rw [List.singleton_append, tokens_cons other, decode]
      simp only [read, lost, List.nil_append]
      exact congrArg (c :: ·) ih

theorem mem_quote (ascii : ∀ c, special c = true → c.toNat < 128) (mem : c ∈ quote special text) :
    c = '%' ∨ (∃ n < 16, c = hexDigit n) ∨ special c = false := by
  obtain ⟨d, -, mem⟩ := List.mem_flatMap.mp mem
  rw [quoteChar] at mem
  split at mem
  · next is =>
    have small := ascii d is
    simp only [List.mem_cons, List.not_mem_nil, or_false] at mem
    rcases mem with rfl | rfl | rfl
    · exact .inl rfl
    · exact .inr (.inl ⟨_, by omega, rfl⟩)
    · exact .inr (.inl ⟨_, Nat.mod_lt _ (by decide), rfl⟩)
  · next plain =>
    rw [List.mem_singleton.mp mem]
    exact .inr (.inr (Bool.not_eq_true _ ▸ plain))

theorem not_mem_quote (ascii : ∀ c, special c = true → c.toNat < 128) (is : special c = true)
    (percent : c ≠ '%') (digit : ∀ n < 16, c ≠ hexDigit n) : c ∉ quote special text := by
  intro mem
  rcases mem_quote ascii mem with same | ⟨n, small, same⟩ | plain
  · exact percent same
  · exact digit n small same
  · rw [is] at plain
    cases plain

end Quote

end Smo.Percent
