import Smo.Lib.Radix
import Smo.Shared.Str

/-! The guard on callback destinations (`smo_shared/webhook.py`): which address a host is read as, and
which hosts are never called. -/
namespace Smo.Webhook

structure IPv4 where
  value : Nat
  bound : value < 2 ^ 32 := by decide
  deriving DecidableEq

structure IPv6 where
  value : Nat
  bound : value < 2 ^ 128 := by decide
  deriving DecidableEq

inductive Address
  | v4 (ip : IPv4)
  | v6 (ip : IPv6)
  deriving DecidableEq

/-- NFKC and `str.lower`, which on ASCII only lowers the letters. -/
structure Unicode where
  nfkc : Str → Str
  lower : Str → Str
  lower_ascii : ∀ text, (∀ c ∈ text, c.toNat < 128) → lower text = text.map Char.toLower

/-- What Python's `ipaddress` and `urlsplit` tell: the IPv6 (or IPv4) address a text is, in which ranges
an address is, and the scheme and host of a URL that can be split. -/
structure Library where
  ipAddress : Str → Option Address
  isLoopback : Address → Bool
  isLinkLocal : Address → Bool
  isMulticast : Address → Bool
  isUnspecified : Address → Bool
  isReserved : Address → Bool
  urlsplit : Str → Option (Str × Option Str)

section Code

/-- `_DOT_VARIANTS`. -/
def dotVariant (c : Char) : Char :=
  if c.val = 0x3002 ∨ c.val = 0xFF0E ∨ c.val = 0xFF61 then '.' else c

variable (unicode : Unicode) (library : Library)

def canonicalHost (host : Str) : Str :=
  unicode.lower (Str.rstrip '.' ((unicode.nfkc host).map dotVariant))

def hexDigit (c : Char) : Bool :=
  c.isDigit || ('a' ≤ c && c ≤ 'f') || ('A' ≤ c && c ≤ 'F')

/-- `_NUMERIC_LABEL.fullmatch`. -/
def numericLabel : Str → Bool
  | '0' :: 'x' :: digits | '0' :: 'X' :: digits => digits.all hexDigit
  | label => label ≠ [] && label.all Char.isDigit

/-- The number a numeric label is; `int` reads at most 4300 decimal digits. -/
def labelNumber : Str → Option Nat
  | '0' :: 'x' :: digits | '0' :: 'X' :: digits => Radix.read 16 (if digits = [] then ['0'] else digits)
  | '0' :: digits => Radix.read 8 ('0' :: digits)
  | label => if 4300 < label.length then none else Radix.read 10 label

def joinNumbers (leading : List Nat) (last : Nat) : Nat :=
  leading.zipIdx.foldl (fun value n => value ||| n.1 <<< (8 * (3 - n.2))) last

def parseInetAton (host : Str) : Except String (Option IPv4) :=
  let labels := Str.split '.' host
  if 4 < labels.length ∨ ¬labels.all numericLabel then
    if labels.all numericLabel then .error "too many numeric labels" else .ok none
  else
    match labels.mapM labelNumber with
    | none => .error "bad numeric label"
    | some numbers =>
      let leading := numbers.dropLast
      let last := numbers.getLast?.getD 0
      if leading.any (255 < ·) ∨ 256 ^ (5 - numbers.length) ≤ last then
        .error "numeric label out of range"
      else
        let value := joinNumbers leading last
        if bound : value < 2 ^ 32 then .ok (some ⟨value, bound⟩) else .error "address out of range"

def literalIp (host : Str) : Except String (Option Address) :=
  let host := canonicalHost unicode host
  if ':' ∈ host then
    match library.ipAddress (Text.partition '%' host).1 with
    | some ip => .ok (some ip)
    | none => .error "not an IPv6 address"
  else (parseInetAton host).map (·.map .v4)

/-- `ipv4_mapped or sixtofour`. -/
def embedded (ip : IPv6) : Option IPv4 :=
  if ip.value / 2 ^ 32 = 0xFFFF then some ⟨ip.value % 2 ^ 32, Nat.mod_lt _ (by decide)⟩
  else if ip.value / 2 ^ 112 = 0x2002 then
    some ⟨ip.value / 2 ^ 80 % 2 ^ 32, Nat.mod_lt _ (by decide)⟩
  else none

/-- `_NAT64_PREFIX`, the 96 bits of `64:ff9b::`. -/
def nat64Prefix : Nat := 0x64FF9B * 2 ^ 64

def inBlockedRange (ip : Address) : Bool :=
  library.isLoopback ip || library.isLinkLocal ip || library.isMulticast ip ||
    library.isUnspecified ip || library.isReserved ip

def isBlockedAddress : Address → Bool
  | .v4 ip => inBlockedRange library (.v4 ip)
  | .v6 ip =>
    (embedded ip).any (fun inner => inBlockedRange library (.v4 inner)) ||
      ip.value / 2 ^ 32 = nat64Prefix || inBlockedRange library (.v6 ip)

def isBlockedLiteralIp (host : Str) : Bool :=
  match literalIp unicode library host with
  | .error _ => true
  | .ok ip => ip.any (isBlockedAddress library)

def blockedHostnames : List String :=
  ["localhost", "localhost.localdomain", "ip6-localhost", "ip6-loopback", "metadata.google.internal",
    "metadata"]

def isBlockedHostname (host : Str) : Bool :=
  let name := canonicalHost unicode host
  (blockedHostnames.map String.toList).contains name || ".localhost".toList.isSuffixOf name

def isSafeWebhookDestination (destination : Option Str) : Bool :=
  match destination.filter (· ≠ []) with
  | none => false
  | some url =>
    match library.urlsplit url with
    | none => false
    | some (scheme, hostname) =>
      match hostname.filter (· ≠ []) with
      | none => false
      | some hostname =>
        (scheme = "http".toList || scheme = "https".toList) && !isBlockedHostname unicode hostname &&
          !isBlockedLiteralIp unicode library hostname

end Code

section Spelling

/-- How a number may be written: decimal, octal after a 0, or hexadecimal after 0x in either case. -/
inductive Spells : Nat → Str → Prop
  | decimal (n : Nat) : Spells n (Nat.toDigits 10 n)
  | octal (n zeros : Nat) : Spells n ('0' :: List.replicate zeros '0' ++ Nat.toDigits 8 n)
  | hex (n zeros : Nat) (x : Char) (digits : Str) (marked : x = 'x' ∨ x = 'X')
      (same : digits.map Char.toLower = Nat.toDigits 16 n) :
      Spells n ('0' :: x :: List.replicate zeros '0' ++ digits)

def placed : Nat → List Nat → Nat
  | _, [] => 0
  | _, [last] => last
  | power, first :: rest => first * 256 ^ power + placed (power - 1) rest

/-- One to four numbers with their texts that spell an address, the last one filling the rest, in a
host after compatibility folding, with dots of any kind and more of them at the end. -/
structure SpelledBy (unicode : Unicode) (host : Str) (ip : IPv4) (parts : List (Nat × Str)) : Prop where
  some_ : parts ≠ []
  few : parts.length ≤ 4
  spelled : ∀ part ∈ parts, Spells part.1 part.2
  bytes : ∀ n ∈ (parts.map (·.1)).dropLast, n ≤ 255
  rest : (parts.map (·.1)).getLast?.getD 0 < 256 ^ (5 - parts.length)
  value : placed 3 (parts.map (·.1)) = ip.value
  text : ∃ dots, (unicode.nfkc host).map dotVariant =
    Str.join '.' (parts.map (·.2)) ++ List.replicate dots '.'

def Spelled (unicode : Unicode) (host : Str) (ip : IPv4) : Prop :=
  ∃ parts, SpelledBy unicode host ip parts

variable {n : Nat} {text : Str}

theorem alphanum_of_lower {c : Char} (lower : c.toLower.isAlphanum = true) : c.isAlphanum = true := by
  by_cases upper : c.isUpper = true
  · simp [Char.isAlphanum, Char.isAlpha, upper]
  · rwa [Char.toLower_eq_of_not_isUpper upper] at lower

theorem alphanum_plain {c : Char} (is : c.isAlphanum = true) :
    c ≠ '.' ∧ c ≠ ':' ∧ c.toNat < 128 := by
  refine ⟨(by rintro rfl; cases is), (by rintro rfl; cases is), ?_⟩
  simp only [Char.isAlphanum, Char.isAlpha, Char.isUpper, Char.isLower, Char.isDigit,
    Bool.or_eq_true, Bool.and_eq_true, decide_eq_true_eq, UInt32.le_iff_toNat_le, ge_iff_le] at is
  have : c.toNat = c.val.toNat := rfl
  have : 'Z'.val.toNat = 90 := rfl
  have : 'z'.val.toNat = 122 := rfl
  have : '9'.val.toNat = 57 := rfl
  omega

theorem spells_alphanum (spells : Spells n text) : ∀ c ∈ text, c.isAlphanum = true := by
  intro c mem
  cases spells with
  | decimal => exact (Radix.toDigits_alphanum (by decide) (by decide) mem).1
  | octal zeros =>
    rcases List.mem_append.mp mem with front | digits
    · rcases List.mem_cons.mp front with rfl | zero
      · rfl
      · rw [List.eq_of_mem_replicate zero]
        rfl
    · exact (Radix.toDigits_alphanum (by decide) (by decide) digits).1
  | hex zeros x digits marked same =>
    rcases List.mem_append.mp mem with front | inDigits
    · rcases List.mem_cons.mp front with rfl | later
      · rfl
      · rcases List.mem_cons.mp later with rfl | zero
        · rcases marked with rfl | rfl <;> rfl
        · rw [List.eq_of_mem_replicate zero]
          rfl
    · have lowered : c.toLower ∈ Nat.toDigits 16 n := same ▸ List.mem_map_of_mem inDigits
      exact alphanum_of_lower (Radix.toDigits_alphanum (by decide) (by decide) lowered).1

theorem spells_ne_nil (spells : Spells n text) : text ≠ [] := by
  cases spells <;> simp

theorem numericLabel_digits (some_ : text ≠ []) (digits : ∀ c ∈ text, c.isDigit = true) :
    numericLabel text = true := by
  unfold numericLabel
  split
  · next is =>
    have := digits 'x' (by simp)
    cases this
  · next is =>
    have := digits 'X' (by simp)
    cases this
  · simpa [some_] using digits

theorem hexDigit_of_alphanum (is : ∀ c ∈ text, c ∈ Nat.toDigits 16 n ∨ c = '0') :
    text.all hexDigit = true := by
  rw [List.all_eq_true]
  intro c mem
  rcases is c mem with digit | rfl
  · obtain ⟨d, small, rfl⟩ := Radix.digit_of_toDigits (by decide) digit
    have : d < 16 := small
    interval_cases d <;> rfl
  · rfl

theorem labelNumber_octal (digits : ∀ c ∈ text, c.isDigit = true) :
    labelNumber ('0' :: text) = Radix.read 8 ('0' :: text) := by
  unfold labelNumber
  split
  · next is =>
    have := digits 'x' (by simp_all)
    cases this
  · next is =>
    have := digits 'X' (by simp_all)
    cases this
  · next is => simp_all
  · next other => exact absurd rfl (other text)

theorem labelNumber_decimal {c : Char} (nonzero : c ≠ '0') (short : (c :: text).length ≤ 4300) :
    labelNumber (c :: text) = Radix.read 10 (c :: text) := by
  unfold labelNumber
  split
  · next is => simp_all
  · next is => simp_all
  · next is => simp_all
  · rw [if_neg (by omega)]

theorem length_toDigits (small : n < 2 ^ 32) : (Nat.toDigits 10 n).length ≤ 4300 := by
  have short := (Nat.length_toDigits_le_iff (b := 10) (n := n) (k := 10) (by decide)
    (by decide)).mpr (by omega)
  omega

theorem map_toDigits {base : Nat} (many : 1 < base) (few : base ≤ 16) :
    (Nat.toDigits base n).map Char.toLower = Nat.toDigits base n := by
  rw [List.map_congr_left fun c mem => (Radix.toDigits_alphanum many few mem).2.1]
  exact List.map_id' _

theorem label_of_spells (spells : Spells n text) (small : n < 2 ^ 32) :
    numericLabel (text.map Char.toLower) = true ∧ labelNumber (text.map Char.toLower) = some n := by
  cases spells with
  | decimal =>
    rw [map_toDigits (by decide) (by decide)]
    have digits : ∀ c ∈ Nat.toDigits 10 n, c.isDigit = true := fun c mem =>
      (Radix.toDigits_alphanum (by decide) (by decide) mem).2.2 (by decide)
    refine ⟨numericLabel_digits (by simp) digits, ?_⟩
    rcases Nat.eq_zero_or_pos n with rfl | positive
    · rfl
    · obtain ⟨c, rest, is, nonzero⟩ := @Radix.toDigits_head 10 _ (by decide) (by decide)
        positive
      have short := length_toDigits small
      rw [is] at short ⊢
      rw [labelNumber_decimal nonzero short, ← is]
      exact Radix.read_padded (by decide) (by decide) 0
  | octal zeros =>
    rw [List.map_append, map_toDigits (by decide) (by decide), List.map_cons, List.map_replicate]
    have digits : ∀ c ∈ List.replicate zeros '0' ++ Nat.toDigits 8 n, c.isDigit = true := by
      intro c mem
      rcases List.mem_append.mp mem with zero | digit
      · rw [List.eq_of_mem_replicate zero]
        rfl
      · exact (Radix.toDigits_alphanum (by decide) (by decide) digit).2.2 (by decide)
    refine ⟨numericLabel_digits (by simp) fun c mem => ?_, ?_⟩
    · rcases List.mem_cons.mp mem with rfl | later
      · rfl
      · exact digits c later
    · exact (labelNumber_octal digits).trans (Radix.read_padded (by decide) (by decide) (zeros + 1))
  | hex zeros x digits marked is =>
    have lower : x.toLower = 'x' := by rcases marked with rfl | rfl <;> rfl
    rw [List.map_append, is, List.map_cons, List.map_cons, List.map_replicate, lower]
    have numeral : List.replicate zeros '0' ++ Nat.toDigits 16 n ≠ [] := by simp
    refine ⟨hexDigit_of_alphanum (n := n) fun c mem => ?_, ?_⟩
    · rcases List.mem_append.mp mem with zero | digit
      · exact .inr (List.eq_of_mem_replicate zero)
      · exact .inl digit
    · change Radix.read 16 (if List.replicate zeros '0' ++ Nat.toDigits 16 n = [] then ['0']
        else List.replicate zeros '0' ++ Nat.toDigits 16 n) = some n
      rw [if_neg numeral]
      exact Radix.read_padded (by decide) (by decide) zeros

theorem rstrip_dots (front : Str) {c : Char} (other : c ≠ '.') (dots : Nat) :
    Str.rstrip '.' (front ++ [c] ++ List.replicate dots '.') = front ++ [c] := by
  induction dots with
  | zero =>
    rw [List.replicate_zero, List.append_nil, Str.rstrip, List.rdropWhile_concat_neg]
    simpa using other
  | succ dots ih =>
    rw [List.replicate_succ', ← List.append_assoc, Str.rstrip, List.rdropWhile_concat_pos]
    · exact ih
    · rfl

variable {unicode : Unicode} {host : Str} {ip : IPv4} {parts : List (Nat × Str)}

def lowered (parts : List (Nat × Str)) : List Str := parts.map fun part => part.2.map Char.toLower

theorem part_plain (spelled : SpelledBy unicode host ip parts) : ∀ text ∈ parts.map (·.2),
    text ≠ [] ∧ ∀ c ∈ text, c.isAlphanum = true := by
  intro text mem
  obtain ⟨part, known, rfl⟩ := List.mem_map.mp mem
  have spells := spelled.spelled part known
  exact ⟨spells_ne_nil spells, spells_alphanum spells⟩

theorem canonical_spelled (spelled : SpelledBy unicode host ip parts) :
    canonicalHost unicode host = Str.join '.' (lowered parts) := by
  have plain := part_plain spelled
  obtain ⟨dots, is⟩ := spelled.text
  obtain ⟨front, c, ends, other⟩ := @Text.join_ends _ '.' _
    (by simpa using spelled.some_ : parts.map (·.2) ≠ []) fun text known =>
      ⟨(plain text known).1, fun dot => (alphanum_plain ((plain text known).2 _ dot)).1 rfl⟩
  have ascii : ∀ c ∈ Str.join '.' (parts.map (·.2)), c.toNat < 128 := by
    intro c mem
    rcases Text.mem_join mem with rfl | ⟨text, known, inner⟩
    · decide
    · exact (alphanum_plain ((plain text known).2 c inner)).2.2
  have stripped : Str.rstrip '.' (Str.join '.' (parts.map (·.2)) ++ List.replicate dots '.') =
      Str.join '.' (parts.map (·.2)) := by
    change Str.rstrip '.' (Text.join '.' _ ++ _) = Text.join '.' _
    rw [ends, rstrip_dots front other]
  rw [canonicalHost, is, stripped, unicode.lower_ascii _ ascii, Str.join, Text.map_join,
    List.map_map]
  rfl

theorem toLower_alphanum {c : Char} (is : c.isAlphanum = true) : c.toLower.isAlphanum = true := by
  have all : ∀ n : Fin 128, (Char.ofNat n).isAlphanum = true →
      (Char.ofNat n).toLower.isAlphanum = true := by
    decide
  have here := all ⟨c.toNat, (alphanum_plain is).2.2⟩
  rw [Char.ofNat_toNat] at here
  exact here is

theorem number_small (spelled : SpelledBy unicode host ip parts) :
    ∀ n ∈ parts.map (·.1), n < 2 ^ 32 := by
  intro n mem
  have some_ : parts.map (·.1) ≠ [] := by simpa using spelled.some_
  have bytes := spelled.bytes
  have rest := spelled.rest
  rw [List.getLast?_eq_getLast_of_ne_nil some_, Option.getD_some] at rest
  rw [← List.dropLast_append_getLast some_] at mem
  rcases List.mem_append.mp mem with leading | last
  · have := bytes n leading
    omega
  · rw [List.mem_singleton.mp last]
    refine rest.trans_le ?_
    have filled : 1 ≤ parts.length := List.length_pos_iff.mpr spelled.some_
    exact (Nat.pow_le_pow_right (by decide) (by omega : 5 - parts.length ≤ 4)).trans (by decide)

theorem labels_numeric (spelled : SpelledBy unicode host ip parts) :
    (lowered parts).all numericLabel = true ∧
      (lowered parts).mapM labelNumber = some (parts.map (·.1)) := by
  have small := number_small spelled
  have each := spelled.spelled
  clear spelled
  induction parts with
  | nil => exact ⟨rfl, rfl⟩
  | cons part rest ih =>
    obtain ⟨numeric, is⟩ := label_of_spells (each part List.mem_cons_self)
      (small _ (by simp))
    obtain ⟨numerics, numbers⟩ := ih (fun n mem => small n (by simp_all))
      fun part known => each part (List.mem_cons_of_mem _ known)
    refine ⟨by simpa [lowered, numeric] using numerics, ?_⟩
    rw [lowered, List.map_cons, List.mapM_cons, is]
    change (do let rest ← (lowered rest).mapM labelNumber; pure (part.1 :: rest)) = _
    rw [numbers]
    rfl

theorem join_byte {value low k : Nat} (small : low < 2 ^ k) :
    low ||| value <<< k = value * 2 ^ k + low := by
  rw [Nat.lor_comm, ← Nat.shiftLeft_add_eq_or_of_lt small, Nat.shiftLeft_eq]

theorem or_right_comm (a b c : Nat) : a ||| b ||| c = a ||| c ||| b := by
  rw [Nat.lor_assoc, Nat.lor_comm b, ← Nat.lor_assoc]

theorem joinNumbers_placed {numbers : List Nat} (some_ : numbers ≠ []) (few : numbers.length ≤ 4)
    (bytes : ∀ n ∈ numbers.dropLast, n ≤ 255)
    (rest : numbers.getLast?.getD 0 < 256 ^ (5 - numbers.length)) :
    joinNumbers numbers.dropLast (numbers.getLast?.getD 0) = placed 3 numbers := by
  rcases numbers with _ | ⟨a, _ | ⟨b, _ | ⟨c, _ | ⟨d, _ | ⟨e, more⟩⟩⟩⟩⟩
  · exact absurd rfl some_
  · rfl
  · have low : b < 2 ^ 24 := by simpa using rest
    exact join_byte low
  · have low : c < 2 ^ 16 := by simpa using rest
    have second : b ≤ 255 := bytes b (by simp)
    change c ||| a <<< 24 ||| b <<< 16 = a * 256 ^ 3 + (b * 256 ^ 2 + c)
    rw [or_right_comm, join_byte low, join_byte (by omega)]
    rfl
  · have low : d < 2 ^ 8 := by simpa using rest
    have third : c ≤ 255 := bytes c (by simp)
    have second : b ≤ 255 := bytes b (by simp)
    change d ||| a <<< 24 ||| b <<< 16 ||| c <<< 8 =
      a * 256 ^ 3 + (b * 256 ^ 2 + (c * 256 ^ 1 + d))
    rw [or_right_comm _ (b <<< 16), or_right_comm d, join_byte low,
      or_right_comm _ (a <<< 24), @join_byte b _ 16 (by omega), join_byte (by omega)]
    rfl
  · simp only [List.length_cons] at few
    omega

theorem labels_split (spelled : SpelledBy unicode host ip parts) :
    Str.split '.' (Str.join '.' (lowered parts)) = lowered parts := by
  refine List.splitOn_intercalate '.' (fun label mem => ?_) (by simpa [lowered] using spelled.some_)
  obtain ⟨part, known, rfl⟩ := List.mem_map.mp mem
  intro dot
  obtain ⟨c, inner, is⟩ := List.mem_map.mp dot
  have plain := (part_plain spelled part.2 (List.mem_map_of_mem known)).2 c inner
  exact (alphanum_plain (toLower_alphanum plain)).1 is

theorem literalIp_spelled (library : Library) (spelled : Spelled unicode host ip) :
    literalIp unicode library host = .ok (some (.v4 ip)) := by
  obtain ⟨parts, spelled⟩ := spelled
  have noColon : ':' ∉ Str.join '.' (lowered parts) := by
    intro colon
    rcases Text.mem_join colon with dot | ⟨label, known, inner⟩
    · cases dot
    · obtain ⟨part, isPart, rfl⟩ := List.mem_map.mp known
      obtain ⟨c, inText, is⟩ := List.mem_map.mp inner
      have plain := (part_plain spelled part.2 (List.mem_map_of_mem isPart)).2 c inText
      exact (alphanum_plain (toLower_alphanum plain)).2.1 is
  obtain ⟨numeric, numbers⟩ := labels_numeric spelled
  have few : ¬(4 < (lowered parts).length ∨ ¬(lowered parts).all numericLabel = true) := by
    rw [lowered, List.length_map, ← lowered]
    rintro (many | odd)
    · have := spelled.few
      omega
    · exact odd numeric
  have inRange : ¬((parts.map (·.1)).dropLast.any (255 < ·) = true ∨
      256 ^ (5 - (parts.map (·.1)).length) ≤ (parts.map (·.1)).getLast?.getD 0) := by
    rw [List.length_map]
    rintro (big | past)
    · obtain ⟨n, leading, past⟩ := List.any_eq_true.mp big
      have small := spelled.bytes n leading
      have larger := of_decide_eq_true past
      omega
    · have := spelled.rest
      omega
  have value : joinNumbers (parts.map (·.1)).dropLast ((parts.map (·.1)).getLast?.getD 0) =
      ip.value := by
    rw [joinNumbers_placed (by simpa using spelled.some_) (by simpa using spelled.few)
      spelled.bytes (by simpa using spelled.rest)]
    exact spelled.value
  simp only [literalIp, canonical_spelled spelled, if_neg noColon, parseInetAton,
    labels_split spelled, if_neg few, numbers, if_neg inRange, value, ip.bound, dif_pos]
  rfl

end Spelling

section Guard

variable {unicode : Unicode} {library : Library} {host : Str} {ip bad : Address}

def NumericOrColon (unicode : Unicode) (host : Str) : Prop :=
  ':' ∈ canonicalHost unicode host ∨
    (Str.split '.' (canonicalHost unicode host)).all numericLabel = true

theorem parseInetAton_none (text : Str) : parseInetAton text = .ok none ↔
    ¬(Str.split '.' text).all numericLabel = true := by
  unfold parseInetAton
  by_cases numeric : (Str.split '.' text).all numericLabel = true
  · simp only [numeric, not_true_eq_false, or_false, iff_false]
    split
    · simp
    · split
      · simp
      · split
        · simp
        · split <;> simp
  · simp [numeric]

theorem literalIp_none :
    literalIp unicode library host = .ok none ↔ ¬NumericOrColon unicode host := by
  unfold literalIp NumericOrColon
  by_cases colon : ':' ∈ canonicalHost unicode host
  · simp only [colon, if_true, true_or, not_true_eq_false, iff_false]
    cases library.ipAddress _ <;> simp
  · simp only [colon, if_false, false_or]
    rw [← parseInetAton_none]
    cases parseInetAton (canonicalHost unicode host) with
    | error => simp [Except.map]
    | ok found => cases found <;> simp [Except.map]

inductive HostDenotes (unicode : Unicode) (library : Library) (host : Str) : Address → Prop
  | spelled (ip : IPv4) (is : Spelled unicode host ip) : HostDenotes unicode library host (.v4 ip)
  | literal (ip : Address) (colon : ':' ∈ canonicalHost unicode host)
      (is : library.ipAddress (Text.partition '%' (canonicalHost unicode host)).1 = some ip) :
      HostDenotes unicode library host ip

/-- An address and the IPv4 address it is mapped from, or reaches by 6to4 or NAT64. -/
inductive Carries : Address → Address → Prop
  | itself (ip : Address) : Carries ip ip
  | mapped (ip : IPv6) (inner : IPv4) (is : ip.value = 0xFFFF * 2 ^ 32 + inner.value) :
      Carries (.v6 ip) (.v4 inner)
  | sixToFour (ip : IPv6) (inner : IPv4) (low : Nat) (small : low < 2 ^ 80)
      (is : ip.value = 0x2002 * 2 ^ 112 + inner.value * 2 ^ 80 + low) : Carries (.v6 ip) (.v4 inner)
  | nat64 (ip : IPv6) (inner : IPv4) (is : ip.value = nat64Prefix * 2 ^ 32 + inner.value) :
      Carries (.v6 ip) (.v4 inner)

theorem literalIp_denoted (denotes : HostDenotes unicode library host ip) :
    literalIp unicode library host = .ok (some ip) := by
  cases denotes with
  | spelled ip is => exact literalIp_spelled library is
  | literal ip colon is => simp only [literalIp, colon, if_true, is]

theorem blocked_carried (carries : Carries ip bad) (blocked : inBlockedRange library bad = true) :
    isBlockedAddress library ip = true := by
  cases carries with
  | itself => cases ip <;> simp [isBlockedAddress, blocked]
  | mapped ip inner is =>
    have small := inner.bound
    have found : embedded ip = some inner := by
      rw [embedded, if_pos (by omega)]
      congr 1
      rcases inner with ⟨value, bound⟩
      simp only [IPv4.mk.injEq]
      simp only at is small
      omega
    simp [isBlockedAddress, found, blocked]
  | sixToFour ip inner low small is =>
    have bound := inner.bound
    have found : embedded ip = some inner := by
      rw [embedded, if_neg (by omega), if_pos (by omega)]
      congr 1
      rcases inner with ⟨value, bound⟩
      simp only [IPv4.mk.injEq]
      simp only at is bound
      omega
    simp [isBlockedAddress, found, blocked]
  | nat64 ip inner is =>
    have bound := inner.bound
    have prefixed : ip.value / 2 ^ 32 = nat64Prefix := by omega
    rw [isBlockedAddress, decide_eq_true prefixed, Bool.or_true, Bool.true_or]

/-- The guard reads an address in every spelling as itself, takes only names for names, and refuses
each URL whose host denotes, or carries, an address of a blocked range. -/
theorem guard_reads (unicode : Unicode) (library : Library) :
    (∀ host ip, Spelled unicode host ip →
      literalIp unicode library host = .ok (some (.v4 ip))) ∧
    (∀ host, literalIp unicode library host = .ok none ↔ ¬NumericOrColon unicode host) ∧
    ∀ url scheme host ip bad, library.urlsplit url = some (scheme, some host) →
      HostDenotes unicode library host ip → Carries ip bad → inBlockedRange library bad = true →
      isSafeWebhookDestination unicode library (some url) = false := by
  refine ⟨fun host ip => literalIp_spelled library, fun host => literalIp_none, ?_⟩
  intro url scheme host ip bad splits denotes carries blocked
  have refused : isBlockedLiteralIp unicode library host = true := by
    rw [isBlockedLiteralIp, literalIp_denoted denotes]
    exact blocked_carried carries blocked
  unfold isSafeWebhookDestination
  split
  · rfl
  · next given is =>
    obtain ⟨-, rfl⟩ : url ≠ [] ∧ url = given := by simpa [Option.filter_some] using is
    simp only [splits]
    split
    · rfl
    · next name isName =>
      obtain ⟨-, rfl⟩ : host ≠ [] ∧ host = name := by simpa [Option.filter_some] using isName
      simp [refused]

section Sample

def asciiOnly : Unicode where
  nfkc := id
  lower := List.map Char.toLower
  lower_ascii := fun _ _ => rfl

/-- The library for one URL, with the loopback range `127.0.0.0/8`. -/
def oneUrl : Library where
  ipAddress := fun _ => none
  isLoopback
    | .v4 ip => ip.value / 2 ^ 24 = 127
    | .v6 ip => ip.value = 1
  isLinkLocal := fun _ => false
  isMulticast := fun _ => false
  isUnspecified := fun _ => false
  isReserved := fun _ => false
  urlsplit := fun url =>
    if url = "http://0177.0X1./".toList then some ("http".toList, some "0177.0X1.".toList) else none

theorem loopback_spelled : Spelled asciiOnly "0177.0X1.".toList ⟨0x7F000001, by decide⟩ := by
  refine ⟨[(127, "0177".toList), (1, "0X1".toList)], ?_⟩
  have octal : Spells 127 "0177".toList := Spells.octal 127 0
  have hex : Spells 1 "0X1".toList := Spells.hex 1 0 'X' ['1'] (.inr rfl) rfl
  refine ⟨by simp, by decide, ?_, by decide, by decide, rfl, 1, rfl⟩
  intro part mem
  simp only [List.mem_cons, List.not_mem_nil, or_false] at mem
  rcases mem with rfl | rfl
  · exact octal
  · exact hex

/-- Loopback in octal and hexadecimal is not called. -/
theorem loopback_refused :
    literalIp asciiOnly oneUrl "0177.0X1.".toList = .ok (some (.v4 ⟨0x7F000001, by decide⟩)) ∧
      isSafeWebhookDestination asciiOnly oneUrl (some "http://0177.0X1./".toList) = false := by
  obtain ⟨reads, -, refuses⟩ := guard_reads asciiOnly oneUrl
  exact ⟨reads _ _ loopback_spelled,
    refuses _ _ _ _ _ rfl (.spelled _ loopback_spelled) (.itself _) (by decide)⟩

end Sample

end Guard

end Smo.Webhook
