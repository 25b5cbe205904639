import Mathlib.Data.List.Dedup
import Smo.Lib.Json.Dump
import Smo.Shared.Errors
import Smo.Shared.Scope

/-! Scope claims on their way between services (`smo_shared/scope.py`): read from a claim,
carried in a header, narrowed and compared. -/
namespace Smo.Scope

open Json (Text Value)

def maxValues : Nat := 100

/-- How many values inside each other `json.loads` reads before it raises `RecursionError`:
enough for a claim. -/
structure Nesting where
  limit : Nat
  claims : 2 ≤ limit

def denyAll : Scope := { regions := some [] }

section Claims

def codes (value : String) : Text := value.toList.map Char.toNat

def word (text : Text) : String := String.ofList (text.map Char.ofNat)

def regionsKey : Text := codes "regions"

def tenantsKey : Text := codes "tenants"

def isAlphanumeric (point : Nat) : Bool :=
  (0x30 ≤ point && point ≤ 0x39) || (0x41 ≤ point && point ≤ 0x5A) ||
    (0x61 ≤ point && point ≤ 0x7A)

/-- `VALUE_PATTERN`: 1 to 100 letters, digits and `. _ : / @ + -`, the first a letter or digit. -/
def validText : Text → Bool
  | [] => false
  | first :: rest =>
    isAlphanumeric first && rest.length ≤ 99 &&
      rest.all fun point => isAlphanumeric point || "._:/@+-".toList.any (·.toNat == point)

def validValue : Value → Bool
  | .str text => validText text
  | _ => false

def strings : List Value → List Text
  | [] => []
  | .str text :: values => text :: strings values
  | _ :: values => strings values

def axisOf (axis : String) (claimed : Option Value) : Except String (Option (List String)) :=
  match claimed with
  | none | some .null => .ok none
  | some (.arr values) =>
    if values.isEmpty || maxValues < values.length then
      .error s!"{axis} must be a list of 1 to {maxValues} values"
    else if !values.all validValue then
      .error (s!"every value of {axis} must be 1 to 100 characters of letters, digits and " ++
        ". _ : / @ + -, starting with a letter or digit")
    else if (strings values).dedup.length ≠ values.length then
      .error s!"{axis} lists a value twice"
    else .ok (some ((strings values).map word))
  | some _ => .error s!"{axis} must be a list of 1 to {maxValues} values"

def fromClaim : Value → Except String (Option Scope)
  | .null => .ok none
  | .obj entries =>
    if entries.any fun entry => entry.1 ≠ regionsKey && entry.1 ≠ tenantsKey then
      .error "the scope claim may only name regions and tenants"
    else do
      let regions ← axisOf "regions" (entries.lookup regionsKey)
      let tenants ← axisOf "tenants" (entries.lookup tenantsKey)
      return if regions.isNone && tenants.isNone then none else some ⟨regions, tenants⟩
  | _ => .error "the scope claim must be an object with regions and/or tenants"

def axisClaim (key : Text) (axis : Option (List String)) : List (Text × Value) :=
  match axis with
  | none => []
  | some values => [(key, .arr ((sorted values).map fun value => .str (codes value)))]

def toClaim (scope : Option Scope) : Option (List (Text × Value)) :=
  match scope with
  | none => none
  | some scope =>
    match axisClaim regionsKey scope.regions ++ axisClaim tenantsKey scope.tenants with
    | [] => none
    | claim => some claim

def encode (scope : Option Scope) : Option (List Char) :=
  (toClaim scope).map fun claim => Json.dumps true true (.obj claim)

def decode (nesting : Nesting) (value : Option (List Char)) : Option Scope :=
  match value with
  | none | some [] => none
  | some text =>
    match Json.loads nesting.limit text with
    | .error _ => some denyAll
    | .ok claim =>
      match fromClaim claim with
      | .error _ => some denyAll
      | .ok scope => scope

/-- One axis of `narrowed`. -/
def both (first second : Option (List String)) : Option (List String) :=
  match first, second with
  | none, second => second
  | first, none => first
  | some first, some second => some (first.filter second.contains)

def narrowed (first second : Option Scope) : Option Scope :=
  match first, second with
  | none, second => second
  | first, none => first
  | some first, some second =>
    some ⟨both first.regions second.regions, both first.tenants second.tenants⟩

/-- One axis of `covers`. -/
def axisCovers (allowed wanted : Option (List String)) : Bool :=
  match allowed, wanted with
  | none, _ => true
  | some _, none => false
  | some allowed, some wanted => wanted.all allowed.contains

def covers (parent child : Option Scope) : Bool :=
  match parent with
  | none => true
  | some parent =>
    axisCovers parent.regions (child.bind (·.regions)) &&
      axisCovers parent.tenants (child.bind (·.tenants))

end Claims

section Composition

theorem axisPermits_both (first second : Option (List String)) (value : Option String) :
    axisPermits (both first second) value = (axisPermits first value && axisPermits second value) := by
  cases first <;> cases second <;> cases value <;>
    simp [both, axisPermits, Bool.decide_and]

theorem permits_narrowed (a b : Option Scope) (region tenant : Option String) :
    permits (narrowed a b) region tenant = (permits a region tenant && permits b region tenant) := by
  cases a with
  | none => simp [narrowed, permits]
  | some a =>
    cases b with
    | none => simp [narrowed, permits]
    | some b =>
      simp only [narrowed, permits_some, axisPermits_both]
      ac_rfl

theorem axisPermits_covered {allowed wanted : Option (List String)} {value : Option String}
    (covered : axisCovers allowed wanted = true) (permitted : axisPermits wanted value = true) :
    axisPermits allowed value = true := by
  cases allowed with
  | none => rfl
  | some allowed =>
    cases wanted with
    | none => cases covered
    | some wanted =>
      cases value with
      | none => cases permitted
      | some value =>
        simp only [axisCovers, List.all_eq_true, axisPermits, List.contains_iff_mem] at *
        exact covered value permitted

theorem permits_covered {parent child : Option Scope} {region tenant : Option String}
    (covered : covers parent child = true) (permitted : permits child region tenant = true) :
    permits parent region tenant = true := by
  cases parent with
  | none => rfl
  | some parent =>
    rw [covers, Bool.and_eq_true] at covered
    have axes : axisPermits (child.bind (·.regions)) region = true ∧
        axisPermits (child.bind (·.tenants)) tenant = true := by
      cases child with
      | none => exact ⟨rfl, rfl⟩
      | some child => simpa [permits_some] using permitted
    rw [permits_some, axisPermits_covered covered.1 axes.1, axisPermits_covered covered.2 axes.2]
    rfl

end Composition

section Words

@[simp] theorem word_codes (value : String) : word (codes value) = value := by
  have same : ∀ c : Char, (Char.ofNat ∘ Char.toNat) c = c := Char.ofNat_toNat
  rw [word, codes, List.map_map, List.map_congr_left fun c _ => same c, List.map_id',
    String.ofList_toList]

theorem codes_injective : Function.Injective codes :=
  Function.LeftInverse.injective word_codes

theorem isAlphanumeric_lt {point : Nat} (h : isAlphanumeric point = true) : point < 0x80 := by
  simp only [isAlphanumeric, Bool.or_eq_true, Bool.and_eq_true, decide_eq_true_eq] at h
  omega

theorem validText_lt {text : Text} (valid : validText text = true) :
    ∀ point ∈ text, point < 0x80 := by
  cases text with
  | nil => cases valid
  | cons first rest =>
    simp only [validText, Bool.and_eq_true, List.all_eq_true, Bool.or_eq_true] at valid
    obtain ⟨⟨start, -⟩, others⟩ := valid
    intro point member
    rcases List.mem_cons.1 member with rfl | member
    · exact isAlphanumeric_lt start
    · rcases others point member with letter | mark
      · exact isAlphanumeric_lt letter
      · have marks : ("._:/@+-".toList.all fun c => decide (c.toNat < 0x80)) = true := by decide
        obtain ⟨c, inside, same⟩ := List.any_eq_true.1 mark
        rw [beq_iff_eq] at same
        exact same ▸ of_decide_eq_true (List.all_eq_true.1 marks c inside)

theorem codes_word {text : Text} (valid : validText text = true) : codes (word text) = text := by
  have same : ∀ point ∈ text, (Char.toNat ∘ Char.ofNat) point = point := by
    intro point member
    have ascii := validText_lt valid point member
    exact Json.toNat_ofNat (Or.inl (by omega))
  rw [codes, word, String.toList_ofList, List.map_map, List.map_congr_left same, List.map_id']

theorem strings_str (texts : List Text) : strings (texts.map Value.str) = texts := by
  induction texts with
  | nil => rfl
  | cons text texts ih => rw [List.map_cons, strings, ih]

theorem strings_valid {values : List Value} (valid : values.all validValue = true) :
    values = (strings values).map Value.str ∧ ∀ text ∈ strings values, validText text = true := by
  induction values with
  | nil => exact ⟨rfl, by simp [strings]⟩
  | cons value values ih =>
    rw [List.all_cons, Bool.and_eq_true] at valid
    obtain ⟨same, texts⟩ := ih valid.2
    cases value with
    | str text =>
      refine ⟨by rw [strings, List.map_cons, ← same], ?_⟩
      rintro other (_ | ⟨_, member⟩)
      · exact valid.1
      · exact texts other member
    | _ => exact absurd valid.1 (by simp [validValue])

end Words

section Sound

structure SoundAxis (values : List String) : Prop where
  distinct : values.Nodup
  few : values.length ≤ maxValues
  valid : ∀ value ∈ values, validText (codes value) = true

def Sound (scope : Option Scope) : Prop :=
  ∀ claim ∈ scope, (∀ values ∈ claim.regions, SoundAxis values) ∧
    ∀ values ∈ claim.tenants, SoundAxis values

def ValidAxis (claimed : Option Value) : Prop :=
  claimed = none ∨ claimed = some .null ∨
    ∃ texts : List Text, claimed = some (.arr (texts.map .str)) ∧ 1 ≤ texts.length ∧
      texts.length ≤ 100 ∧ texts.Nodup ∧ ∀ text ∈ texts, validText text = true

theorem axisOf_read {axis : String} {claimed : Option Value} {read : Option (List String)}
    (h : axisOf axis claimed = .ok read) :
    ValidAxis claimed ∧ ∀ values ∈ read, SoundAxis values := by
  rw [axisOf.eq_def] at h
  split at h
  · cases h
    exact ⟨Or.inl rfl, by simp⟩
  · cases h
    exact ⟨Or.inr (Or.inl rfl), by simp⟩
  next values =>
    split at h
    · cases h
    next size =>
      split at h
      · cases h
      next valid =>
        split at h
        · cases h
        next once =>
          cases h
          simp only [Bool.or_eq_true, decide_eq_true_eq, not_or, Nat.not_lt,
            List.isEmpty_iff] at size
          simp only [Bool.not_eq_true', Bool.not_eq_false] at valid
          obtain ⟨same, texts⟩ := strings_valid valid
          have length : (strings values).length = values.length := by
            conv_rhs => rw [same, List.length_map]
          have distinct : (strings values).Nodup := by
            rw [ne_eq, not_not, ← length] at once
            exact (List.dedup_sublist _).eq_of_length once ▸ List.nodup_dedup _
          refine ⟨Or.inr (Or.inr ⟨strings values, by rw [← same], ?_, ?_, distinct, texts⟩), ?_⟩
          · rw [length]
            exact List.length_pos_iff.2 size.1
          · rw [length]
            exact size.2
          · rintro _ ⟨⟩
            refine ⟨?_, ?_, ?_⟩
            · refine List.Nodup.map_on ?_ distinct
              intro a ha b hb equal
              rw [← codes_word (texts a ha), equal, codes_word (texts b hb)]
            · rw [List.length_map, length]
              exact size.2
            · intro value member
              obtain ⟨text, inside, rfl⟩ := List.mem_map.1 member
              rw [codes_word (texts text inside)]
              exact texts text inside
  · cases h

theorem fromClaim_sound {claim : Value} {scope : Option Scope} (h : fromClaim claim = .ok scope) :
    Sound scope := by
  rw [fromClaim.eq_def] at h
  split at h
  · cases h
    rintro _ ⟨⟩
  · split at h
    · cases h
    · obtain ⟨regions, hregions, h⟩ := bind_ok h
      obtain ⟨tenants, htenants, h⟩ := bind_ok h
      cases h
      rintro read member
      split at member
      · cases member
      · cases member
        exact ⟨(axisOf_read hregions).2, (axisOf_read htenants).2⟩
  · cases h

theorem denyAll_sound : Sound (some denyAll) := by
  rintro _ ⟨⟩
  refine ⟨?_, ?_⟩
  · rintro _ ⟨⟩
    exact ⟨List.nodup_nil, Nat.zero_le _, by simp⟩
  · rintro _ ⟨⟩

theorem decode_sound (nesting : Nesting) (value : Option (List Char)) :
    Sound (decode nesting value) := by
  rw [decode.eq_def]
  split
  · rintro _ ⟨⟩
  · rintro _ ⟨⟩
  · split
    · exact denyAll_sound
    · split
      · exact denyAll_sound
      next read => exact fromClaim_sound read

theorem both_sound {first second : Option (List String)}
    (hfirst : ∀ values ∈ first, SoundAxis values) (hsecond : ∀ values ∈ second, SoundAxis values) :
    ∀ values ∈ both first second, SoundAxis values := by
  cases first with
  | none => exact hsecond
  | some first =>
    cases second with
    | none => exact hfirst
    | some second =>
      rintro _ ⟨⟩
      have sound := hfirst first rfl
      have fewer : (first.filter second.contains).length ≤ first.length := List.length_filter_le ..
      refine ⟨sound.distinct.filter _, Nat.le_trans fewer sound.few, ?_⟩
      intro value member
      exact sound.valid value (List.mem_filter.1 member).1

theorem narrowed_sound {a b : Option Scope} (ha : Sound a) (hb : Sound b) :
    Sound (narrowed a b) := by
  cases a with
  | none => exact hb
  | some a =>
    cases b with
    | none => exact ha
    | some b =>
      rintro _ ⟨⟩
      exact ⟨both_sound (ha a rfl).1 (hb b rfl).1, both_sound (ha a rfl).2 (hb b rfl).2⟩

inductive Reachable (nesting : Nesting) : Option Scope → Prop
  | claimed {claim : Value} {scope : Option Scope} (read : fromClaim claim = .ok scope) :
      Reachable nesting scope
  | decoded (value : Option (List Char)) : Reachable nesting (decode nesting value)
  | narrowed {a b : Option Scope} (first : Reachable nesting a) (second : Reachable nesting b) :
      Reachable nesting (narrowed a b)

theorem Reachable.sound {nesting : Nesting} {scope : Option Scope} (h : Reachable nesting scope) :
    Sound scope := by
  induction h with
  | claimed read => exact fromClaim_sound read
  | decoded value => exact decode_sound nesting value
  | narrowed _ _ first second => exact narrowed_sound first second

end Sound

section Transport

variable {nesting : Nesting}

theorem claim_names (scope : Scope) :
    ((axisClaim regionsKey scope.regions ++ axisClaim tenantsKey scope.tenants).map (·.1)).Sublist
      [regionsKey, tenantsKey] := by
  cases scope.regions <;> cases scope.tenants <;> simp [axisClaim]

theorem loads_claim {scope : Scope} (sound : Sound (some scope)) :
    Json.loads nesting.limit (Json.dumps true true (.obj
        (axisClaim regionsKey scope.regions ++ axisClaim tenantsKey scope.tenants))) =
      .ok (.obj (axisClaim regionsKey scope.regions ++ axisClaim tenantsKey scope.tenants)) := by
  obtain ⟨depth, limit⟩ : ∃ depth, nesting.limit = depth + 2 :=
    ⟨nesting.limit - 2, by have := nesting.claims; omega⟩
  have single : ∀ point, point < 0x80 → Json.Single true point := fun point small =>
    ⟨Or.inl (by omega), fun _ => by omega⟩
  have keys : ∀ key ∈ [regionsKey, tenantsKey], ∀ point ∈ key, point < 0x80 := by decide
  have axis : ∀ key values, key ∈ [regionsKey, tenantsKey] → (∀ listed ∈ values, SoundAxis listed) →
      ∀ entry ∈ axisClaim key values, (∀ point ∈ entry.1, Json.Single true point) ∧
        Json.Plain true true (depth + 1) entry.2 := by
    intro key values known listed entry member
    cases values with
    | none => exact absurd member List.not_mem_nil
    | some values =>
      obtain rfl := List.mem_singleton.1 member
      refine ⟨fun point there => single point (keys key known point there), ?_⟩
      intro item inside
      obtain ⟨value, there, rfl⟩ := List.mem_map.1 inside
      have ascii := validText_lt ((listed values rfl).valid value (mem_sorted.1 there))
      exact Json.plain_str fun point written => single point (ascii point written)
  have named := claim_names scope
  rw [limit]
  refine Json.loads_dumps ⟨?_, fun _ => ?_, fun entry member => ?_⟩
  · exact named.nodup (by decide)
  · exact List.Pairwise.sublist named (by decide)
  · rcases List.mem_append.1 member with region | tenant
    · exact axis _ _ (by simp) (sound scope rfl).1 entry region
    · exact axis _ _ (by simp) (sound scope rfl).2 entry tenant

theorem validValue_str (text : Text) : validValue (.str text) = validText text := rfl

theorem axisOf_empty (axis : String) : ∃ problem, axisOf axis (some (.arr [])) = .error problem :=
  ⟨_, rfl⟩

theorem axisOf_claim {axis : String} {values : List String} (sound : SoundAxis values)
    (some_values : values ≠ []) :
    axisOf axis (some (.arr ((sorted values).map fun value => .str (codes value)))) =
      .ok (some (sorted values)) := by
  have length : ((sorted values).map fun value => Value.str (codes value)).length =
      values.length := by
    rw [List.length_map, sorted, List.length_insertionSort]
  have nonempty : ((sorted values).map fun value => Value.str (codes value)) ≠ [] := by
    intro none
    rw [none] at length
    exact some_values (List.length_eq_zero_iff.1 length.symm)
  have texts : strings ((sorted values).map fun value => Value.str (codes value)) =
      (sorted values).map codes := by
    have same := strings_str ((sorted values).map codes)
    rwa [List.map_map] at same
  have distinct : ((sorted values).map codes).Nodup := by
    refine List.Nodup.map codes_injective ?_
    exact (List.perm_insertionSort _ values).nodup_iff.2 sound.distinct
  rw [axisOf]
  rw [if_neg, if_neg, if_neg]
  · rw [texts, List.map_map]
    simp only [Function.comp_def, word_codes, List.map_id']
  · rw [texts, List.dedup_eq_self.2 distinct, List.length_map, List.length_map]
    simp
  · simp only [Bool.not_eq_true', Bool.not_eq_false, List.all_eq_true, List.forall_mem_map,
      validValue_str]
    exact fun value member => sound.valid value (mem_sorted.1 member)
  · simp only [Bool.or_eq_true, List.isEmpty_iff, decide_eq_true_eq, length, not_or, Nat.not_lt]
    exact ⟨nonempty, sound.few⟩

theorem axisPermits_sorted (values : List String) (value : Option String) :
    axisPermits (some (sorted values)) value = axisPermits (some values) value := by
  cases value with
  | none => rfl
  | some value => simp [axisPermits, mem_sorted]

theorem axisOf_axisClaim {axis : String} {key : Text} {values : Option (List String)}
    (sound : ∀ listed ∈ values, SoundAxis listed) :
    (∃ read, axisOf axis ((axisClaim key values).lookup key) = .ok read ∧
        (read = none ↔ values = none) ∧
        ∀ value, axisPermits read value = axisPermits values value) ∨
      (∃ problem, axisOf axis ((axisClaim key values).lookup key) = .error problem) ∧
        ∀ value, axisPermits values value = false := by
  cases values with
  | none => exact Or.inl ⟨none, rfl, by simp, fun _ => rfl⟩
  | some values =>
    have entry : (axisClaim key (some values)).lookup key =
        some (.arr ((sorted values).map fun value => .str (codes value))) := by
      simp [axisClaim]
    rw [entry]
    cases values with
    | nil => exact Or.inr ⟨axisOf_empty axis, fun value => by cases value <;> rfl⟩
    | cons first rest =>
      refine Or.inl ⟨_, axisOf_claim (sound _ rfl) (List.cons_ne_nil first rest), by simp, ?_⟩
      exact axisPermits_sorted (first :: rest)

theorem lookup_claim (scope : Scope) :
    let claim := axisClaim regionsKey scope.regions ++ axisClaim tenantsKey scope.tenants
    claim.lookup regionsKey = (axisClaim regionsKey scope.regions).lookup regionsKey ∧
      claim.lookup tenantsKey = (axisClaim tenantsKey scope.tenants).lookup tenantsKey := by
  have different : (tenantsKey == regionsKey) = false := by decide
  have different' : (regionsKey == tenantsKey) = false := by decide
  cases scope.regions <;> cases scope.tenants <;>
    simp [axisClaim, List.lookup_cons, different, different']

theorem known_names (scope : Scope) :
    (axisClaim regionsKey scope.regions ++ axisClaim tenantsKey scope.tenants).any
      (fun entry => entry.1 ≠ regionsKey && entry.1 ≠ tenantsKey) = false := by
  cases scope.regions <;> cases scope.tenants <;> simp [axisClaim]

theorem loads_nil (depth : Nat) : Json.loads depth [] = .error .malformed := by
  cases depth <;> rfl

theorem decode_loaded {text : List Char} {claim : Value}
    (loaded : Json.loads nesting.limit text = .ok claim) :
    decode nesting (some text) = (fromClaim claim).toOption.getD (some denyAll) := by
  rw [decode.eq_def]
  split
  next absent => cases absent
  next empty =>
    cases empty
    rw [loads_nil] at loaded
    cases loaded
  next text' _ same =>
    cases same
    rw [loaded]
    dsimp only
    cases fromClaim claim <;> rfl

theorem permits_denyAll (region tenant : Option String) :
    permits (some denyAll) region tenant = false := by
  cases region <;> rfl

theorem permits_decode_encode {scope : Option Scope} (sound : Sound scope)
    (region tenant : Option String) :
    permits (decode nesting (encode scope)) region tenant = permits scope region tenant := by
  cases scope with
  | none => rfl
  | some scope =>
    have loaded : Json.loads nesting.limit _ = _ := loads_claim sound
    cases written : axisClaim regionsKey scope.regions ++ axisClaim tenantsKey scope.tenants with
    | nil =>
      obtain ⟨regions, tenants⟩ := scope
      cases regions <;> cases tenants <;> simp [axisClaim] at written
      rfl
    | cons entry claim =>
      have header : encode (some scope) = some (Json.dumps true true (.obj (entry :: claim))) := by
        simp only [encode, toClaim, written, Option.map_some]
      rw [written] at loaded
      rw [header, decode_loaded loaded, fromClaim, if_neg, ← written, (lookup_claim scope).1,
        (lookup_claim scope).2, permits_some]
      · obtain ⟨regions, hregions, unset, sameRegions⟩ | ⟨⟨problem, hregions⟩, refused⟩ :=
          @axisOf_axisClaim "regions" regionsKey _ (sound scope rfl).1
        · obtain ⟨tenants, htenants, unset', sameTenants⟩ | ⟨⟨problem, htenants⟩, refused⟩ :=
            @axisOf_axisClaim "tenants" tenantsKey _ (sound scope rfl).2
          · rw [hregions, htenants]
            have restricts : (regions.isNone && tenants.isNone) = false := by
              rw [Bool.and_eq_false_iff]
              by_contra free
              simp only [not_or, Bool.not_eq_false, Option.isNone_iff_eq_none] at free
              have noRegions := unset.1 free.1
              have noTenants := unset'.1 free.2
              simp [axisClaim, noRegions, noTenants] at written
            simp [bind, Except.bind, pure, Except.pure, Except.toOption, restricts, permits_some,
              sameRegions, sameTenants]
          · rw [hregions, htenants]
            simp [bind, Except.bind, Except.toOption, permits_denyAll, refused]
        · rw [hregions]
          simp [bind, Except.bind, Except.toOption, permits_denyAll, refused]
      · rw [← written, known_names]
        decide

end Transport

section Validity

def ValidClaim (claim : Value) : Prop :=
  claim = .null ∨ ∃ entries, claim = .obj entries ∧
    (∀ entry ∈ entries, entry.1 = regionsKey ∨ entry.1 = tenantsKey) ∧
    ValidAxis (entries.lookup regionsKey) ∧ ValidAxis (entries.lookup tenantsKey)

def ValidHeader (nesting : Nesting) (header : List Char) : Prop :=
  ∃ claim, Json.loads nesting.limit header = .ok claim ∧ ValidClaim claim

theorem fromClaim_valid {claim : Value} {scope : Option Scope} (h : fromClaim claim = .ok scope) :
    ValidClaim claim := by
  rw [fromClaim.eq_def] at h
  split at h
  · exact Or.inl rfl
  next entries =>
    split at h
    · cases h
    next known =>
      obtain ⟨regions, hregions, h⟩ := bind_ok h
      obtain ⟨tenants, htenants, h⟩ := bind_ok h
      refine Or.inr ⟨entries, rfl, ?_, (axisOf_read hregions).1, (axisOf_read htenants).1⟩
      intro entry member
      by_contra other
      rw [not_or] at other
      exact known (List.any_eq_true.2 ⟨entry, member, by simp [other]⟩)
  · cases h

theorem permits_invalid {nesting : Nesting} {header : List Char} (nonempty : header ≠ [])
    (invalid : ¬ ValidHeader nesting header) (region tenant : Option String) :
    permits (decode nesting (some header)) region tenant = false := by
  rw [decode.eq_def]
  split
  next absent => cases absent
  next empty =>
    cases empty
    exact absurd rfl nonempty
  next text _ same =>
    cases same
    split
    · exact permits_denyAll region tenant
    next claim loaded =>
      split
      · exact permits_denyAll region tenant
      next scope read => exact absurd ⟨claim, loaded, fromClaim_valid read⟩ invalid

end Validity

/-- Scopes do not widen: not through a header, not by being narrowed or handed out, and not
when a header is damaged. -/
theorem scope_claims_never_widen (nesting : Nesting) :
    (∀ scope, Reachable nesting scope → ∀ region tenant,
      permits (decode nesting (encode scope)) region tenant = permits scope region tenant) ∧
    (∀ a b region tenant, permits (narrowed a b) region tenant = true ↔
      permits a region tenant = true ∧ permits b region tenant = true) ∧
    (∀ a b region tenant,
      permits (narrowed a b) region tenant = permits (narrowed b a) region tenant) ∧
    (∀ a b c region tenant, permits (narrowed (narrowed a b) c) region tenant =
      permits (narrowed a (narrowed b c)) region tenant) ∧
    (∀ parent child, covers parent child = true → ∀ region tenant,
      permits child region tenant = true → permits parent region tenant = true) ∧
    ∀ header, header ≠ [] → ¬ ValidHeader nesting header → ∀ region tenant,
      permits (decode nesting (some header)) region tenant = false := by
  refine ⟨fun scope reachable => permits_decode_encode reachable.sound, ?_, ?_, ?_, ?_, ?_⟩
  · intro a b region tenant
    rw [permits_narrowed, Bool.and_eq_true]
  · intro a b region tenant
    rw [permits_narrowed, permits_narrowed, Bool.and_comm]
  · intro a b c region tenant
    rw [permits_narrowed, permits_narrowed, permits_narrowed, permits_narrowed, Bool.and_assoc]
  · exact fun parent child covered region tenant => permits_covered covered
  · exact fun header nonempty invalid => permits_invalid nonempty invalid

/-- Two claims on different regions make an axis without values, which the header carries; the
header of a claim cut short denies everything. -/
theorem north_and_south_permit_nothing :
    let nesting : Nesting := ⟨1000, by decide⟩
    let north : Scope := { regions := some ["north"] }
    let south : Scope := { regions := some ["south"] }
    (∀ region tenant, permits (decode nesting (encode (narrowed (some north) (some south))))
        region tenant = permits (narrowed (some north) (some south)) region tenant) ∧
      (permits none (some "north") none = true) ∧
      ∀ region tenant, permits (decode nesting (some "\x7b".toList)) region tenant = false := by
  intro nesting north south
  obtain ⟨header, -, -, -, covered, damaged⟩ := scope_claims_never_widen nesting
  have northern : Reachable nesting (some north) :=
    .claimed (show fromClaim (.obj [(regionsKey, .arr [.str (codes "north")])]) = .ok _ from rfl)
  have southern : Reachable nesting (some south) :=
    .claimed (show fromClaim (.obj [(regionsKey, .arr [.str (codes "south")])]) = .ok _ from rfl)
  refine ⟨header _ (.narrowed northern southern), ?_, ?_⟩
  · exact covered none (some north) rfl (some "north") none (by decide)
  · refine damaged _ (by decide) ?_
    rintro ⟨claim, loaded, -⟩
    have cut : Json.loads nesting.limit "\x7b".toList = .error .malformed := rfl
    rw [cut] at loaded
    cases loaded

end Smo.Scope
