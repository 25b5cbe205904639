import Smo.Shared.ScopeClaim

/-! The console's scope claims (`gui-bff/app/scoping.py`), beside the services' own (`smo_shared/scope.py`):
read from what an admin or a token gives, stored with the user, and sent with the user's calls. -/
namespace Smo.GuiBff.Scoping

open Json (Text Value)
open Scope (maxValues Nesting codes word validValue strings regionsKey tenantsKey SoundAxis)

section Code

def axes : List String := ["regions", "tenants"]

abbrev Claim := List (String × List String)

/-- One axis of `parse_claim`; the value pattern is the services' own. -/
def parseAxis (axis : String) (claimed : Option Value) : Except String (Option (List String)) :=
  match claimed with
  | none | some .null => .ok none
  | some (.arr values) =>
    if values.isEmpty || maxValues < values.length then
      .error s!"{axis} must be a list of 1 to {maxValues} values"
    else if !values.all validValue then
      .error (s!"every value of {axis} must be 1 to 100 characters of letters, digits and " ++
        ". _ : / @ + -, starting with a letter or digit")
    else if (strings values).dedup.length ≠ values.length then
      .error s!"{axis} lists a value twice"
    else .ok (some (sorted ((strings values).map word)))
  | some _ => .error s!"{axis} must be a list of 1 to {maxValues} values"

/-- `parse_claim`: the claim normalised, or none for no claim. -/
def parseClaim : Value → Except String (Option Claim)
  | .null => .ok none
  | .obj entries =>
    if entries.any fun entry => entry.1 ∉ axes.map codes then
      .error "the scope may only name regions and tenants"
    else do
      let out ← axes.foldlM (fun out axis => do
        match ← parseAxis axis (entries.lookup (codes axis)) with
        | none => return out
        | some values => return out ++ [(axis, values)]) []
      return if out = [] then none else some out
  | _ => .error "the scope must be an object with regions and/or tenants"

def encode (claim : Option Claim) : Option (List Char) :=
  (claim.filter (· ≠ [])).map fun claim => Json.dumps true true
    (.obj (claim.map fun entry => (codes entry.1, .arr (entry.2.map fun value => .str (codes value)))))

inductive View
  | unscoped
  | claim (claim : Claim)
  | invalid

/-- `view`; a stored value nested too deep raises, as nothing catches `RecursionError`. -/
def view (nesting : Nesting) (stored : Option (List Char)) : Except Json.Problem View :=
  match stored.filter (· ≠ []) with
  | none => .ok .unscoped
  | some text =>
    match Json.loads nesting.limit text with
    | .error .tooDeep => .error .tooDeep
    | .error _ => .ok .invalid
    | .ok claim =>
      match parseClaim claim with
      | .error _ => .ok .invalid
      | .ok none => .ok .unscoped
      | .ok (some claim) => .ok (.claim claim)

structure Headers where
  actingUser : String
  actingUserScope : Option (List Char)

/-- `headers`: the person, and the person's claim as it is stored. -/
def headers (username : String) (stored : Option (List Char)) : Headers where
  actingUser := "smo-gui:" ++ username
  actingUserScope := stored.filter (· ≠ [])

end Code

section Claims

def claimOf (scope : Scope) : Claim :=
  (scope.regions.toList.map fun values => ("regions", sorted values)) ++
    scope.tenants.toList.map fun values => ("tenants", sorted values)

theorem parseAxis_eq (axis : String) (claimed : Option Value) :
    parseAxis axis claimed = (Scope.axisOf axis claimed).map (·.map sorted) := by
  unfold parseAxis Scope.axisOf
  cases claimed with
  | none => rfl
  | some value =>
    cases value with
    | arr values =>
      dsimp only
      split_ifs <;> rfl
    | null | bool | int | float | str | obj => rfl

theorem names_eq (entries : List (Text × Value)) :
    (entries.any fun entry => entry.1 ∉ axes.map codes) =
      entries.any fun entry => entry.1 ≠ regionsKey && entry.1 ≠ tenantsKey := by
  refine congrArg entries.any (funext fun entry => ?_)
  have keys : axes.map codes = [regionsKey, tenantsKey] := rfl
  rw [keys]
  simp [not_or]

theorem parseClaim_reads (claim : Value) :
    (∀ scope, Scope.fromClaim claim = .ok scope → parseClaim claim = .ok (scope.map claimOf)) ∧
      ∀ problem, Scope.fromClaim claim = .error problem → ∃ text, parseClaim claim = .error text := by
  cases claim with
  | null =>
    refine ⟨?_, nofun⟩
    rintro _ ⟨⟩
    rfl
  | obj entries =>
    unfold parseClaim Scope.fromClaim
    dsimp only
    rw [names_eq]
    split_ifs with unknown
    · exact ⟨nofun, fun _ _ => ⟨_, rfl⟩⟩
    · have regionsKey_ : codes "regions" = regionsKey := rfl
      have tenantsKey_ : codes "tenants" = tenantsKey := rfl
      simp only [axes, List.foldlM_cons, List.foldlM_nil, parseAxis_eq, regionsKey_, tenantsKey_]
      cases Scope.axisOf "regions" (entries.lookup regionsKey) with
      | error problem => exact ⟨nofun, fun _ _ => ⟨problem, rfl⟩⟩
      | ok regions =>
        cases Scope.axisOf "tenants" (entries.lookup tenantsKey) with
        | error problem =>
          refine ⟨?_, fun _ _ => ⟨problem, ?_⟩⟩
          · cases regions <;> exact nofun
          · cases regions <;> rfl
        | ok tenants =>
          refine ⟨?_, ?_⟩
          · cases regions <;> cases tenants <;> rintro _ ⟨⟩ <;> rfl
          · cases regions <;> cases tenants <;> exact nofun
  | bool | int | float | str | arr => exact ⟨nofun, fun _ _ => ⟨_, rfl⟩⟩

theorem fromClaim_lists {claim : Value} {scope : Scope}
    (read : Scope.fromClaim claim = .ok (some scope)) :
    claimOf scope ≠ [] ∧ (∀ values ∈ scope.regions, values ≠ []) ∧
      ∀ values ∈ scope.tenants, values ≠ [] := by
  have lists {axis : String} {claimed : Option Value} {values : Option (List String)}
      (is : Scope.axisOf axis claimed = .ok values) : ∀ listed ∈ values, listed ≠ [] := by
    rw [Scope.axisOf.eq_def] at is
    split at is
    · cases is
      simp
    · cases is
      simp
    next given =>
      split_ifs at is with size valid once
      cases is
      rintro _ ⟨⟩ empty
      have valid : given.all validValue = true := by simpa using valid
      rw [List.map_eq_nil_iff] at empty
      have same := (Scope.strings_valid valid).1
      rw [empty] at same
      simp [same] at size
    · cases is
  cases claim with
  | obj entries =>
    simp only [Scope.fromClaim] at read
    split_ifs at read with unknown
    obtain ⟨regions, hregions, read⟩ := bind_ok read
    obtain ⟨tenants, htenants, read⟩ := bind_ok read
    cases regions <;> cases tenants <;> cases read
    all_goals exact ⟨by simp [claimOf], lists hregions, lists htenants⟩
  | null => cases read
  | bool | int | float | str | arr => cases read

end Claims

section Codec

variable {nesting : Nesting} {claim : Value}

theorem encode_claimOf (scope : Option Scope) : encode (scope.map claimOf) = Scope.encode scope := by
  cases scope with
  | none => rfl
  | some scope =>
    obtain ⟨regions, tenants⟩ := scope
    cases regions <;> cases tenants <;> rfl

theorem encode_kept (scope : Option Scope) :
    (Scope.encode scope).filter (· ≠ []) = Scope.encode scope := by
  unfold Scope.encode
  cases Scope.toClaim scope with
  | none => rfl
  | some claim =>
    have solid : Json.dumps true true (.obj claim) ≠ [] := by
      rw [Json.dumps]
      simp
    simp [Option.filter, solid]

def arranged (scope : Scope) : Scope := ⟨scope.regions.map sorted, scope.tenants.map sorted⟩

theorem axisOf_claimed {axis : String} {key : Text} {values : Option (List String)}
    (sound : ∀ listed ∈ values, SoundAxis listed) (some_ : ∀ listed ∈ values, listed ≠ []) :
    Scope.axisOf axis ((Scope.axisClaim key values).lookup key) = .ok (values.map sorted) := by
  cases values with
  | none => rfl
  | some listed =>
    have entry : (Scope.axisClaim key (some listed)).lookup key =
        some (.arr ((sorted listed).map fun value => .str (codes value))) := by
      simp [Scope.axisClaim]
    rw [entry]
    exact Scope.axisOf_claim (sound listed rfl) (some_ listed rfl)

theorem decode_encode {scope : Option Scope} (read : Scope.fromClaim claim = .ok scope) :
    Scope.decode nesting (Scope.encode scope) = scope.map arranged := by
  cases scope with
  | none => rfl
  | some scope =>
    have sound := Scope.fromClaim_sound read
    obtain ⟨restricts, regions, tenants⟩ := fromClaim_lists read
    have written : Scope.axisClaim regionsKey scope.regions ++
        Scope.axisClaim tenantsKey scope.tenants ≠ [] := by
      intro none_
      refine restricts ?_
      cases named : scope.regions <;> cases named' : scope.tenants <;>
        simp [Scope.axisClaim, claimOf, named, named'] at none_ ⊢
    have encoded : Scope.encode (some scope) = some (Json.dumps true true (.obj
        (Scope.axisClaim regionsKey scope.regions ++ Scope.axisClaim tenantsKey scope.tenants))) := by
      unfold Scope.encode Scope.toClaim
      dsimp only
      split
      next none_ => exact absurd none_ written
      next => rfl
    obtain ⟨first, second⟩ := Scope.lookup_claim scope
    rw [encoded, Scope.decode_loaded (Scope.loads_claim sound), Scope.fromClaim]
    rw [if_neg (by rw [Scope.known_names]; decide), first, second,
      axisOf_claimed (sound scope rfl).1 regions, axisOf_claimed (sound scope rfl).2 tenants]
    have names : (scope.regions.isNone && scope.tenants.isNone) = false := by
      rw [Bool.and_eq_false_iff]
      by_contra free
      simp only [not_or, Bool.not_eq_false, Option.isNone_iff_eq_none] at free
      simp [claimOf, free.1, free.2] at restricts
    simp [bind, Except.bind, pure, Except.pure, Except.toOption, names, arranged]

def SameAxis (axis other : Option (List String)) : Prop :=
  (axis = none ↔ other = none) ∧
    ∀ values ∈ axis, ∀ values' ∈ other, ∀ value, value ∈ values ↔ value ∈ values'

def Same (scope other : Option Scope) : Prop :=
  (scope = none ↔ other = none) ∧ ∀ restriction ∈ scope, ∀ restriction' ∈ other,
    SameAxis restriction.regions restriction'.regions ∧
      SameAxis restriction.tenants restriction'.tenants

theorem sameAxis_sorted (axis : Option (List String)) : SameAxis (axis.map sorted) axis := by
  cases axis with
  | none => exact ⟨by simp, nofun⟩
  | some values =>
    refine ⟨by simp, ?_⟩
    rintro _ ⟨⟩ _ ⟨⟩ value
    exact Scope.mem_sorted

theorem same_arranged (scope : Option Scope) : Same (scope.map arranged) scope := by
  cases scope with
  | none => exact ⟨by simp, nofun⟩
  | some scope =>
    refine ⟨by simp, ?_⟩
    rintro _ ⟨⟩ _ ⟨⟩
    exact ⟨sameAxis_sorted _, sameAxis_sorted _⟩

/-- What a service permits a user by what is stored of the user: what the claim lists on every axis it
names, all without a claim, and nothing by a stored value that is none. -/
def Narrows (seen : Except Json.Problem View) (scope : Option Scope) : Prop :=
  match seen with
  | .ok .unscoped => scope = none
  | .ok (.claim claim) => scope ≠ none ∧ ∀ region tenant, permits scope region tenant =
      (Scope.axisPermits (claim.lookup "regions") region &&
        Scope.axisPermits (claim.lookup "tenants") tenant)
  | .ok .invalid | .error _ => ∀ region tenant, permits scope region tenant = false

theorem lookup_claimOf (scope : Scope) : (claimOf scope).lookup "regions" = scope.regions.map sorted ∧
    (claimOf scope).lookup "tenants" = scope.tenants.map sorted := by
  obtain ⟨regions, tenants⟩ := scope
  cases regions <;> cases tenants <;> exact ⟨rfl, rfl⟩

theorem axisPermits_arranged (axis : Option (List String)) (value : Option String) :
    Scope.axisPermits (axis.map sorted) value = Scope.axisPermits axis value := by
  cases axis with
  | none => rfl
  | some values => exact Scope.axisPermits_sorted values value

theorem stored_narrows (username : String) (stored : Option (List Char)) :
    Narrows (view nesting stored)
      (Scope.decode nesting (headers username stored).actingUserScope) := by
  unfold view headers
  cases kept : stored.filter (· ≠ []) with
  | none => exact rfl
  | some text =>
    have nonempty : text ≠ [] := by
      have held := Option.filter_eq_some_iff.mp kept
      simpa using held.2
    dsimp only
    have denied (problem : Json.Problem) (is : Json.loads nesting.limit text = .error problem)
        (region tenant : Option String) :
        permits (Scope.decode nesting (some text)) region tenant = false := by
      refine Scope.permits_invalid nonempty ?_ region tenant
      rintro ⟨claim, loaded, _⟩
      rw [is] at loaded
      cases loaded
    cases loaded : Json.loads nesting.limit text with
    | error problem => cases problem <;> exact denied _ loaded
    | ok claim =>
      rw [Scope.decode_loaded loaded]
      obtain ⟨reads, refuses⟩ := parseClaim_reads claim
      cases read : Scope.fromClaim claim with
      | error problem =>
        obtain ⟨text', refused⟩ := refuses problem read
        simp only [refused]
        exact Scope.permits_denyAll
      | ok scope =>
        simp only [reads scope read]
        cases scope with
        | none => exact rfl
        | some scope =>
          obtain ⟨first, second⟩ := lookup_claimOf scope
          refine ⟨nofun, fun region tenant => ?_⟩
          rw [first, second, axisPermits_arranged, axisPermits_arranged]
          rfl

/-- The console accepts the claims that the services accept; a service reads the header of a claim as
the same restriction, and the header of whatever is stored as what the console shows of it. -/
theorem codecs_agree (nesting : Nesting) :
    (∀ claim, (∃ parsed, parseClaim claim = .ok parsed) ↔ ∃ scope, Scope.fromClaim claim = .ok scope) ∧
    (∀ claim parsed scope username, parseClaim claim = .ok parsed → Scope.fromClaim claim = .ok scope →
      (parsed = none ↔ scope = none) ∧
        Same (Scope.decode nesting (headers username (encode parsed)).actingUserScope) scope) ∧
    ∀ username stored, Narrows (view nesting stored)
      (Scope.decode nesting (headers username stored).actingUserScope) := by
  refine ⟨fun claim => ?_, fun claim parsed scope username parses read => ?_,
    fun username stored => stored_narrows username stored⟩
  · obtain ⟨reads, refuses⟩ := parseClaim_reads claim
    cases read : Scope.fromClaim claim with
    | ok scope => exact ⟨fun _ => ⟨scope, rfl⟩, fun _ => ⟨_, reads scope read⟩⟩
    | error problem =>
      obtain ⟨text, refused⟩ := refuses problem read
      simp [refused]
  · have same := (parseClaim_reads claim).1 scope read
    rw [parses, Except.ok.injEq] at same
    subst same
    have sent : (headers username (encode (scope.map claimOf))).actingUserScope =
        Scope.encode scope := by
      rw [headers, encode_claimOf]
      exact encode_kept scope
    rw [sent, decode_encode read]
    exact ⟨by simp, same_arranged scope⟩

/-- Two regions out of order reach the services as the two. -/
theorem regions_agree :
    Same (Scope.decode ⟨1000, by decide⟩
        (headers "kim" (encode (some [("regions", ["ap", "eu-west"])]))).actingUserScope)
      (some { regions := some ["eu-west", "ap"] }) := by
  obtain ⟨-, forwards, -⟩ := codecs_agree ⟨1000, by decide⟩
  exact (forwards (.obj [(regionsKey, .arr [.str (codes "eu-west"), .str (codes "ap")])]) _ _ "kim"
    (by rfl) (by rfl)).2

end Codec

end Smo.GuiBff.Scoping
