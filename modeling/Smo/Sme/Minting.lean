import Smo.Sme.Invokers

/-! Identities that a scoped caller makes at SME, and those that they make in turn: their claims
never reach past the caller's. -/
namespace Smo.Sme

open Json (Text Value)
open Scope (Nesting covers axisCovers)
open Runs

section Covers

theorem axisCovers_trans {a b c : Option (List String)} (first : axisCovers a b = true)
    (second : axisCovers b c = true) : axisCovers a c = true := by
  cases a with
  | none => rfl
  | some as =>
    cases b with
    | none => cases first
    | some bs =>
      cases c with
      | none => cases second
      | some cs =>
        simp only [axisCovers, List.all_eq_true, List.contains_iff_mem] at *
        exact fun value mem => first value (second value mem)

variable {a b : Scope}

theorem covers_some : covers (some a) (some b) = true ↔
    axisCovers a.regions b.regions = true ∧ axisCovers a.tenants b.tenants = true := by
  rw [covers, Bool.and_eq_true]
  rfl

theorem covers_trans {c : Scope} (first : covers (some a) (some b) = true)
    (second : covers (some b) (some c) = true) : covers (some a) (some c) = true := by
  rw [covers_some] at *
  exact ⟨axisCovers_trans first.1 second.1, axisCovers_trans first.2 second.2⟩

def listed (scope : Scope) : Scope := ⟨scope.regions.map sorted, scope.tenants.map sorted⟩

theorem axisCovers_sorted (axis : Option (List String)) :
    axisCovers axis (axis.map sorted) = true ∧ axisCovers (axis.map sorted) axis = true := by
  cases axis <;> simp [axisCovers, Scope.mem_sorted]

theorem covers_listed (scope : Scope) : covers (some scope) (some (listed scope)) = true :=
  covers_some.mpr ⟨(axisCovers_sorted _).1, (axisCovers_sorted _).1⟩

theorem listed_covers (scope : Scope) : covers (some (listed scope)) (some scope) = true :=
  covers_some.mpr ⟨(axisCovers_sorted _).2, (axisCovers_sorted _).2⟩

theorem covers_refl (scope : Scope) : covers (some scope) (some scope) = true :=
  covers_trans (covers_listed scope) (listed_covers scope)

end Covers

section Claims

/-- A scope as a valid claim names it: on some axis, with values on each axis that it names. -/
structure Full (scope : Scope) : Prop where
  sound : Scope.Sound (some scope)
  regions : scope.regions ≠ some []
  tenants : scope.tenants ≠ some []
  restricts : scope.regions ≠ none ∨ scope.tenants ≠ none

variable {values : List String} {scope : Scope} {axis : String}

theorem sorted_sound (sound : Scope.SoundAxis values) : Scope.SoundAxis (sorted values) := by
  have same := List.perm_insertionSort (· ≤ ·) values
  exact ⟨same.nodup_iff.mpr sound.distinct, same.length_eq ▸ sound.few,
    fun value mem => sound.valid value (Scope.mem_sorted.mp mem)⟩

theorem sorted_eq_nil : sorted values = [] ↔ values = [] := by
  have same := (List.perm_insertionSort (· ≤ ·) values).length_eq
  rw [← List.length_eq_zero_iff, ← List.length_eq_zero_iff, sorted, same]

theorem Full.listed (full : Full scope) : Full (listed scope) := by
  refine ⟨?_, ?_, ?_, ?_⟩
  · rintro _ ⟨⟩
    refine ⟨fun values mem => ?_, fun values mem => ?_⟩
    · obtain ⟨values, is, rfl⟩ := Option.mem_map.mp mem
      exact sorted_sound ((full.sound scope rfl).1 values is)
    · obtain ⟨values, is, rfl⟩ := Option.mem_map.mp mem
      exact sorted_sound ((full.sound scope rfl).2 values is)
  · simpa [Sme.listed, sorted_eq_nil] using full.regions
  · simpa [Sme.listed, sorted_eq_nil] using full.tenants
  · simpa [Sme.listed] using full.restricts

theorem toClaim_full (full : Full scope) :
    Scope.toClaim (some scope) = some (Scope.axisClaim Scope.regionsKey scope.regions ++
      Scope.axisClaim Scope.tenantsKey scope.tenants) := by
  obtain ⟨regions, tenants⟩ := scope
  have restricts := full.restricts
  cases regions <;> cases tenants <;> simp_all [Scope.toClaim, Scope.axisClaim]

theorem axisOf_stored {key : Text} {values : Option (List String)}
    (sound : ∀ listed ∈ values, Scope.SoundAxis listed) (nonempty : values ≠ some []) :
    Scope.axisOf axis ((Scope.axisClaim key values).lookup key) = .ok (values.map sorted) := by
  cases values with
  | none => rfl
  | some values =>
    have entry : (Scope.axisClaim key (some values)).lookup key =
        some (.arr ((sorted values).map fun value => .str (Scope.codes value))) := by
      simp [Scope.axisClaim]
    rw [entry, Scope.axisOf_claim (sound values rfl) fun none => nonempty (congrArg some none)]
    rfl

theorem fromClaim_full (full : Full scope) :
    Scope.fromClaim (stored (Scope.toClaim (some scope))) = .ok (some (listed scope)) := by
  rw [toClaim_full full, stored, Scope.fromClaim, Scope.known_names, if_neg Bool.false_ne_true,
    (Scope.lookup_claim scope).1, (Scope.lookup_claim scope).2,
    axisOf_stored (full.sound scope rfl).1 full.regions,
    axisOf_stored (full.sound scope rfl).2 full.tenants]
  have restricts : scope.regions = none → scope.tenants ≠ none :=
    fun none => full.restricts.resolve_left fun some => some none
  simpa [bind, Except.bind, pure, Except.pure, listed] using restricts

theorem axisOf_ne_nil {claimed : Option Value} {read : Option (List String)}
    (h : Scope.axisOf axis claimed = .ok read) : read ≠ some [] := by
  rintro rfl
  rw [Scope.axisOf.eq_def] at h
  split at h
  · cases h
  · cases h
  · split_ifs at h with size valid once
    simp only [Bool.or_eq_true, List.isEmpty_iff, not_or] at size
    simp only [Bool.not_eq_true', Bool.not_eq_false] at valid
    have same := (Scope.strings_valid valid).1
    cases texts : Scope.strings _ with
    | nil =>
      rw [texts] at same
      exact size.1 same
    | cons text rest =>
      rw [texts] at h
      cases h
  · cases h

theorem full_of_fromClaim {claim : Value} (h : Scope.fromClaim claim = .ok (some scope)) :
    Full scope := by
  have sound := Scope.fromClaim_sound h
  rw [Scope.fromClaim.eq_def] at h
  split at h
  · cases h
  · split_ifs at h
    obtain ⟨regions, readRegions, h⟩ := bind_ok h
    obtain ⟨tenants, readTenants, h⟩ := bind_ok h
    simp only [pure, Except.pure, Except.ok.injEq] at h
    split_ifs at h with free
    obtain rfl := Option.some.inj h
    refine ⟨sound, axisOf_ne_nil readRegions, axisOf_ne_nil readTenants, ?_⟩
    rw [Bool.and_eq_true, not_and_or] at free
    simpa using free
  · cases h

theorem decode_full {nesting : Nesting} (full : Full scope) :
    Scope.decode nesting (given (Scope.encode (some scope))) = some (listed scope) := by
  have loaded := @Scope.loads_claim nesting scope full.sound
  rw [decode_given, Scope.encode, toClaim_full full, Option.map_some, Scope.decode_loaded loaded]
  have read := fromClaim_full full
  rw [toClaim_full full, stored] at read
  rw [read]
  rfl

theorem reachable_restricts {nesting : Nesting} {claimed : Option Scope}
    (reachable : Scope.Reachable nesting claimed) :
    ∀ scope ∈ claimed, scope.regions ≠ none ∨ scope.tenants ≠ none := by
  induction reachable with
  | claimed read =>
    rintro scope ⟨⟩
    exact (full_of_fromClaim read).restricts
  | decoded value =>
    rintro scope is
    rw [Scope.decode.eq_def] at is
    split at is
    · cases is
    · cases is
    · split at is
      · cases is
        exact .inl (Option.some_ne_none _)
      · split at is
        · cases is
          exact .inl (Option.some_ne_none _)
        · next read =>
          cases is
          exact (full_of_fromClaim read).restricts
  | @narrowed a b _ _ first second =>
    rintro scope is
    cases a with
    | none => exact second scope is
    | some a =>
      cases b with
      | none => exact first scope is
      | some b =>
        cases is
        have restricts := first a rfl
        cases regions : a.regions <;> cases tenants : a.tenants <;> cases b.regions <;>
          cases b.tenants <;> simp_all [Scope.both]

end Claims

section Requests

structure Minting where
  invokers : List InvokerRegistration
  made : List Str := []

/-- A request, made with the scope of the first caller or of an invoker that was made. -/
inductive Act
  | register (caller : Option Str) (body : InvokerRegistrationRequest) (presented : Option Str)
    (drawn : Str)
  | setAuthzScope (caller : Option Str) (id : Str) (claim : Value)
  | token (id : Str) (now : Nat)

variable (nesting : Nesting) (isPem : Str → Bool) (enrollment : Enrollment) (c : Scope)

def arriving (claim : Option Claim) : Option Scope :=
  Scope.decode nesting (given (Scope.encode (fromIntrospection (stored claim))))

def callerScope (s : Minting) : Option Str → Option (Option Scope)
  | none => some (some c)
  | some id =>
    if id ∈ s.made then
      (Table.get (·.apiInvokerId) s.invokers id).map fun row => arriving nesting row.authzScope
    else none

def Minting.after {α : Type} (s : Minting) (id : Str) : Answered α → Minting
  | (rows, .ok _) => ⟨rows, s.made ++ [id]⟩
  | (rows, .error _) => { s with invokers := rows }

def act (s : Minting) : Act → Option Minting
  | .register caller body presented drawn =>
    match callerScope nesting c s caller with
    | none => none
    | some scope =>
      if s.invokers.all (·.apiInvokerId ≠ drawn) then
        some (s.after drawn (registerInvoker isPem enrollment scope body presented drawn s.invokers))
      else none
  | .setAuthzScope caller id claim =>
    match callerScope nesting c s caller with
    | none => none
    | some _ => some (s.after id (setInvokerAuthzScope id claim s.invokers))
  | .token id now => some { s with invokers := tokenIssued id now s.invokers }

def MintStep (s : Minting) (label : Act) (s' : Minting) : Prop :=
  act nesting isPem enrollment c s label = some s'

/-- Every invoker made or changed has a claim that the first caller's scope covers. -/
def Within (s : Minting) : Prop :=
  ∀ row ∈ s.invokers, row.apiInvokerId ∈ s.made →
    row.authzScope ≠ none ∧ covers (some c) (fromIntrospection (stored row.authzScope)) = true

def EditsWithin : Minting → Act → Prop
  | _, .setAuthzScope _ _ claim => ∀ scope, Scope.fromClaim claim = .ok scope → covers (some c) scope = true
  | _, _ => True

end Requests

section Runs

variable {nesting : Nesting} {isPem : Str → Bool} {enrollment : Enrollment} {c : Scope}

/-- What `Within` says of a row, by the scope that its claim names. -/
def Covered (c : Scope) (claim : Option Claim) : Prop :=
  ∃ scope, Full scope ∧ claim = Scope.toClaim (some scope) ∧ covers (some c) (some scope) = true

variable {claim : Option Claim} {value : Value} {s : Minting}

theorem Covered.within (covered : Covered c claim) :
    claim ≠ none ∧ covers (some c) (fromIntrospection (stored claim)) = true := by
  obtain ⟨scope, full, rfl, covers⟩ := covered
  refine ⟨by rw [toClaim_full full]; nofun, ?_⟩
  rw [fromIntrospection, fromClaim_full full]
  exact covers_trans covers (covers_listed scope)

theorem claimFor_covered {caller : Scope} (sound : Scope.Sound (some caller))
    (restricts : caller.regions ≠ none ∨ caller.tenants ≠ none) {asked : Option Claim}
    (checked : checkedScope value = .ok asked) (granted : claimFor (some caller) asked = .ok claim)
    : Covered caller claim := by
  simp only [claimFor] at granted
  split_ifs at granted with nothing
  rw [not_or] at nothing
  cases asked with
  | none =>
    obtain rfl := Except.ok.inj granted
    exact ⟨caller, ⟨sound, nothing.1, nothing.2, restricts⟩, rfl, covers_refl caller⟩
  | some asked =>
    dsimp only at granted
    split_ifs at granted with wide
    obtain rfl := Except.ok.inj granted
    rw [checkedScope] at checked
    split at checked
    · next scope read =>
      cases scope with
      | none => cases checked
      | some scope =>
        have full := full_of_fromClaim read
        have same := Except.ok.inj checked
        have reread := fromClaim_full full
        rw [same, stored] at reread
        rw [reread] at wide
        exact ⟨scope, full, same.symm, covers_trans wide (listed_covers scope)⟩
    · cases checked

theorem checked_covered (restricts : c.regions ≠ none ∨ c.tenants ≠ none)
    (checked : checkedScope value = .ok claim)
    (within : ∀ scope, Scope.fromClaim value = .ok scope → covers (some c) scope = true) :
    Covered c claim := by
  rw [checkedScope] at checked
  split at checked
  · next scope read =>
    obtain rfl := Except.ok.inj checked
    have narrower := within scope read
    cases scope with
    | none =>
      obtain ⟨regions, tenants⟩ := c
      cases regions <;> cases tenants <;> simp_all [covers, axisCovers]
    | some scope => exact ⟨scope, full_of_fromClaim read, rfl, narrower⟩
  · cases checked

theorem registerInvoker_rows {caller : Option Scope} {body : InvokerRegistrationRequest}
    {presented : Option Str} {drawn : Str} {rows : List InvokerRegistration} :
    (∃ problem, registerInvoker isPem enrollment caller body presented drawn rows =
      (rows, .error problem)) ∨
    ∃ asked row, registerInvoker isPem enrollment caller body presented drawn rows =
        (rows ++ [row], .ok row) ∧ row.apiInvokerId = drawn ∧
      checkedScope body.authzScope = .ok asked ∧ claimFor caller asked = .ok row.authzScope := by
  simp only [registerInvoker]
  split
  · exact .inl ⟨_, rfl⟩
  · next claim kind checked =>
    obtain ⟨_, _, checked⟩ := bind_ok checked
    obtain ⟨asked, readClaim, checked⟩ := bind_ok checked
    obtain ⟨claim', granted, checked⟩ := bind_ok checked
    obtain ⟨kind', _, checked⟩ := bind_ok checked
    obtain ⟨rfl, rfl⟩ := Prod.mk.inj (Except.ok.inj checked)
    exact .inr ⟨asked, _, rfl, rfl, readClaim, granted⟩

theorem setInvokerAuthzScope_rows {id : Str} {claim : Value} {rows : List InvokerRegistration} :
    (∃ problem, setInvokerAuthzScope id claim rows = (rows, .error problem)) ∨
    ∃ checked, checkedScope claim = .ok checked ∧ setInvokerAuthzScope id claim rows =
      (Table.modify (·.apiInvokerId) rows id fun invoker => { invoker with authzScope := checked },
        .ok checked) := by
  rw [setInvokerAuthzScope]
  split
  · exact .inl ⟨_, rfl⟩
  · split
    · exact .inl ⟨_, rfl⟩
    · next checked is => exact .inr ⟨checked, is, rfl⟩

def Minted (c : Scope) (s : Minting) : Prop :=
  ∀ row ∈ s.invokers, row.apiInvokerId ∈ s.made → Covered c row.authzScope

theorem callerScope_covered (own : Scope.Sound (some c))
    (restricts : c.regions ≠ none ∨ c.tenants ≠ none) (minted : Minted c s) {caller : Option Str}
    {scope : Option Scope} (by_ : callerScope nesting c s caller = some scope) :
    ∃ given : Scope, scope = some given ∧ Scope.Sound (some given) ∧
      (given.regions ≠ none ∨ given.tenants ≠ none) ∧ covers (some c) (some given) = true := by
  cases caller with
  | none =>
    obtain rfl := Option.some.inj by_
    exact ⟨c, rfl, own, restricts, covers_refl c⟩
  | some id =>
    simp only [callerScope] at by_
    split_ifs at by_ with known
    obtain ⟨row, found, rfl⟩ := Option.map_eq_some_iff.mp by_
    obtain ⟨named, full, claim, covers⟩ :=
      minted row (Table.mem_of_get found) (Table.key_of_get found ▸ known)
    have arrives : arriving nesting row.authzScope = some (listed (listed named)) := by
      rw [arriving, claim, fromIntrospection, fromClaim_full full]
      exact decode_full full.listed
    refine ⟨_, arrives, full.listed.listed.sound, full.listed.listed.restricts, ?_⟩
    exact covers_trans covers (covers_trans (covers_listed named) (covers_listed (listed named)))

theorem minted_step (own : Scope.Sound (some c)) (restricts : c.regions ≠ none ∨ c.tenants ≠ none)
    {s' : Minting} {label : Act} (minted : Minted c s) (within : EditsWithin c s label)
    (step : MintStep nesting isPem enrollment c s label s') : Minted c s' := by
  cases label with
  | register caller body presented drawn =>
    simp only [MintStep, act] at step
    split at step
    · cases step
    · next scope by_ =>
      split_ifs at step with fresh
      obtain rfl := Option.some.inj step
      obtain ⟨given, rfl, sound, some, covers⟩ := callerScope_covered own restricts minted by_
      rcases @registerInvoker_rows isPem enrollment (.some given) body presented drawn s.invokers with
        ⟨problem, refused⟩ | ⟨asked, row, made, id, checked, granted⟩
      · rw [refused]
        exact minted
      · rw [made]
        obtain ⟨named, full, claim, narrower⟩ := claimFor_covered sound some checked granted
        intro other mem known
        rcases List.mem_append.mp mem with old | new
        · rcases List.mem_append.mp known with before | now
          · exact minted other old before
          · have differs := List.all_eq_true.mp fresh other old
            simp [List.mem_singleton.mp now] at differs
        · obtain rfl := List.mem_singleton.mp new
          exact ⟨named, full, claim, covers_trans covers narrower⟩
  | setAuthzScope caller id claim =>
    simp only [MintStep, act] at step
    split at step
    · cases step
    · obtain rfl := Option.some.inj step
      rcases @setInvokerAuthzScope_rows id claim s.invokers with
        ⟨problem, refused⟩ | ⟨checked, read, edited⟩
      · rw [refused]
        exact minted
      · rw [edited]
        intro row mem known
        obtain ⟨old, inRows, rfl⟩ := List.mem_map.mp mem
        split_ifs at known ⊢ with changed
        · exact checked_covered restricts read within
        · rcases List.mem_append.mp known with before | now
          · exact minted old inRows before
          · exact absurd (List.mem_singleton.mp now) changed
  | token id now =>
    obtain rfl := Option.some.inj step
    intro row mem known
    obtain ⟨old, inRows, rfl⟩ := List.mem_map.mp mem
    split_ifs at known ⊢ with changed
    · exact minted old inRows known
    · exact minted old inRows known

/-- In every run of requests from a scoped caller, and from the invokers made so, whose edits
stay inside the caller's scope: every invoker made or changed is inside it. A request that is
refused leaves the registry as it was. -/
theorem minted_within_scope {trace : List (Step Minting Act)} {start s : Minting}
    (reachable : Scope.Reachable nesting (some c)) (begun : start.made = [])
    (run : Run (MintStep nesting isPem enrollment c) start trace s)
    (edits : ∀ t ∈ trace, EditsWithin c t.before t.label) :
    Within c s ∧
      (∀ caller body presented drawn problem,
        (registerInvoker isPem enrollment caller body presented drawn s.invokers).2 = .error problem →
          (registerInvoker isPem enrollment caller body presented drawn s.invokers).1 = s.invokers) ∧
      ∀ id claim problem, (setInvokerAuthzScope id claim s.invokers).2 = .error problem →
        (setInvokerAuthzScope id claim s.invokers).1 = s.invokers := by
  have minted : Minted c s :=
    run.invariant_of_guarded (Minted c) (EditsWithin c) (fun _ _ known => by rw [begun] at known; cases known)
      (fun _ _ _ minted within step => minted_step reachable.sound
        (reachable_restricts reachable c rfl) minted within step) edits
  refine ⟨fun row mem known => (minted row mem known).within, ?_, ?_⟩
  · intro caller body presented drawn problem refused
    rcases @registerInvoker_rows isPem enrollment caller body presented drawn s.invokers with
      ⟨_, is⟩ | ⟨_, _, is, -⟩
    · rw [is]
    · rw [is] at refused
      cases refused
  · intro id claim problem refused
    rcases @setInvokerAuthzScope_rows id claim s.invokers with ⟨_, is⟩ | ⟨_, _, is⟩
    · rw [is]
    · rw [is] at refused
      cases refused

end Runs

section North

def north : Scope := { regions := some ["north"] }

def apiInvoker1 : Str := ['a', 'p', 'i', '-', '1']

def opens : Enrollment := { secret := some ['e'] }

def registration : Act :=
  .register none { apiInvokerPublicKey := ['r'] } none apiInvoker1

def northInvoker (claim : Option Claim) : InvokerRegistration :=
  { apiInvokerId := apiInvoker1, publicKey := ['r'], kind := .rapp, authzScope := claim }

theorem registered : MintStep ⟨1000, by decide⟩ (fun _ => false) opens north ⟨[], []⟩ registration
    ⟨[northInvoker (Scope.toClaim (some north))], [apiInvoker1]⟩ := rfl

/-- The caller registers an invoker and, as the operator's route lets it, removes the claim. -/
theorem edit_leaves_scope : ¬ ∀ trace s, Run (MintStep ⟨1000, by decide⟩ (fun _ => false) opens north)
    ⟨[], []⟩ trace s → Within north s := by
  intro holds
  have edited : MintStep ⟨1000, by decide⟩ (fun _ => false) opens north
      ⟨[northInvoker (Scope.toClaim (some north))], [apiInvoker1]⟩
      (.setAuthzScope none apiInvoker1 .null)
      ⟨[northInvoker none], [apiInvoker1, apiInvoker1]⟩ := by
    simp [MintStep, act, callerScope, setInvokerAuthzScope, checkedScope, Scope.fromClaim,
      Scope.toClaim, Table.get, Table.modify, northInvoker, Minting.after]
  have within := holds _ _ ((Run.refl.snoc registered).snoc edited)
  exact (within (northInvoker none) (List.mem_singleton.mpr rfl) (by simp [northInvoker])).1 rfl

theorem registered_within_north :
    Within north ⟨[northInvoker (Scope.toClaim (some north))], [apiInvoker1]⟩ := by
  have claim : Scope.fromClaim (.obj [(Scope.regionsKey, .arr [.str (Scope.codes "north")])]) =
      .ok (some north) := rfl
  refine (minted_within_scope (.claimed claim) rfl (Run.refl.snoc registered) ?_).1
  rintro t mem
  obtain rfl := List.mem_singleton.mp mem
  trivial

end North

end Smo.Sme
