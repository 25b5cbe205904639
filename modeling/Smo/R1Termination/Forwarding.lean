import Smo.Shared.Invoker

/-! The headers that the gateway sends to a module (`r1-termination/app/main.py`), and the scope
that arrives at the end of a chain of calls. -/
namespace Smo.R1Termination

open Scope (Nesting)

structure Caller where
  invokerId : Str
  role : Role
  scope : Option Scope

def forwardedHeaders (sent : Headers) (caller : Caller) : Headers :=
  let believed (header : Option Str) : Option Str :=
    if caller.role = .internal then given header else none
  { role := some caller.role
    invokerId := given (some caller.invokerId)
    scope := given (Scope.encode caller.scope)
    onBehalfScope := believed sent.onBehalfScope
    onBehalfOf := believed sent.onBehalfOf
    actingUser := believed sent.actingUser
    actingUserScope :=
      if (believed sent.actingUser).isSome then believed sent.actingUserScope else none }

structure Module where
  invokerId : Str
  claim : Json.Value

def Module.caller (module : Module) : Caller :=
  ⟨module.invokerId, .internal, fromIntrospection module.claim⟩

def passedOn (nesting : Nesting) (handled : Headers) (module : Module) : Headers :=
  forwardedHeaders (clientHeaders (contextOf nesting handled)) module.caller

/-- Who a chain of calls begins with: an rApp, whatever headers it sends, or the operator's
console acting for a person. -/
inductive Origin
  | rapp (id : Str) (claim : Json.Value) (sent : Headers) (known : id ≠ [])
  | person (console : Module) (name : Str) (claim : Option Str) (named : name ≠ [])

namespace Origin

def first : Origin → Headers
  | .rapp id claim sent _ => forwardedHeaders sent ⟨id, .rapp, fromIntrospection claim⟩
  | .person console name claim _ =>
    forwardedHeaders { actingUser := some name, actingUserScope := claim } console.caller

def scope (nesting : Nesting) : Origin → Option Scope
  | .rapp _ claim _ _ => fromIntrospection claim
  | .person _ _ claim _ => Scope.decode nesting claim

def rappId : Origin → Option Str
  | .rapp id _ _ _ => some id
  | .person .. => none

end Origin

/-- What the last module of a chain receives; each of `calling` calls the next one. -/
def received (nesting : Nesting) (origin : Origin) (calling : List Module) : Headers :=
  calling.foldl (passedOn nesting) origin.first

/-- The scope at the last module permits nothing that the originating claim does not, and the
effective invoker there is the rApp that began the chain. -/
def Survives (nesting : Nesting) (origin : Origin) (calling : List Module) : Prop :=
  (∀ region tenant, permits (scopeOf nesting (received nesting origin calling)) region tenant = true →
    permits (origin.scope nesting) region tenant = true) ∧
  ∀ id ∈ origin.rappId, invokerId (received nesting origin calling) = some id

/-- An rApp began the chain, or one module was called, or the module that made the last call may
itself touch nothing that the person may not. -/
def Narrow (nesting : Nesting) (origin : Origin) (calling : List Module) : Prop :=
  match origin with
  | .rapp .. => True
  | .person .. => ∀ module ∈ calling.getLast?, ∀ region tenant,
      permits (fromIntrospection module.claim) region tenant = true →
        permits (origin.scope nesting) region tenant = true

section Chain

variable {nesting : Nesting}

/-- A request made for an rApp: it is the effective invoker, and what it may touch is known. -/
structure For (nesting : Nesting) (id : Str) (scope : Option Scope) (headers : Headers) : Prop where
  originator : originatorOf headers = some id
  invoker : invokerId headers = some id
  permitted : ∀ region tenant,
    permits (scopeOf nesting headers) region tenant = permits scope region tenant

theorem permits_carried {scope : Option Scope} (sound : Scope.Sound scope)
    (region tenant : Option String) :
    permits (Scope.decode nesting (given (Scope.encode scope))) region tenant =
      permits scope region tenant := by
  rw [decode_given]
  exact Scope.permits_decode_encode sound region tenant

theorem For.passedOn {id : Str} {scope : Option Scope} {handled : Headers}
    (here : For nesting id scope handled) (module : Module) :
    For nesting id scope (passedOn nesting handled module) := by
  have named : id ≠ [] := by
    have originator := here.originator
    rw [originatorOf.eq_def] at originator
    split at originator
    · exact given_ne_nil originator
    · exact given_ne_nil originator
    · cases originator
  have added : clientHeaders (contextOf nesting handled) =
      { onBehalfOf := some id, onBehalfScope := given (Scope.encode (scopeOf nesting handled)) } := by
    rw [contextOf, here.originator]
    rfl
  refine ⟨?_, ?_, fun region tenant => ?_⟩
  · simp [R1Termination.passedOn, forwardedHeaders, added, originatorOf, Module.caller, given_some named]
  · simp [R1Termination.passedOn, forwardedHeaders, added, invokerId, Module.caller, given_some named]
  · rw [← here.permitted, ← @permits_carried nesting _ (scopeOf_sound nesting handled)]
    simp [R1Termination.passedOn, forwardedHeaders, added, scopeOf, Module.caller, given_some named,
      decode_given]

structure Own (nesting : Nesting) (scope : Option Scope) (headers : Headers) : Prop where
  originator : originatorOf headers = none
  permitted : ∀ region tenant,
    permits (scopeOf nesting headers) region tenant = permits scope region tenant

theorem passedOn_own {handled : Headers} (nobody : originatorOf handled = none) (module : Module) :
    Own nesting (fromIntrospection module.claim) (passedOn nesting handled module) := by
  have added : clientHeaders (contextOf nesting handled) = {} := by
    rw [contextOf, nobody]
    rfl
  refine ⟨?_, fun region tenant => ?_⟩
  · simp [passedOn, forwardedHeaders, added, originatorOf, Module.caller, given]
  · rw [← @permits_carried nesting _ (fromIntrospection_sound module.claim)]
    simp [passedOn, forwardedHeaders, added, scopeOf, Module.caller, given]

variable (nesting)

theorem rapp_first (id : Str) (claim : Json.Value) (sent : Headers) (known : id ≠ []) :
    For nesting id (fromIntrospection claim) (Origin.rapp id claim sent known).first := by
  refine ⟨?_, ?_, fun region tenant => ?_⟩
  · simp [Origin.first, forwardedHeaders, originatorOf, given_some known]
  · simp [Origin.first, forwardedHeaders, invokerId, given_some known]
  · rw [← @permits_carried nesting _ (fromIntrospection_sound claim)]
    simp [Origin.first, forwardedHeaders, scopeOf]

theorem rapp_received (id : Str) (claim : Json.Value) (sent : Headers) (known : id ≠ [])
    (calling : List Module) :
    For nesting id (fromIntrospection claim)
      (received nesting (.rapp id claim sent known) calling) := by
  induction calling using List.reverseRecOn with
  | nil => exact rapp_first nesting id claim sent known
  | append_singleton earlier module ih =>
    rw [received, List.foldl_append]
    exact ih.passedOn module

theorem person_first (console : Module) (name : Str) (claim : Option Str) (named : name ≠ [])
    (region tenant : Option String) :
    originatorOf (Origin.person console name claim named).first = none ∧
      (permits (scopeOf nesting (Origin.person console name claim named).first) region tenant = true →
        permits (Scope.decode nesting claim) region tenant = true) := by
  have own : (Origin.person console name claim named).first.onBehalfOf = none := rfl
  refine ⟨by rw [originatorOf, own]; rfl, ?_⟩
  have scope : scopeOf nesting (Origin.person console name claim named).first =
      Scope.narrowed (Scope.decode nesting (given (Scope.encode (fromIntrospection console.claim))))
        (Scope.decode nesting claim) := by
    simp [Origin.first, forwardedHeaders, scopeOf, Module.caller, given_some named, decode_given]
  rw [scope, Scope.permits_narrowed, Bool.and_eq_true]
  exact And.right

theorem person_received (console : Module) (name : Str) (claim : Option Str) (named : name ≠ [])
    (earlier : List Module) (module : Module) :
    Own nesting (fromIntrospection module.claim)
      (received nesting (.person console name claim named) (earlier ++ [module])) := by
  have nobody : originatorOf (received nesting (.person console name claim named) earlier) = none := by
    induction earlier using List.reverseRecOn with
    | nil => exact (person_first nesting console name claim named none none).1
    | append_singleton front other ih =>
      rw [received, List.foldl_append]
      exact (passedOn_own ih other).originator
  rw [received, List.foldl_append]
  exact passedOn_own nobody module

/-- Scope survives a chain exactly when an rApp began it, no module calls on, or the module that
calls the last one is itself as narrow as the person. -/
theorem scope_survives_iff (origin : Origin) (calling : List Module) :
    Survives nesting origin calling ↔ Narrow nesting origin calling := by
  cases origin with
  | rapp id claim sent known =>
    have here := rapp_received nesting id claim sent known calling
    refine ⟨fun _ => trivial, fun _ => ⟨fun region tenant permitted => ?_, ?_⟩⟩
    · rw [here.permitted] at permitted
      exact permitted
    · rintro _ ⟨⟩
      exact here.invoker
  | person console name claim named =>
    rcases List.eq_nil_or_concat calling with rfl | ⟨earlier, module, rfl⟩
    · refine ⟨fun _ => nofun, fun _ => ⟨fun region tenant => ?_, nofun⟩⟩
      exact (person_first nesting console name claim named region tenant).2
    · rw [List.concat_eq_append]
      have here := person_received nesting console name claim named earlier module
      simp only [Survives, Narrow, List.getLast?_append, List.getLast?_singleton, Option.some_or,
        Option.mem_some_iff, forall_eq', here.permitted]
      exact ⟨And.left, fun narrow => ⟨narrow, nofun⟩⟩

end Chain

section Example

def plainNesting : Nesting := ⟨1000, by decide⟩

/-- A person limited to one region, whose request DME hands on: DME carries no claim. -/
theorem person_scope_lost :
    ¬ Survives plainNesting
      (.person ⟨"console".toList, .null⟩ "smo-gui:ann".toList
        (Scope.encode (some { regions := some ["north"] })) (by decide))
      [⟨"dme".toList, .null⟩] := by
  intro survives
  have here := person_received plainNesting ⟨"console".toList, .null⟩ "smo-gui:ann".toList
    (Scope.encode (some { regions := some ["north"] })) (by decide) [] ⟨"dme".toList, .null⟩
  have outside := survives.1 (some "south") none (here.permitted (some "south") none)
  have north : Scope.fromClaim (.obj [(Scope.regionsKey, .arr [.str (Scope.codes "north")])]) =
      .ok (some { regions := some ["north"] }) := rfl
  rw [Origin.scope, Scope.permits_decode_encode (Scope.fromClaim_sound north)] at outside
  exact absurd outside (by decide)

end Example

end Smo.R1Termination
