import Smo.Shared.ScopeClaim
import Smo.Shared.Str

/-! Who a request is for (`smo_shared/invoker.py`, `scope.py`, `r1_client.py`): the headers in
which the gateway vouches for a caller, and what a module passes on when it calls the next one. -/
namespace Smo

open Scope (Nesting)

inductive Role
  | internal
  | rapp
  deriving DecidableEq

structure Headers where
  role : Option Role := none
  invokerId : Option Str := none
  onBehalfOf : Option Str := none
  actingUser : Option Str := none
  scope : Option Str := none
  onBehalfScope : Option Str := none
  actingUserScope : Option Str := none

def given (value : Option Str) : Option Str := value.filter fun value => value ≠ []

/-- Who the request is for: an rApp's own id, what an internal module passed on, or nobody. -/
def originatorOf (headers : Headers) : Option Str :=
  match headers.role with
  | some .rapp => given headers.invokerId
  | some .internal => given headers.onBehalfOf
  | none => none

def invokerId (headers : Headers) : Option Str :=
  match headers.role, given headers.onBehalfOf with
  | some .internal, some behalf => some behalf
  | _, _ => given headers.invokerId

def scopeOf (nesting : Nesting) (headers : Headers) : Option Scope :=
  let isInternal := headers.role = some .internal
  if isInternal ∧ (given headers.onBehalfOf).isSome then
    Scope.decode nesting headers.onBehalfScope
  else
    let own := Scope.decode nesting headers.scope
    if isInternal ∧ (given headers.actingUser).isSome then
      Scope.narrowed own (Scope.decode nesting headers.actingUserScope)
    else own

structure Context where
  originator : Option Str
  scope : Option Scope

def contextOf (nesting : Nesting) (headers : Headers) : Context where
  originator := originatorOf headers
  scope := if (originatorOf headers).isSome then scopeOf nesting headers else none

/-- The identity headers that `R1Client` adds to a call. -/
def clientHeaders (context : Context) : Headers :=
  match context.originator with
  | some originator =>
    { onBehalfOf := some originator, onBehalfScope := given (Scope.encode context.scope) }
  | none => {}

/-- The claim that the introspection answers with; one that is not valid permits nothing. -/
def fromIntrospection (claim : Json.Value) : Option Scope :=
  match Scope.fromClaim claim with
  | .ok scope => scope
  | .error _ => some Scope.denyAll

@[simp] theorem given_none : given none = none := rfl

theorem given_some {value : Str} (nonempty : value ≠ []) : given (some value) = some value := by
  rw [given, Option.filter_some, if_pos (decide_eq_true nonempty)]

theorem given_ne_nil {header : Option Str} {value : Str} (is : given header = some value) :
    value ≠ [] := by
  simpa using (Option.filter_eq_some_iff.mp is).2

theorem decode_given (nesting : Nesting) (header : Option Str) :
    Scope.decode nesting (given header) = Scope.decode nesting header := by
  cases header with
  | none => rfl
  | some text =>
    cases text with
    | nil => rfl
    | cons c text => rw [given_some (List.cons_ne_nil c text)]

theorem fromIntrospection_sound (claim : Json.Value) : Scope.Sound (fromIntrospection claim) := by
  rw [fromIntrospection]
  split
  · next read => exact Scope.fromClaim_sound read
  · exact Scope.denyAll_sound

theorem scopeOf_sound (nesting : Nesting) (headers : Headers) :
    Scope.Sound (scopeOf nesting headers) := by
  rw [scopeOf]
  split_ifs
  · exact Scope.decode_sound nesting _
  · exact Scope.narrowed_sound (Scope.decode_sound nesting _) (Scope.decode_sound nesting _)
  · exact Scope.decode_sound nesting _

end Smo
