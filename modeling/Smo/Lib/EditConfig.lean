import Mathlib.Logic.Function.Basic

/-! The edits of a configuration datastore (RFC 6241 section 7.2) whose data are objects
with attributes, each under its target. -/
namespace Smo.EditConfig

inductive Operation where
  | merge | replace | create | delete | remove
  deriving DecidableEq, Repr

inductive Refusal where
  | dataExists | dataMissing
  deriving DecidableEq, Repr

abbrev Object (α β : Type) := α → Option β

abbrev Config (κ α β : Type) := κ → Option (Object α β)

variable {κ α β : Type} [DecidableEq κ] [DecidableEq α]

/-- An object with the attributes written over it. -/
def overlay (object : Object α β) (attributes : List (α × β)) : Object α β :=
  fun name => (attributes.lookup name).or (object name)

/-- One edit of one target. -/
def edit (operation : Operation) (target : κ) (attributes : List (α × β))
    (config : Config κ α β) : Except Refusal (Config κ α β) :=
  match operation, config target with
  | .merge, object =>
    .ok (Function.update config target (some (overlay (object.getD fun _ => none) attributes)))
  | .replace, _ => .ok (Function.update config target (some (overlay (fun _ => none) attributes)))
  | .create, none => .ok (Function.update config target (some (overlay (fun _ => none) attributes)))
  | .create, some _ => .error .dataExists
  | .delete, some _ => .ok (Function.update config target none)
  | .delete, none => .error .dataMissing
  | .remove, _ => .ok (Function.update config target none)

variable {target : κ} {attributes : List (α × β)} {config config' : Config κ α β}

theorem overlay_overlay (object : Object α β) (attributes : List (α × β)) :
    overlay (overlay object attributes) attributes = overlay object attributes := by
  funext name
  unfold overlay
  cases attributes.lookup name <;> rfl

theorem create_refused : edit .create target attributes config = .error .dataExists ↔
    (config target).isSome := by
  unfold edit
  cases config target <;> simp

theorem created (ok : edit .create target attributes config = .ok config') :
    (config' target).isSome := by
  unfold edit at ok
  cases here : config target with
  | none =>
    rw [here] at ok
    cases ok
    simp
  | some object =>
    rw [here] at ok
    cases ok

theorem delete_refused : edit .delete target attributes config = .error .dataMissing ↔
    config target = none := by
  unfold edit
  cases config target <;> simp

theorem deleted (ok : edit .delete target attributes config = .ok config') :
    config' target = none := by
  unfold edit at ok
  cases here : config target with
  | none =>
    rw [here] at ok
    cases ok
  | some object =>
    rw [here] at ok
    cases ok
    simp

theorem remove_eq : edit .remove target attributes config =
    match edit .delete target attributes config with
    | .ok deleted => .ok deleted
    | .error _ => .ok config := by
  unfold edit
  cases here : config target with
  | none => simp only [← here, Function.update_eq_self]
  | some object => rfl

theorem edit_again {operation : Operation} (create : operation ≠ .create)
    (delete : operation ≠ .delete) (ok : edit operation target attributes config = .ok config') :
    edit operation target attributes config' = .ok config' := by
  cases operation with
  | merge =>
    cases ok
    simp only [edit, Function.update_self, Option.getD_some, overlay_overlay,
      Function.update_idem]
  | replace =>
    cases ok
    simp only [edit, Function.update_idem]
  | create => exact absurd rfl create
  | delete => exact absurd rfl delete
  | remove =>
    cases ok
    simp only [edit, Function.update_idem]

/-- An object kept as the list of its attributes. -/
abbrev Record (α β : Type) := List (α × β)

/-- A record with the attributes written over it. -/
def overlaid (record : Record α β) (attributes : List (α × β)) : Record α β :=
  attributes ++ record.filter fun entry => (attributes.lookup entry.1).isNone

/-- One edit of one object. -/
def editRecord (operation : Operation) (attributes : List (α × β))
    (object : Option (Record α β)) : Except Refusal (Option (Record α β)) :=
  match operation, object with
  | .merge, object => .ok (some (overlaid (object.getD []) attributes))
  | .replace, _ => .ok (some (overlaid [] attributes))
  | .create, none => .ok (some (overlaid [] attributes))
  | .create, some _ => .error .dataExists
  | .delete, some _ => .ok none
  | .delete, none => .error .dataMissing
  | .remove, _ => .ok none

omit [DecidableEq κ] in
theorem lookup_filter_absent (record : Record α β) (attributes : List (α × β)) {name : α}
    (absent : attributes.lookup name = none) :
    (record.filter fun entry => (attributes.lookup entry.1).isNone).lookup name =
      record.lookup name := by
  induction record with
  | nil => rfl
  | cons entry record ih =>
    obtain ⟨known, value⟩ := entry
    by_cases same : name = known
    · subst same
      simp [absent]
    · have other : (name == known) = false := by simpa using same
      rw [List.filter_cons]
      split
      · simp only [List.lookup_cons, other, ih]
      · simp only [List.lookup_cons, other, ih]

theorem lookup_overlaid (record : Record α β) (attributes : List (α × β)) (name : α) :
    (overlaid record attributes).lookup name =
      (attributes.lookup name).or (record.lookup name) := by
  unfold overlaid
  rw [List.lookup_append]
  cases written : attributes.lookup name with
  | none => simp only [Option.none_or, lookup_filter_absent record attributes written]
  | some value => rfl

end Smo.EditConfig
