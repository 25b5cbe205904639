import Mathlib.Data.Set.Finite.Basic
import Mathlib.Data.Fintype.EquivFin

/-! Sets given by lists of choices: only some items, all but some, or a kind of choice of which
nothing is known. When keeping only the allowed items of each list narrows the set. -/
namespace Smo.Selection

variable {κ α : Type}

inductive Choice (κ α : Type) where
  | only (items : List α)
  | except (items : List α)
  | other (kind : κ) (items : List α)

namespace Choice

def set (unknown : κ → List α → Set α) : Choice κ α → Set α
  | only items => {a | a ∈ items}
  | except items => {a | a ∉ items}
  | other kind items => unknown kind items

/-- The choice with the allowed ones of its items. -/
def keep (allowed : α → Bool) : Choice κ α → Choice κ α
  | only items => only (items.filter allowed)
  | except items => except (items.filter allowed)
  | other kind items => other kind (items.filter allowed)

end Choice

/-- What all choices of a list select. -/
def selection (unknown : κ → List α → Set α) (choices : List (Choice κ α)) : Set α :=
  {a | ∀ choice ∈ choices, a ∈ choice.set unknown}

/-- What the known choices of a list select. -/
def chosen (choices : List (Choice κ α)) : Set α := selection (fun _ _ => Set.univ) choices

theorem selection_subset_chosen (unknown : κ → List α → Set α) (choices : List (Choice κ α)) :
    selection unknown choices ⊆ chosen choices := by
  intro a selected choice mem
  have := selected choice mem
  cases choice with
  | only | except => exact this
  | other => trivial

theorem selection_subset_iff {choices : List (Choice κ α)} {region : Set α} :
    (∀ unknown, selection unknown choices ⊆ region) ↔ chosen choices ⊆ region :=
  ⟨fun h => h _, fun h unknown => (selection_subset_chosen unknown choices).trans h⟩

theorem exists_only [Infinite α] {choices : List (Choice κ α)} {region : List α}
    (bounded : chosen choices ⊆ {a | a ∈ region}) : ∃ items, .only items ∈ choices := by
  classical
  by_contra none
  let named := region ++ choices.flatMap fun choice =>
    match choice with
    | .except items => items
    | _ => []
  obtain ⟨a, fresh⟩ := Infinite.exists_notMem_finset named.toFinset
  rw [List.mem_toFinset] at fresh
  have selected : a ∈ chosen choices := by
    intro choice mem
    cases choice with
    | only items => exact absurd ⟨items, mem⟩ none
    | except items =>
      exact fun within => fresh (List.mem_append_right _ (List.mem_flatMap.mpr ⟨_, mem, within⟩))
    | other => trivial
  exact fresh (List.mem_append_left _ (bounded selected))

section Keep

variable {allowed : α → Bool} {choices : List (Choice κ α)}

theorem mem_chosen_keep {a : α} {items : List α} (mem : .only items ∈ choices)
    (selected : a ∈ chosen (choices.map (Choice.keep allowed))) : a ∈ items ∧ allowed a = true := by
  have := selected _ (List.mem_map_of_mem mem)
  simpa [Choice.keep, Choice.set] using this

theorem chosen_keep_subset {items : List α} (mem : .only items ∈ choices) :
    chosen (choices.map (Choice.keep allowed)) ⊆ {a | allowed a = true} :=
  fun _ selected => (mem_chosen_keep mem selected).2

theorem keep_narrows_iff {items : List α} (mem : .only items ∈ choices) :
    (∀ unknown, selection unknown (choices.map (Choice.keep allowed)) ⊆ selection unknown choices) ↔
      (∀ kind items, .other kind items ∈ choices → ∀ a ∈ items, allowed a = true) ∨
        chosen (choices.map (Choice.keep allowed)) = ∅ := by
  classical
  constructor
  · intro narrows
    by_contra neither
    push Not at neither
    obtain ⟨⟨kind, items, otherMem, a, aMem, forbidden⟩, b, chosen_⟩ := neither
    -- the unknown choices that keep `b` unless they list the forbidden item
    let unknown : κ → List α → Set α := fun _ items => {b | a ∉ items}
    have kept : b ∈ selection unknown (choices.map (Choice.keep allowed)) := by
      intro choice there
      have known := chosen_ choice there
      obtain ⟨origin, -, rfl⟩ := List.mem_map.mp there
      cases origin with
      | only | except => exact known
      | other kind items => simp [Choice.keep, Choice.set, unknown, forbidden]
    exact narrows unknown kept (.other kind items) otherMem aMem
  · rintro (keeps | empty) unknown b selected choice there
    · have known := selected _ (List.mem_map_of_mem there)
      have allowed_ := chosen_keep_subset mem (selection_subset_chosen _ _ selected)
      cases choice with
      | only items => exact List.mem_of_mem_filter known
      | except items =>
        exact fun within => known (List.mem_filter.mpr ⟨within, allowed_⟩)
      | other kind items =>
        have all : items.filter allowed = items :=
          List.filter_eq_self.mpr (keeps kind items there)
        simpa only [Choice.keep, Choice.set, all] using known
    · have := selection_subset_chosen _ _ selected
      rw [empty] at this
      exact absurd this (Set.notMem_empty b)

end Keep

end Smo.Selection
