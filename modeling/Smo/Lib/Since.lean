import Mathlib.Data.List.Basic

/-! What a list holds after its last item with a property: the record of a cycle in a history. Nothing
here names a program. -/
namespace Smo

variable {α : Type} {p : α → Prop} {items later : List α} {item : α}

/-- The items after the last one with the property. -/
def Since (p : α → Prop) (items later : List α) : Prop :=
  ∃ earlier first, items = earlier ++ first :: later ∧ p first ∧ ∀ item ∈ later, ¬ p item

namespace Since

theorem last (is : p item) : Since p (items ++ [item]) [] :=
  ⟨items, item, rfl, is, fun _ mem => absurd mem List.not_mem_nil⟩

theorem snoc (since : Since p items later) (other : ¬ p item) :
    Since p (items ++ [item]) (later ++ [item]) := by
  obtain ⟨earlier, first, rfl, is, none⟩ := since
  refine ⟨earlier, first, by simp, is, fun one mem => ?_⟩
  rcases List.mem_append.mp mem with old | new
  · exact none one old
  · exact List.mem_singleton.mp new ▸ other

theorem of_snoc (since : Since p (items ++ [item]) later) :
    (p item ∧ later = []) ∨ (¬ p item ∧ ∃ old, later = old ++ [item] ∧ Since p items old) := by
  obtain ⟨earlier, first, same, is, none⟩ := since
  rcases List.eq_nil_or_concat later with rfl | ⟨old, last, rfl⟩
  · obtain ⟨-, only⟩ := List.append_inj' same rfl
    cases only
    exact .inl ⟨is, rfl⟩
  · rw [List.concat_eq_append] at same none ⊢
    rw [← List.cons_append, ← List.append_assoc] at same
    obtain ⟨rfl, only⟩ := List.append_inj' same rfl
    cases only
    refine .inr ⟨none item (by simp), old, rfl, earlier, first, rfl, is, fun one mem => ?_⟩
    exact none one (List.mem_append_left _ mem)

theorem not_nil : ¬ Since p [] later := by
  rintro ⟨earlier, first, same, -⟩
  simp at same

end Since

end Smo
