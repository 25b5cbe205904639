/-! Rows with a version that every write of a row raises, as optimistic concurrency keeps
them: a session writes a row it holds only when the version it loaded is still the
row's. Nothing here names a program. -/
namespace Smo.Versioned

variable {α : Type}

structure Row (α : Type) where
  value : α
  version : Nat
  deriving DecidableEq, Repr

/-- What a session holds is the row, or the row as it was at an earlier version. -/
def Holds (current : Nat → Option (Row α)) (id : Nat) (held : Row α) : Prop :=
  ∃ row, current id = some row ∧ held.version ≤ row.version ∧
    (held.version = row.version → held = row)

/-- Each row is as it was, or has been written. -/
def Later (current current' : Nat → Option (Row α)) : Prop :=
  ∀ id row, current id = some row →
    ∃ row', current' id = some row' ∧ (row' = row ∨ row.version < row'.version)

variable {current current' : Nat → Option (Row α)} {id : Nat} {held row : Row α}

theorem Later.refl : Later current current :=
  fun _ row found => ⟨row, found, Or.inl rfl⟩

theorem holds_loaded (found : current id = some row) : Holds current id row :=
  ⟨row, found, Nat.le_refl _, fun _ => rfl⟩

theorem Holds.later (h : Holds current id held) (later : Later current current') :
    Holds current' id held := by
  obtain ⟨row, found, le, same⟩ := h
  obtain ⟨row', found', rfl | written⟩ := later id row found
  · exact ⟨row', found', le, same⟩
  · refine ⟨row', found', by omega, fun equal => ?_⟩
    omega

theorem Holds.fresh (h : Holds current id held) (found : current id = some row)
    (version : row.version = held.version) : row = held := by
  obtain ⟨row', found', -, same⟩ := h
  obtain rfl := Option.some.inj (found.symm.trans found')
  exact (same version.symm).symm

end Smo.Versioned
