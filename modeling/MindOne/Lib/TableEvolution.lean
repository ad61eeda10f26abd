import MindOne.Lib.KeyedTable

/-!
# Tables whose rows evolve

Between two states of a table every row stays under its key and becomes a related row.
Writes keep this as long as they replace a row by a related one; rows may be added but
not removed.
-/

universe u v

namespace KeyedTable

variable {κ : Type u} {ρ : Type v} [DecidableEq κ] {key : ρ → κ}

/-- Every row is still there, as a row that it may have become. -/
def Table.Evolves (R : ρ → ρ → Prop) (before after : Table key) : Prop :=
  ∀ k row, before.find k = some row → ∃ row', after.find k = some row' ∧ R row row'

variable {R : ρ → ρ → Prop} {table before after last : Table key}

theorem Table.Evolves.refl (hR : ∀ row, R row row) (table : Table key) :
    Table.Evolves R table table :=
  fun _ row h => ⟨row, h, hR row⟩

theorem Table.Evolves.trans (hR : ∀ a b c, R a b → R b c → R a c)
    (first : Table.Evolves R before after) (second : Table.Evolves R after last) :
    Table.Evolves R before last := by
  intro k row h
  obtain ⟨mid, hmid, hrow⟩ := first k row h
  obtain ⟨row', hrow', hlast⟩ := second k mid hmid
  exact ⟨row', hrow', hR _ _ _ hrow hlast⟩

/-- A row is added, or written over one that it may come from. -/
theorem Table.evolves_set (hR : ∀ row, R row row) {row : ρ}
    (h : ∀ old, table.find (key row) = some old → R old row) :
    Table.Evolves R table (table.set row) := by
  intro k old hold
  rw [Table.find_set]
  split
  · rename_i hk
    subst hk
    exact ⟨row, rfl, h old hold⟩
  · exact ⟨old, hold, hR old⟩

/-- Every row is changed by one function. -/
theorem Table.evolves_map {f : ρ → ρ} (hfind : ∀ k, after.find k = (before.find k).map f)
    (h : ∀ row, R row (f row)) : Table.Evolves R before after := by
  intro k row hrow
  rw [hfind, hrow]
  exact ⟨f row, rfl, h row⟩

end KeyedTable
