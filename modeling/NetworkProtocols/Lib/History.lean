import Mathlib.Data.List.DropRight

/-!
# What a record tells

Properties of a record, the latest entry last, as the next entry changes them.
-/

namespace NetworkProtocols
namespace History

variable {O : Type*} {P Q : O → Prop} [DecidablePred P] {record : List O} {o : O}

/-- There is an entry with `Q` behind the last one with `P`. -/
def Since (P Q : O → Prop) [DecidablePred P] (record : List O) : Prop :=
  ∃ o ∈ record.rtakeWhile fun o => ¬ P o, Q o

instance [DecidablePred Q] (record : List O) : Decidable (Since P Q record) :=
  inferInstanceAs (Decidable (∃ o ∈ record.rtakeWhile fun o => ¬ P o, Q o))

theorem not_since_nil : ¬ Since P Q [] := by
  rintro ⟨o, ho, -⟩
  cases ho

theorem since_concat : Since P Q (record ++ [o]) ↔ ¬ P o ∧ (Since P Q record ∨ Q o) := by
  unfold Since
  rw [List.rtakeWhile_concat]
  by_cases ho : P o
  · simp [ho]
  · simp [ho, or_and_right, exists_or]

theorem since_concat_of_not (hP : ¬ P o) (hQ : ¬ Q o) :
    Since P Q (record ++ [o]) ↔ Since P Q record := by
  rw [since_concat, or_iff_left hQ, and_iff_right hP]

theorem not_since_concat (hP : P o) : ¬ Since P Q (record ++ [o]) :=
  fun h => (since_concat.mp h).1 hP

theorem since_concat_self (hP : ¬ P o) (hQ : Q o) : Since P Q (record ++ [o]) :=
  since_concat.mpr ⟨hP, .inr hQ⟩

end History
end NetworkProtocols
