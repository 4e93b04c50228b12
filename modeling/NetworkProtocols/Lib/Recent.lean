import Mathlib.Data.Int.ModEq
import Mathlib.Data.List.DropRight
import Mathlib.Data.List.Nodup
import Mathlib.Tactic.Common

/-!
# The entries put in last

A sequence of entries of which the last `n` count: an entry among these is not put in again.
A cursor over a fixed number of positions goes on from the last one at the first.
-/

namespace NetworkProtocols
namespace Recent

section Entries

variable {α : Type*} [DecidableEq α] (n : ℕ)

/-- The entries so far, with one more unless it is among the last `n`. -/
def insert (entries : List α) (a : α) : List α :=
  if a ∈ entries.rtake n then entries else entries ++ [a]

def insertions (added : List α) : List α := added.foldl (insert n) []

theorem insertions_append (added : List α) (a : α) :
    insertions n (added ++ [a]) = insert n (insertions n added) a := by
  rw [insertions, List.foldl_append]
  rfl

variable {n}

omit [DecidableEq α] in
theorem rtake_length_le (entries : List α) : (entries.rtake n).length ≤ n := by
  rw [List.rtake, List.length_drop]
  omega

omit [DecidableEq α] in
theorem rtake_append (entries : List α) (a : α) :
    (entries ++ [a]).rtake n = if (entries.rtake n ++ [a]).length > n then
      (entries.rtake n ++ [a]).tail else entries.rtake n ++ [a] := by
  have hlength : (entries.rtake n).length = entries.length - (entries.length - n) := by
    rw [List.rtake, List.length_drop]
  rw [List.length_append, hlength, List.length_singleton]
  split
  · rename_i hfull
    rw [List.rtake, List.rtake, List.length_append, List.length_singleton, ← List.drop_one,
      ← List.drop_append_of_le_length (by omega), List.drop_drop]
    congr 1
    omega
  · rename_i hroom
    have hzero : entries.length - n = 0 := by omega
    rw [List.rtake, List.rtake, List.length_append, List.length_singleton, hzero,
      show entries.length + 1 - n = 0 by omega]
    rfl

theorem insertions_nodup (added : List α) : ((insertions n added).rtake n).Nodup := by
  induction added using List.reverseRecOn with
  | nil => simp [insertions]
  | append_singleton added a ih =>
    rw [insertions_append, insert]
    split
    · exact ih
    · rename_i hnew
      have happend : ((insertions n added).rtake n ++ [a]).Nodup := by
        rw [List.nodup_append_comm]
        exact List.nodup_cons.mpr ⟨hnew, ih⟩
      rw [rtake_append]
      split
      · exact happend.tail
      · exact happend

end Entries

section Cursor

variable {n i : ℕ}

def next (n i : ℕ) : ℕ := if i ≠ n - 1 then i + 1 else 0
def previous (n i : ℕ) : ℕ := if i ≠ 0 then i - 1 else n - 1

theorem next_lt (h : i < n) : next n i < n := by
  unfold next
  split <;> omega

theorem previous_lt (h : i < n) : previous n i < n := by
  unfold previous
  split <;> omega

theorem next_modEq (h : i < n) : (next n i : ℤ) ≡ i + 1 [ZMOD n] := by
  unfold next
  split
  · rw [Int.natCast_add, Int.natCast_one]
  · rw [show (i : ℤ) + 1 = n by omega]
    exact (Int.emod_self).symm

theorem previous_modEq (h : i < n) : (previous n i : ℤ) ≡ i - 1 [ZMOD n] := by
  unfold previous
  split
  · rw [Int.natCast_sub (by omega), Int.natCast_one]
  · rw [show i = 0 by omega, Int.natCast_sub (by omega)]
    simp [Int.ModEq]

theorem eq_emod (h : i < n) {k : ℤ} (hk : (i : ℤ) ≡ k [ZMOD n]) : (i : ℤ) = k % n := by
  rw [← hk, Int.emod_eq_of_lt (by omega) (by omega)]

end Cursor

end Recent
end NetworkProtocols
