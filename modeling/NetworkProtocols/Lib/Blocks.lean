import Mathlib.Data.List.Basic
import Mathlib.Tactic.Ring

/-!
# Cutting a list into blocks

A list is sent as full blocks of `n` elements and one final shorter block, which is
empty when the length is a multiple of `n`.
-/

namespace NetworkProtocols
namespace Blocks

variable {α : Type*} (n : ℕ) (l : List α)

/-- The `i`-th block, counted from zero. -/
def block (i : ℕ) : List α := (l.drop (n * i)).take n

def count : ℕ := l.length / n + 1

theorem block_length (i : ℕ) : (block n l i).length = min n (l.length - n * i) := by
  simp [block]

theorem block_length_le (i : ℕ) : (block n l i).length ≤ n := by
  rw [block_length]
  exact Nat.min_le_left _ _

theorem block_drop (i : ℕ) : (l.drop (n * i)).drop n = l.drop (n * (i + 1)) := by
  rw [List.drop_drop, Nat.mul_succ]

theorem take_succ (i : ℕ) : l.take (n * (i + 1)) = l.take (n * i) ++ block n l i := by
  rw [Nat.mul_succ, List.take_add, block]

variable {n}

theorem lt_count_iff (hn : 0 < n) (i : ℕ) : i < count n l ↔ n * i ≤ l.length := by
  rw [count, Nat.lt_succ_iff, Nat.le_div_iff_mul_le hn, Nat.mul_comm]

theorem block_short_iff (hn : 0 < n) {i : ℕ} (hi : i < count n l) :
    (block n l i).length < n ↔ i + 1 = count n l := by
  have hle := (lt_count_iff l hn i).mp hi
  have hnext := lt_count_iff l hn (i + 1)
  rw [Nat.mul_succ] at hnext
  rw [block_length]
  omega

theorem take_count (hn : 0 < n) : l.take (n * count n l) = l := by
  have h := lt_count_iff l hn (count n l)
  exact List.take_of_length_le (by omega)

theorem drop_count (hn : 0 < n) {i : ℕ} (hi : count n l ≤ i) : l.drop (n * i) = [] := by
  have h := lt_count_iff l hn i
  exact List.drop_eq_nil_of_le (by omega)

theorem count_pos : 0 < count n l := Nat.succ_pos _

theorem flatten_take (k : ℕ) : ((List.range k).map (block n l)).flatten = l.take (n * k) := by
  induction k with
  | zero => rw [Nat.mul_zero, List.take_zero, List.range_zero, List.map_nil, List.flatten_nil]
  | succ k ih =>
    rw [List.range_succ, List.map_append, List.flatten_append, ih, take_succ, List.map_singleton,
      List.flatten_singleton]

theorem blocks_eq_concat (hn : 0 < n) : ∃ full last,
    (List.range (count n l)).map (block n l) = full ++ [last] ∧ (∀ b ∈ full, b.length = n) ∧
      last.length < n := by
  refine ⟨(List.range (l.length / n)).map (block n l), block n l (l.length / n), ?_, ?_, ?_⟩
  · rw [count, List.range_succ, List.map_append, List.map_singleton]
  · intro b hb
    obtain ⟨i, hi, rfl⟩ := List.mem_map.mp hb
    rw [List.mem_range] at hi
    have hshort := block_short_iff l hn (Nat.lt_succ_of_lt hi)
    rw [count] at hshort
    have hle := block_length_le n l i
    omega
  · exact (block_short_iff l hn (Nat.lt_succ_self _)).mpr rfl

end Blocks
end NetworkProtocols
