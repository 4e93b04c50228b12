import Mathlib.Data.List.Basic
import NetworkProtocols.Lib.Program

/-!
# `std::vector` and assignment through its `operator[]`

`v[i] = x` is not checked. An assignment to an index that is no element, which `reserve`
leaves possible because it makes room but no elements, has no defined effect and stops the
execution.
-/

namespace NetworkProtocols

structure StdVector (α : Type) where
  elems : List α := []
  deriving DecidableEq

namespace StdVector

variable {α : Type}

def size (v : StdVector α) : ℕ := v.elems.length

def resize (v : StdVector α) (n : ℕ) (value : α) : StdVector α :=
  ⟨v.elems.take n ++ List.replicate (n - v.size) value⟩

def reserve (v : StdVector α) (_n : ℕ) : StdVector α := v

/-- `v[i] = x`. -/
def assign (v : StdVector α) (i : ℕ) (x : α) : Except Halt (StdVector α) :=
  if i < v.size then .ok ⟨v.elems.set i x⟩ else .error .noElement

@[simp] theorem resize_size (v : StdVector α) (n : ℕ) (value : α) :
    (v.resize n value).size = n := by
  simp only [size, resize, List.length_append, List.length_take, List.length_replicate]
  omega

theorem assign_eq_ok {v w : StdVector α} {i : ℕ} {x : α} :
    v.assign i x = .ok w ↔ i < v.size ∧ w = ⟨v.elems.set i x⟩ := by
  unfold assign
  split
  next h => simp only [Except.ok.injEq, h, true_and, eq_comm]
  next h => simp [h]

theorem assign_eq_error {v : StdVector α} {i : ℕ} {x : α} {e : Halt} :
    v.assign i x = .error e ↔ e = .noElement ∧ v.size ≤ i := by
  unfold assign
  split
  next h => simp; omega
  next h => simp only [Except.error.injEq, Nat.le_of_not_lt h, and_true, eq_comm]

theorem assign_size {v w : StdVector α} {i : ℕ} {x : α} (h : v.assign i x = .ok w) :
    w.size = v.size := by
  rw [(assign_eq_ok.mp h).2, size, List.length_set, size]

/-- The elements from `i` on become the entries `xs`. -/
def overwrite (v : StdVector α) (i : ℕ) (xs : List α) : StdVector α :=
  ⟨v.elems.take i ++ xs ++ v.elems.drop (i + xs.length)⟩

theorem overwrite_assign {v w : StdVector α} {i : ℕ} {x : α} (h : v.assign i x = .ok w)
    (xs : List α) : w.overwrite (i+1) xs = v.overwrite i (x :: xs) := by
  obtain ⟨hi, rfl⟩ := assign_eq_ok.mp h
  have hlen : (v.elems.take i).length = i := List.length_take_of_le (Nat.le_of_lt hi)
  have htake : (v.elems.set i x).take (i+1) = v.elems.take i ++ [x] := by
    rw [List.set_eq_take_append_cons_drop, if_pos (show i < v.elems.length from hi),
      List.take_append, hlen, Nat.add_sub_cancel_left, List.take_take]
    simp
  simp only [overwrite]
  rw [htake, List.drop_set_of_lt (by omega), List.length_cons, Nat.add_right_comm,
    Nat.add_assoc, List.append_assoc, List.append_assoc, List.append_assoc]
  rfl

@[simp] theorem overwrite_nil (v : StdVector α) (i : ℕ) : v.overwrite i [] = v := by
  simp [overwrite]

theorem overwrite_resize (v : StdVector α) (xs : List α) (value : α) :
    (v.resize xs.length value).overwrite 0 xs = ⟨xs⟩ := by
  have hs : (v.resize xs.length value).elems.length = xs.length := v.resize_size xs.length value
  simp only [overwrite, List.take_zero, List.nil_append, Nat.zero_add]
  rw [List.drop_eq_nil_of_le (Nat.le_of_eq hs), List.append_nil]

end StdVector
end NetworkProtocols
