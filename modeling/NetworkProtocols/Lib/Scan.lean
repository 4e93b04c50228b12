import Mathlib.Data.List.Basic

/-!
# Bounded scans

A loop that counts up to a limit while its pointer runs over a memory, until it meets an element
that it looks for. A read behind the end of the memory is no result.
-/

namespace NetworkProtocols
namespace Scan

variable {α : Type*} {stop : α → Bool} {memory text rest : List α} {a : α} {left p : ℕ}

/-- How many turns are left, and the pointer, where the loop ends. -/
def scan (stop : α → Bool) (memory : List α) : ℕ → ℕ → Option (ℕ × ℕ)
  | 0, p => some (0, p)
  | left + 1, p =>
    match memory[p]? with
    | none => none
    | some a => if stop a then some (left + 1, p) else scan stop memory left (p + 1)

theorem scan_succ (hdrop : memory.drop p = a :: rest) (left : ℕ) :
    scan stop memory (left + 1) p =
      if stop a then some (left + 1, p) else scan stop memory left (p + 1) := by
  have hread : memory[p]? = some a := by
    rw [← List.head?_drop, hdrop, List.head?_cons]
  rw [scan, hread]

theorem drop_succ (hdrop : memory.drop p = a :: rest) : memory.drop (p + 1) = rest := by
  rw [← List.tail_drop, hdrop, List.tail_cons]

theorem scan_found (hdrop : memory.drop p = text ++ a :: rest) (htext : ∀ x ∈ text, stop x = false)
    (ha : stop a = true) (hleft : text.length < left) :
    scan stop memory left p = some (left - text.length, p + text.length) := by
  induction text generalizing left p with
  | nil =>
    obtain ⟨left, rfl⟩ := Nat.exists_eq_add_of_lt hleft
    rw [scan_succ hdrop, if_pos ha]
    rfl
  | cons x text ih =>
    obtain ⟨hx, htext⟩ := List.forall_mem_cons.mp htext
    rw [List.length_cons] at hleft
    obtain ⟨left, rfl⟩ : ∃ n, left = n + 1 := ⟨left - 1, by omega⟩
    rw [scan_succ hdrop, if_neg (by simp [hx]), ih (drop_succ hdrop) htext (by omega),
      List.length_cons, Nat.add_sub_add_right, Nat.add_assoc, Nat.add_comm 1]

theorem scan_past (hdrop : memory.drop p = text) (htext : ∀ x ∈ text, stop x = false)
    (hleft : text.length < left) : scan stop memory left p = none := by
  induction text generalizing left p with
  | nil =>
    obtain ⟨left, rfl⟩ := Nat.exists_eq_add_of_lt hleft
    have hread : memory[p]? = none := List.getElem?_eq_none (List.drop_eq_nil_iff.mp hdrop)
    rw [scan, hread]
  | cons x text ih =>
    obtain ⟨hx, htext⟩ := List.forall_mem_cons.mp htext
    rw [List.length_cons] at hleft
    obtain ⟨left, rfl⟩ : ∃ n, left = n + 1 := ⟨left - 1, by omega⟩
    rw [scan_succ hdrop, if_neg (by simp [hx])]
    exact ih (drop_succ hdrop) htext (by omega)

theorem scan_through (hdrop : memory.drop p = text ++ rest) (htext : ∀ x ∈ text, stop x = false) :
    scan stop memory text.length p = some (0, p + text.length) := by
  induction text generalizing p with
  | nil => rfl
  | cons x text ih =>
    obtain ⟨hx, htext⟩ := List.forall_mem_cons.mp htext
    rw [List.length_cons, scan_succ hdrop, if_neg (by simp [hx]), ih (drop_succ hdrop) htext,
      Nat.add_assoc, Nat.add_comm 1]

theorem scan_inside (h : p + left ≤ memory.length) :
    scan stop memory left p =
      some (left - ((memory.drop p).take left).findIdx stop,
        p + ((memory.drop p).take left).findIdx stop) := by
  induction left generalizing p with
  | zero => simp [scan]
  | succ left ih =>
    have hlt : p < memory.length := by omega
    have hdrop : memory.drop p = memory[p] :: memory.drop (p + 1) := List.drop_eq_getElem_cons hlt
    rw [scan_succ hdrop, hdrop, List.take_succ_cons, List.findIdx_cons, ih (by omega)]
    cases stop memory[p] with
    | true => rfl
    | false =>
      simp only [Bool.false_eq_true, if_false, cond_false, Nat.add_sub_add_right]
      rw [Nat.add_assoc, Nat.add_comm 1]

/-- What is behind the memory makes no difference to a loop that stays inside. -/
theorem scan_append {r : ℕ × ℕ} (h : scan stop memory left p = some r) (more : List α) :
    scan stop (memory ++ more) left p = some r := by
  induction left generalizing p with
  | zero => exact h
  | succ left ih =>
    unfold scan at h ⊢
    cases hread : memory[p]? with
    | none =>
      rw [hread] at h
      cases h
    | some a =>
      rw [hread] at h
      rw [List.getElem?_append_left (List.getElem?_eq_some_iff.mp hread).1, hread]
      dsimp only at h ⊢
      split at h
      · rename_i hstop
        rw [if_pos hstop, h]
      · rename_i hstop
        rw [if_neg hstop]
        exact ih h

theorem forall_of_any (h : text.any stop = false) : ∀ x ∈ text, stop x = false :=
  fun x hx => Bool.eq_false_iff.mpr (List.any_eq_false.mp h x hx)

theorem split_cases (stop : α → Bool) (l : List α) :
    (∀ x ∈ l, stop x = false) ∨
      ∃ text a rest, l = text ++ a :: rest ∧ (∀ x ∈ text, stop x = false) ∧ stop a = true := by
  cases hfind : l.find? stop with
  | none => exact .inl fun x hx => by simpa using List.find?_eq_none.mp hfind x hx
  | some a =>
    obtain ⟨ha, text, rest, hl, htext⟩ := List.find?_eq_some_iff_append.mp hfind
    exact .inr ⟨text, a, rest, hl, fun x hx => by simpa using htext x hx, ha⟩

end Scan
end NetworkProtocols
