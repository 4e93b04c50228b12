import NetworkProtocols.Lib.Bytes

/-!
# Line ends

A text with one symbol behind each line, and with two. A reader of lines takes what stands behind
the last end for a line too, if there is anything.
-/

namespace NetworkProtocols
namespace LineEnds

section Expand

variable {α : Type*} [DecidableEq α] {lf cr : α}

def expand (lf cr : α) (text : List α) : List α :=
  text.flatMap fun b => if b = lf then [cr, lf] else [b]

theorem expand_append (a b : List α) : expand lf cr (a ++ b) = expand lf cr a ++ expand lf cr b :=
  List.flatMap_append

theorem expand_line {line : List α} (h : lf ∉ line) : expand lf cr line = line := by
  induction line with
  | nil => rfl
  | cons b line ih =>
    rw [List.mem_cons, not_or] at h
    have hb : expand lf cr [b] = [b] := by simp [expand, Ne.symm h.1]
    have hcons : expand lf cr (b :: line) = expand lf cr [b] ++ expand lf cr line :=
      expand_append [b] line
    rw [hcons, hb, ih h.2, List.singleton_append]

theorem expand_lines {lines : List (List α)} (h : ∀ line ∈ lines, lf ∉ line) :
    expand lf cr (lines.map (· ++ [lf])).flatten = (lines.map (· ++ [cr, lf])).flatten := by
  induction lines with
  | nil => rfl
  | cons line lines ih =>
    have hend : expand lf cr [lf] = [cr, lf] := by simp [expand]
    rw [List.map_cons, List.flatten_cons, expand_append, expand_append,
      expand_line (h line List.mem_cons_self), hend,
      ih fun other hmem => h other (List.mem_cons_of_mem _ hmem), List.map_cons, List.flatten_cons]

theorem filter_expand (hne : cr ≠ lf) {text : List α} (h : cr ∉ text) :
    (expand lf cr text).filter (· ≠ cr) = text := by
  induction text with
  | nil => rfl
  | cons b text ih =>
    rw [List.mem_cons, not_or] at h
    have hone : (expand lf cr [b]).filter (· ≠ cr) = [b] := by
      by_cases hb : b = lf
      · simp [expand, hb, hne.symm]
      · simp [expand, hb, Ne.symm h.1]
    have hcons : expand lf cr (b :: text) = expand lf cr [b] ++ expand lf cr text :=
      expand_append [b] text
    rw [hcons, List.filter_append, hone, ih h.2, List.singleton_append]

theorem expand_ne_append {a b : List α} (h : b ≠ []) :
    expand lf cr (a ++ b) ≠ expand lf cr a := by
  intro heq
  rw [expand_append, eq_comm, List.self_eq_append_right] at heq
  obtain ⟨c, rest, rfl⟩ := List.exists_cons_of_ne_nil h
  rw [expand, List.flatMap_cons] at heq
  split at heq <;> cases heq

end Expand

section Lines

variable {α : Type*} {lf : α}

/-- The text ends with the end of a line, or is empty. -/
def Terminated (lf : α) (text : List α) : Prop := text = [] ∨ text.getLast? = some lf

instance [DecidableEq α] (text : List α) : Decidable (Terminated lf text) :=
  inferInstanceAs (Decidable (_ ∨ _))

theorem intercalate_concat (sep last : List α) (items : List (List α)) :
    sep.intercalate (items ++ [last]) = (items.map (· ++ sep)).flatten ++ last := by
  induction items with
  | nil => simp
  | cons item items ih =>
    rw [List.cons_append, List.intercalate_cons_of_ne_nil (by simp), ih, List.map_cons,
      List.flatten_cons, List.append_assoc, List.append_assoc, List.append_assoc]

theorem exists_lines [BEq α] [LawfulBEq α] (lf : α) (text : List α) : ∃ lines last,
    text.splitOn lf = lines ++ [last] ∧ text = (lines.map (· ++ [lf])).flatten ++ last ∧
    (∀ line ∈ lines, lf ∉ line) ∧ lf ∉ last := by
  obtain ⟨lines, last, hsplit⟩ :=
    (List.eq_nil_or_concat (text.splitOn lf)).resolve_left (List.splitOn_ne_nil lf text)
  rw [List.concat_eq_append] at hsplit
  refine ⟨lines, last, hsplit, ?_, fun line hmem => ?_, ?_⟩
  · rw [← intercalate_concat, ← hsplit, List.intercalate_splitOn]
  · exact Bytes.notMem_of_mem_splitOn (hsplit ▸ List.mem_append_left _ hmem)
  · exact Bytes.notMem_of_mem_splitOn (hsplit ▸ List.mem_append_right _ List.mem_cons_self)

theorem terminated_lines (lines : List (List α)) :
    Terminated lf (lines.map (· ++ [lf])).flatten := by
  rcases List.eq_nil_or_concat lines with rfl | ⟨init, line, rfl⟩
  · exact .inl rfl
  · right
    rw [List.concat_eq_append, List.map_append, List.flatten_append, List.map_singleton,
      List.flatten_singleton, ← List.append_assoc, List.getLast?_concat]

theorem not_terminated {front last : List α} (h : lf ∉ last) (hne : last ≠ []) :
    ¬ Terminated lf (front ++ last) := by
  obtain ⟨init, b, rfl⟩ := (List.eq_nil_or_concat last).resolve_left hne
  rw [List.concat_eq_append] at h
  rintro (hnil | hlast)
  · simp at hnil
  · rw [List.concat_eq_append, ← List.append_assoc, List.getLast?_concat, Option.some_inj] at hlast
    exact h (by simp [hlast])

end Lines

end LineEnds
end NetworkProtocols
