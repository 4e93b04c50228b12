import NetworkProtocols.Lib.Bytes

/-!
# Lines of a byte stream

A stream of lines, each ended by CR LF, as it is and as it comes in segments. A loop that takes
a fresh buffer for each line loses what comes behind the line in the same segment.
-/

namespace NetworkProtocols
namespace Lines

/-- The first line and what is behind its end; none while there is no end of a line. -/
def cut : Bytes → Option (Bytes × Bytes)
  | [] => none
  | b :: s =>
    if b = CR ∧ s.head? = some LF then some ([], s.tail)
    else (cut s).map fun parts => (b :: parts.1, parts.2)

theorem cut_nil : cut [] = none := rfl

theorem cut_eq_some {s line rest : Bytes} (h : cut s = some (line, rest)) :
    s = line ++ CR :: LF :: rest := by
  induction s generalizing line with
  | nil => cases h
  | cons b s ih =>
    unfold cut at h
    split at h
    · rename_i hend
      obtain ⟨rfl, hhead⟩ := hend
      obtain ⟨rfl, rfl⟩ := Prod.mk.inj (Option.some.inj h)
      obtain ⟨tail, rfl⟩ := List.head?_eq_some_iff.mp hhead
      rfl
    · obtain ⟨⟨front, back⟩, hcut, heq⟩ := Option.map_eq_some_iff.mp h
      obtain ⟨rfl, rfl⟩ := Prod.mk.inj heq
      rw [List.cons_append, ← ih hcut]

/-- More of the stream leaves the first line as it is. -/
theorem cut_append {s line rest : Bytes} (h : cut s = some (line, rest)) (t : Bytes) :
    cut (s ++ t) = some (line, rest ++ t) := by
  induction s generalizing line with
  | nil => cases h
  | cons b s ih =>
    unfold cut at h
    rw [List.cons_append, cut]
    split at h
    · rename_i hend
      obtain ⟨rfl, hhead⟩ := hend
      obtain ⟨rfl, rfl⟩ := Prod.mk.inj (Option.some.inj h)
      obtain ⟨tail, rfl⟩ := List.head?_eq_some_iff.mp hhead
      rfl
    · rename_i hend
      obtain ⟨⟨front, back⟩, hcut, heq⟩ := Option.map_eq_some_iff.mp h
      obtain ⟨rfl, rfl⟩ := Prod.mk.inj heq
      have hhead : (s ++ t).head? = s.head? := by
        cases s with
        | nil => cases hcut
        | cons _ _ => rfl
      rw [hhead, if_neg hend, ih hcut, Option.map_some]

theorem cut_ne_none (line rest : Bytes) : cut (line ++ CR :: LF :: rest) ≠ none := by
  induction line with
  | nil => simp [cut]
  | cons b line ih =>
    rw [List.cons_append, cut]
    split
    · exact Option.some_ne_none _
    · rwa [ne_eq, Option.map_eq_none_iff]

theorem cut_nil_of_append {s t : Bytes} (h : cut (s ++ t) = none) : cut t = none := by
  cases ht : cut t with
  | none => rfl
  | some parts =>
    rw [cut_eq_some ht, ← List.append_assoc] at h
    exact absurd h (cut_ne_none _ _)

/-- A line that ends only with the bytes of `t` ends behind those of `s`. -/
theorem length_lt_of_cut {s t line rest : Bytes} (hs : cut s = none)
    (h : cut (s ++ t) = some (line, rest)) : s.length < line.length + 2 := by
  have heq : s ++ t = (line ++ [CR, LF]) ++ rest := by
    rw [cut_eq_some h, List.append_assoc]
    rfl
  rcases List.append_eq_append_iff.mp heq with ⟨more, hline, -⟩ | ⟨back, hfront, -⟩
  · have hlen := congrArg List.length hline
    simp only [List.length_append, List.length_cons, List.length_nil] at hlen
    cases more with
    | nil =>
      rw [List.append_nil] at hline
      rw [← hline] at hs
      exact absurd hs (cut_ne_none line [])
    | cons b more =>
      rw [List.length_cons] at hlen
      omega
  · rw [hfront, List.append_assoc] at hs
    exact absurd hs (cut_ne_none line back)

theorem cut_eq_none_iff {s : Bytes} : cut s = none ↔ ¬ [CR, LF] <:+: s := by
  constructor
  · rintro hcut ⟨line, rest, rfl⟩
    rw [List.append_assoc] at hcut
    exact cut_ne_none line rest hcut
  · intro hmem
    cases hcut : cut s with
    | none => rfl
    | some parts => exact absurd ⟨parts.1, parts.2, by simp [cut_eq_some hcut]⟩ hmem

theorem cut_of_infix {s t : Bytes} (h : t <:+: s) (hs : cut s = none) : cut t = none :=
  cut_eq_none_iff.mpr fun ht => cut_eq_none_iff.mp hs (ht.trans h)

theorem cut_of_notMem {s : Bytes} (h : CR ∉ s) : cut s = none :=
  cut_eq_none_iff.mpr fun hmem => h (hmem.subset List.mem_cons_self)

/-- Two texts put together have no end of a line if none is formed where they meet. -/
theorem cut_append_eq_none {s t : Bytes} (hs : cut s = none) (ht : cut t = none)
    (h : s.getLast? ≠ some CR ∨ t.head? ≠ some LF) : cut (s ++ t) = none := by
  rw [cut_eq_none_iff] at hs ht ⊢
  rw [List.infix_append_iff]
  rintro (hleft | hright | ⟨front, back, hparts, hfront, hback⟩)
  · exact hs hleft
  · exact ht hright
  · rcases front with _ | ⟨b, _ | ⟨b', front⟩⟩
    · rw [List.nil_append] at hparts
      exact ht (hparts ▸ hback.isInfix)
    · obtain ⟨rfl, rfl⟩ := List.cons.inj hparts
      rcases h with h | h
      · obtain ⟨rest, rfl⟩ := hfront
        exact h List.getLast?_concat
      · obtain ⟨rest, rfl⟩ := hback
        exact h rfl
    · have hwhole : front = [] ∧ back = [] := by
        have htail := (List.cons.inj (List.cons.inj hparts).2).2
        exact List.append_eq_nil_iff.mp htail.symm
      rw [hwhole.2, List.append_nil] at hparts
      exact hs (hparts ▸ hfront.isInfix)

theorem cut_first {s line rest : Bytes} (h : cut s = some (line, rest)) : cut line = none := by
  cases hcut : cut line with
  | none => rfl
  | some parts =>
    have hfirst := cut_append hcut (CR :: LF :: rest)
    rw [← cut_eq_some h, h] at hfirst
    obtain ⟨hline, -⟩ := Prod.mk.inj (Option.some.inj hfirst)
    have hlen := congrArg List.length (cut_eq_some hcut)
    rw [← hline, List.length_append, List.length_cons] at hlen
    omega

theorem cut_line {line : Bytes} (h : cut line = none) (rest : Bytes) :
    cut (line ++ CR :: LF :: rest) = some (line, rest) := by
  induction line with
  | nil => rfl
  | cons b line ih =>
    have hline := cut_of_infix (List.infix_cons List.infix_rfl) h
    have hhead : ¬ (b = CR ∧ (line ++ CR :: LF :: rest).head? = some LF) := by
      rintro ⟨rfl, hhead⟩
      cases line with
      | nil => exact absurd (Option.some.inj hhead) (by decide)
      | cons b' line =>
        rw [cut, if_pos ⟨rfl, hhead⟩] at h
        cases h
    rw [List.cons_append, cut, if_neg hhead, ih hline, Option.map_some]

section Stream

variable (last : Bytes → Bool)

/-- The lines of a stream up to the first that is the last, each with its position; `position`
is that of the stream. -/
def linesFrom : ℕ → ℕ → Bytes → List (ℕ × Bytes)
  | 0, _, _ => []
  | fuel+1, position, s =>
    match cut s with
    | none => []
    | some (line, rest) => (position, line) ::
        if last line then [] else linesFrom fuel (position + line.length + 2) rest

def lines (position : ℕ) (s : Bytes) : List (ℕ × Bytes) := linesFrom last s.length position s

theorem linesFrom_fuel {fuel fuel' : ℕ} {s : Bytes} (h : s.length ≤ fuel) (h' : s.length ≤ fuel')
    (position : ℕ) : linesFrom last fuel position s = linesFrom last fuel' position s := by
  induction fuel generalizing fuel' position s with
  | zero =>
    obtain rfl := List.length_eq_zero_iff.mp (Nat.le_zero.mp h)
    cases fuel' <;> rfl
  | succ fuel ih =>
    cases fuel' with
    | zero =>
      obtain rfl := List.length_eq_zero_iff.mp (Nat.le_zero.mp h')
      rfl
    | succ fuel' =>
      rw [linesFrom, linesFrom]
      cases hcut : cut s with
      | none => rfl
      | some parts =>
        obtain ⟨line, rest⟩ := parts
        have hlen := congrArg List.length (cut_eq_some hcut)
        simp only [List.length_append, List.length_cons] at hlen
        have hfuel : rest.length ≤ fuel := by omega
        have hfuel' : rest.length ≤ fuel' := by omega
        dsimp only
        rw [ih hfuel hfuel']

theorem lines_of_none {s : Bytes} (h : cut s = none) (position : ℕ) :
    lines last position s = [] := by
  unfold lines
  cases s.length with
  | zero => rfl
  | succ n => rw [linesFrom, h]

theorem lines_of_cut {s line rest : Bytes} (h : cut s = some (line, rest)) (position : ℕ) :
    lines last position s = (position, line) ::
      if last line then [] else lines last (position + line.length + 2) rest := by
  have hlen : s.length = line.length + rest.length + 1 + 1 := by
    rw [cut_eq_some h, List.length_append, List.length_cons, List.length_cons]
    omega
  unfold lines
  rw [hlen, linesFrom, h]
  have hfuel : rest.length ≤ line.length + rest.length + 1 := by omega
  dsimp only
  rw [linesFrom_fuel last hfuel (Nat.le_refl rest.length)]

def wire (ls : List Bytes) : Bytes := (ls.map (· ++ [CR, LF])).flatten

theorem lines_wire {ls : List Bytes} (h : ∀ line ∈ ls, cut line = none) (position : ℕ) :
    (lines (fun _ => false) position (wire ls)).map Prod.snd = ls := by
  induction ls generalizing position with
  | nil => rfl
  | cons line ls ih =>
    rw [List.forall_mem_cons] at h
    have hcut : cut (wire (line :: ls)) = some (line, wire ls) := by
      rw [wire, List.map_cons, List.flatten_cons, List.append_assoc]
      exact cut_line h.1 _
    rw [lines_of_cut _ hcut, if_neg Bool.false_ne_true, List.map_cons, ih h.2]

/-- No line starts in front of the stream. -/
theorem le_of_mem_lines {position : ℕ} {s : Bytes} {l : ℕ × Bytes}
    (h : l ∈ lines last position s) : position ≤ l.1 := by
  have hall : ∀ (fuel position : ℕ) (s : Bytes), l ∈ linesFrom last fuel position s →
      position ≤ l.1 := by
    intro fuel
    induction fuel with
    | zero => exact fun _ _ h => nomatch h
    | succ fuel ih =>
      intro position s h
      rw [linesFrom] at h
      cases hcut : cut s with
      | none =>
        rw [hcut] at h
        cases h
      | some parts =>
        rw [hcut] at h
        rcases List.mem_cons.mp h with rfl | h
        · exact Nat.le_refl _
        · split at h
          · cases h
          · have hrest := ih _ _ h
            omega
  exact hall _ _ _ h

theorem lines_eq_nil_iff {position : ℕ} {s : Bytes} :
    lines last position s = [] ↔ cut s = none := by
  cases hcut : cut s with
  | none => simp [lines_of_none last hcut]
  | some parts => simp [lines_of_cut last hcut]

theorem first_of_lines {position : ℕ} {s : Bytes} {l : ℕ × Bytes} {rest : List (ℕ × Bytes)}
    (h : lines last position s = l :: rest) : l.1 = position := by
  cases hcut : cut s with
  | none =>
    rw [lines_of_none last hcut] at h
    cases h
  | some parts =>
    rw [lines_of_cut last hcut] at h
    rw [← (List.cons.inj h).1]

/-- Of the lines only the last one may be the last. -/
theorem last_of_mem_dropLast {position : ℕ} {s : Bytes} {l : ℕ × Bytes}
    (h : l ∈ (lines last position s).dropLast) : last l.2 = false := by
  have hall : ∀ (fuel position : ℕ) (s : Bytes), l ∈ (linesFrom last fuel position s).dropLast →
      last l.2 = false := by
    intro fuel
    induction fuel with
    | zero => exact fun _ _ h => nomatch h
    | succ fuel ih =>
      intro position s h
      rw [linesFrom] at h
      cases hcut : cut s with
      | none =>
        rw [hcut] at h
        cases h
      | some parts =>
        rw [hcut] at h
        dsimp only at h
        cases hlast : last parts.1 with
        | true =>
          rw [hlast, if_pos rfl] at h
          cases h
        | false =>
          rw [hlast, if_neg (by decide)] at h
          generalize hrest : linesFrom last fuel _ _ = rest at h
          cases rest with
          | nil => cases h
          | cons next rest =>
            rw [List.dropLast_cons_of_ne_nil (List.cons_ne_nil _ _)] at h
            rcases List.mem_cons.mp h with rfl | h
            · exact hlast
            · exact ih _ _ (hrest ▸ h)
  exact hall _ _ _ h

/-- Where a line ends: behind its CR LF. -/
def lineEnd (l : ℕ × Bytes) : ℕ := l.1 + l.2.length + 2

/-- What has no end of a line lies in front of the end of each line. -/
theorem lt_lineEnd {position : ℕ} {buffer t : Bytes} {l : ℕ × Bytes} (hbuffer : cut buffer = none)
    (h : l ∈ lines last position (buffer ++ t)) : position + buffer.length < lineEnd l := by
  cases hcut : cut (buffer ++ t) with
  | none =>
    rw [lines_of_none last hcut] at h
    cases h
  | some parts =>
    obtain ⟨line, rest⟩ := parts
    have hlen := length_lt_of_cut hbuffer hcut
    rw [lines_of_cut last hcut] at h
    unfold lineEnd
    rcases List.mem_cons.mp h with rfl | h
    · dsimp only
      omega
    · split at h
      · cases h
      · have hle := le_of_mem_lines last h
        omega

end Stream

/-- Where the segments end. -/
def boundaries : ℕ → List Bytes → List ℕ
  | _, [] => []
  | position, segment :: segments =>
    (position + segment.length) :: boundaries (position + segment.length) segments

theorem le_of_mem_boundaries {position b : ℕ} {segments : List Bytes}
    (h : b ∈ boundaries position segments) : position ≤ b := by
  induction segments generalizing position with
  | nil => cases h
  | cons segment segments ih =>
    rcases List.mem_cons.mp h with rfl | h
    · exact Nat.le_add_right _ _
    · exact Nat.le_trans (Nat.le_add_right _ _) (ih h)

theorem not_mem_boundaries {position b : ℕ} (h : b < position) (segments : List Bytes) :
    b ∉ position :: boundaries position segments := by
  intro hmem
  rcases List.mem_cons.mp hmem with rfl | hmem
  · exact Nat.lt_irrefl _ h
  · exact Nat.not_lt_of_le (le_of_mem_boundaries hmem) h

theorem lineEnd_mem_skip (last : Bytes → Bool) (position : ℕ) {buffer : Bytes}
    (hbuffer : cut buffer = none) (segments : List Bytes) :
    (∀ l ∈ (lines last position (buffer ++ segments.flatten)).dropLast, lineEnd l ∈
        (position + buffer.length) :: boundaries (position + buffer.length) segments) ↔
      ∀ l ∈ (lines last position (buffer ++ segments.flatten)).dropLast,
        lineEnd l ∈ boundaries (position + buffer.length) segments := by
  refine forall₂_congr fun l hl => ?_
  have hlt := lt_lineEnd last hbuffer ((List.dropLast_sublist _).subset hl)
  rw [List.mem_cons, or_iff_right (Nat.ne_of_gt hlt)]

section ReadEach

variable {S : Type*} (handle : S → Bytes → S) (finished : S → Bool)

/-- The lines that a loop handles when it reads each line into a buffer of its own: it goes on
with the next segment. -/
def readEach : S → ℕ → Bytes → List Bytes → List (ℕ × Bytes)
  | _, _, _, [] => []
  | s, position, buffer, segment :: segments =>
    match cut (buffer ++ segment) with
    | none => readEach s position (buffer ++ segment) segments
    | some (line, _) => (position, line) ::
        if finished (handle s line) then []
        else readEach (handle s line) (position + (buffer ++ segment).length) [] segments

/-- Of the lines only the last one may end the loop. -/
def Continues : S → List Bytes → Prop
  | s, line :: next :: rest =>
    finished (handle s line) = false ∧ Continues (handle s line) (next :: rest)
  | _, _ => True

theorem readEach_of_none {buffer : Bytes} {segments : List Bytes}
    (h : cut (buffer ++ segments.flatten) = none) (s : S) (position : ℕ) :
    readEach handle finished s position buffer segments = [] := by
  induction segments generalizing buffer with
  | nil => rfl
  | cons segment segments ih =>
    rw [List.flatten_cons, ← List.append_assoc] at h
    have hcut : cut (buffer ++ segment) = none := by
      cases hcut : cut (buffer ++ segment) with
      | none => rfl
      | some parts =>
        rw [cut_append hcut] at h
        cases h
    rw [readEach, hcut]
    exact ih h

theorem le_of_mem_readEach {s : S} {position : ℕ} {buffer : Bytes} {segments : List Bytes}
    {l : ℕ × Bytes} (h : l ∈ readEach handle finished s position buffer segments) :
    position ≤ l.1 := by
  induction segments generalizing s position buffer with
  | nil => cases h
  | cons segment segments ih =>
    rw [readEach] at h
    split at h
    · exact ih h
    · rcases List.mem_cons.mp h with rfl | h
      · exact Nat.le_refl _
      · split at h
        · cases h
        · exact Nat.le_trans (Nat.le_add_right _ _) (ih h)

theorem readEach_ne_of_lt {position : ℕ} {l : ℕ × Bytes} (h : l.1 < position) (s : S)
    (buffer : Bytes) (segments : List Bytes) (rest : List (ℕ × Bytes)) :
    readEach handle finished s position buffer segments ≠ l :: rest := by
  intro heq
  have hle := le_of_mem_readEach handle finished (heq ▸ List.mem_cons_self)
  exact Nat.not_lt_of_le hle h

variable (last : Bytes → Bool)

/-- The loop handles the lines of the stream exactly when each line but the last one ends with
its segment and lets the loop go on. -/
theorem readEach_eq_lines_iff (hlast : ∀ s line, last line = true → finished (handle s line) = true)
    (s : S) (position : ℕ) {buffer : Bytes} (hbuffer : cut buffer = none)
    (segments : List Bytes) :
    readEach handle finished s position buffer segments =
        lines last position (buffer ++ segments.flatten) ↔
      (∀ l ∈ (lines last position (buffer ++ segments.flatten)).dropLast,
        lineEnd l ∈ boundaries (position + buffer.length) segments) ∧
      Continues handle finished s
        ((lines last position (buffer ++ segments.flatten)).map Prod.snd) := by
  induction segments generalizing s position buffer with
  | nil =>
    rw [List.flatten_nil, List.append_nil, lines_of_none last hbuffer]
    simp [readEach, Continues]
  | cons segment segments ih =>
    rw [List.flatten_cons, ← List.append_assoc, readEach, boundaries, Nat.add_assoc,
      ← List.length_append]
    cases hcut : cut (buffer ++ segment) with
    | none =>
      rw [ih s position hcut]
      exact and_congr_left' (lineEnd_mem_skip last position hcut segments).symm
    | some parts =>
      obtain ⟨line, rest⟩ := parts
      have hlen := congrArg List.length (cut_eq_some hcut)
      simp only [List.length_append, List.length_cons] at hlen
      rw [lines_of_cut last (cut_append hcut _)]
      dsimp only
      rw [List.cons.injEq, and_iff_right rfl]
      have hend : lineEnd (position, line) = position + line.length + 2 := rfl
      cases hmore : last line with
      | true => simp [hlast s line hmore, Continues]
      | false =>
        simp only [Bool.false_eq_true, if_false]
        cases htail : lines last (position + line.length + 2) (rest ++ segments.flatten) with
        | nil =>
          have hnone : cut ([] ++ segments.flatten) = none :=
            cut_nil_of_append ((lines_eq_nil_iff last).mp htail)
          rw [readEach_of_none handle finished hnone]
          simp [Continues]
        | cons next tail =>
          rw [List.dropLast_cons_of_ne_nil (List.cons_ne_nil _ _), List.forall_mem_cons,
            List.map_cons, List.map_cons, Continues, ← List.map_cons]
          cases hfinished : finished (handle s line) with
          | true => simp
          | false =>
            simp only [Bool.false_eq_true, if_false, true_and]
            cases rest with
            | nil =>
              -- The line ends with its segment, and the next one is read from there.
              have hq : position + (buffer ++ segment).length = position + line.length + 2 := by
                rw [List.length_append]
                simp only [List.length_nil] at hlen
                omega
              have hrest := ih (handle s line) (position + line.length + 2) cut_nil
              have hskip := lineEnd_mem_skip last (position + line.length + 2) cut_nil segments
              rw [List.nil_append] at htail
              rw [List.nil_append, htail, List.length_nil, Nat.add_zero] at hrest hskip
              rw [hq, hrest, hend, and_iff_right List.mem_cons_self]
              exact and_congr_left' hskip.symm
            | cons b rest =>
              -- The bytes behind the line are lost.
              have hlt : lineEnd (position, line) < position + (buffer ++ segment).length := by
                rw [hend, List.length_append]
                simp only [List.length_cons] at hlen
                omega
              have hnext := first_of_lines last htail
              rw [← hend] at hnext
              exact iff_of_false (readEach_ne_of_lt handle finished (hnext ▸ hlt) _ _ _ _)
                fun h => not_mem_boundaries hlt segments h.1.1

end ReadEach

end Lines
end NetworkProtocols
