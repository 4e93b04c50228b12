import NetworkProtocols.Dns.Entries

/-!
# Compressed names

`NameAt` is a name by the rules of the format: labels, then a zero octet or a pointer to an
earlier position where such a name begins. A name is kept as its stretches, the labels up to
each pointer. The decoder joins the labels of one stretch with dots, and puts a dot before
every further stretch, also before one that has no label.
-/

namespace NetworkProtocols
namespace Dns

open Bytes Program

def pointerBytes (q : ℕ) : Bytes := [UInt8.ofNat (192 + q / 256), UInt8.ofNat (q % 256)]

def WireLabels (labels : List Bytes) : Prop := ∀ l ∈ labels, l ≠ [] ∧ l.length ≤ 63

instance (labels : List Bytes) : Decidable (WireLabels labels) :=
  inferInstanceAs (Decidable (∀ _ ∈ _, _))

/-- A name of `n` bytes lies at `p`, with its labels stretch by stretch. -/
inductive NameAt (msg : Bytes) : ℕ → List (List Bytes) → ℕ → Prop
  | root {p labels rest} : WireLabels labels →
      msg.drop p = labels.flatMap labelBytes ++ 0 :: rest →
      NameAt msg p [labels] ((labels.flatMap labelBytes).length + 1)
  | pointer {p labels q rest stretches n} : WireLabels labels →
      msg.drop p = labels.flatMap labelBytes ++ (pointerBytes q ++ rest) →
      q ≠ 0 → q < 16384 → q < p + (labels.flatMap labelBytes).length →
      NameAt msg q stretches n →
      NameAt msg p (labels :: stretches) ((labels.flatMap labelBytes).length + 2)

def EveryHopHasLabel (stretches : List (List Bytes)) : Prop :=
  ∀ hop ∈ (stretches.dropWhile (·.isEmpty)).tail, hop ≠ []

instance (stretches : List (List Bytes)) : Decidable (EveryHopHasLabel stretches) :=
  inferInstanceAs (Decidable (∀ _ ∈ _, _))

theorem joinDots_eq (l : Bytes) (labels : List Bytes) :
    joinDots (l :: labels) = l ++ labels.flatMap (dot :: ·) := by
  induction labels generalizing l with
  | nil => simp [joinDots]
  | cons m labels ih => rw [joinDots_cons, if_neg (by simp), ih, List.flatMap_cons]; rfl

theorem joinDots_append {labels : List Bytes} (hne : labels ≠ []) (more : List Bytes) :
    joinDots (labels ++ more) = joinDots labels ++ more.flatMap (dot :: ·) := by
  cases labels with
  | nil => exact absurd rfl hne
  | cons l labels => rw [List.cons_append, joinDots_eq, joinDots_eq, List.flatMap_append,
      List.append_assoc]

theorem joinDots_ne_nil {labels : List Bytes} (hne : labels ≠ []) (h : ∀ l ∈ labels, l ≠ []) :
    joinDots labels ≠ [] := by
  cases labels with
  | nil => exact absurd rfl hne
  | cons l labels =>
    rw [joinDots_eq]
    exact fun hnil => h l List.mem_cons_self (List.append_eq_nil_iff.mp hnil).1

def joinStretches (stretches : List (List Bytes)) : Bytes :=
  stretches.foldl (fun name labels => appendName name (joinDots labels)) []

theorem foldl_appendName {name : Bytes} (hne : name ≠ []) (stretches : List (List Bytes)) :
    stretches.foldl (fun name labels => appendName name (joinDots labels)) name =
      name ++ stretches.flatMap fun labels => dot :: joinDots labels := by
  induction stretches generalizing name with
  | nil => simp
  | cons labels stretches ih =>
    rw [List.foldl_cons, appendName, if_neg hne, ih (by simp), List.flatMap_cons,
      List.append_assoc]

theorem dot_joinDots {labels : List Bytes} (hne : labels ≠ []) :
    dot :: joinDots labels = labels.flatMap (dot :: ·) := by
  cases labels with
  | nil => exact absurd rfl hne
  | cons l labels => rw [joinDots_eq, List.flatMap_cons]; rfl

theorem flatMap_dots_length (stretches : List (List Bytes)) :
    (stretches.flatMap fun labels => dot :: joinDots labels).length =
      (stretches.flatten.flatMap (dot :: ·)).length + stretches.count [] := by
  induction stretches with
  | nil => rfl
  | cons labels stretches ih =>
    rw [List.flatMap_cons, List.flatten_cons, List.flatMap_append, List.length_append, ih,
      List.length_append]
    by_cases hne : labels = []
    · subst hne
      simp [joinDots]
      omega
    · rw [dot_joinDots hne, List.count_cons_of_ne hne]
      omega

theorem flatMap_dots {stretches : List (List Bytes)} (h : ∀ hop ∈ stretches, hop ≠ []) :
    (stretches.flatMap fun labels => dot :: joinDots labels) =
      stretches.flatten.flatMap (dot :: ·) := by
  induction stretches with
  | nil => rfl
  | cons labels stretches ih =>
    rw [List.flatMap_cons, List.flatten_cons, List.flatMap_append,
      dot_joinDots (h labels List.mem_cons_self),
      ih fun hop hhop => h hop (List.mem_cons_of_mem labels hhop)]

/-- The stretches give the labels joined by single dots exactly when, behind the first label,
none of them is empty. -/
theorem joinStretches_iff {stretches : List (List Bytes)}
    (h : ∀ labels ∈ stretches, ∀ l ∈ labels, l ≠ []) :
    joinStretches stretches = joinDots stretches.flatten ↔ EveryHopHasLabel stretches := by
  induction stretches with
  | nil => simp [joinStretches, EveryHopHasLabel, joinDots]
  | cons labels stretches ih =>
    have htail : ∀ labels ∈ stretches, ∀ l ∈ labels, l ≠ [] :=
      fun m hm => h m (List.mem_cons_of_mem labels hm)
    by_cases hne : labels = []
    · subst hne
      have hjoin : joinStretches ([] :: stretches) = joinStretches stretches := by
        simp [joinStretches, appendName, joinDots]
      have hhop : EveryHopHasLabel ([] :: stretches) ↔ EveryHopHasLabel stretches := by
        simp [EveryHopHasLabel]
      rw [hjoin, hhop, List.flatten_cons, List.nil_append]
      exact ih htail
    · have hfirst := joinDots_ne_nil hne (h labels List.mem_cons_self)
      have hjoin : joinStretches (labels :: stretches) =
          joinDots labels ++ stretches.flatMap fun labels => dot :: joinDots labels := by
        rw [joinStretches, List.foldl_cons, appendName, if_pos rfl, foldl_appendName hfirst]
      have hhop : EveryHopHasLabel (labels :: stretches) ↔ ∀ hop ∈ stretches, hop ≠ [] := by
        simp [EveryHopHasLabel, hne]
      rw [hjoin, hhop, List.flatten_cons, joinDots_append hne, List.append_cancel_left_eq]
      constructor
      · intro heq hop hmem hnil
        have hlen := flatMap_dots_length stretches
        rw [heq] at hlen
        have hcount : 0 < stretches.count [] := List.count_pos_iff.mpr (hnil ▸ hmem)
        omega
      · exact flatMap_dots

theorem pointer_octet {k : ℕ} (h : k < 64) :
    isPointer (UInt8.ofNat (192 + k)) = true ∧ (UInt8.ofNat (192 + k) &&& 0x3F).toNat = k := by
  have hall : ∀ k : Fin 64, isPointer (UInt8.ofNat (192 + k.val)) = true ∧
      (UInt8.ofNat (192 + k.val) &&& 0x3F).toNat = k.val := by decide
  exact hall ⟨k, h⟩

theorem pointerBytes_run {q : ℕ} (h : q < 16384) (rest : Bytes) :
    LabelRun isPointer (pointerBytes q ++ rest) [] q 2 := by
  obtain ⟨hp, hhigh⟩ := pointer_octet (show q / 256 < 64 by omega)
  have hoffset : pointerOffset (UInt8.ofNat (192 + q / 256)) (UInt8.ofNat (q % 256)) = q := by
    rw [pointerOffset, hhigh, UInt8.toNat_ofNat']
    omega
  have hrun : LabelRun isPointer (pointerBytes q ++ rest) []
      (pointerOffset (UInt8.ofNat (192 + q / 256)) (UInt8.ofNat (q % 256))) 2 := .pointer hp
  rwa [hoffset] at hrun

theorem WireLabels.lengths {labels : List Bytes} (h : WireLabels labels) :
    ∀ l ∈ labels, l ≠ [] ∧ l.length < 256 ∧ isPointer (UInt8.ofNat l.length) = false := by
  intro l hl
  obtain ⟨hne, hlen⟩ := h l hl
  exact ⟨hne, by omega, isPointer_ofNat (by omega)⟩

theorem WireLabels.run {labels : List Bytes} (h : WireLabels labels) {tail : Bytes} {offset k : ℕ}
    (htail : LabelRun isPointer tail [] offset k) :
    LabelRun isPointer (labels.flatMap labelBytes ++ tail) labels offset
      ((labels.flatMap labelBytes).length + k) := by
  have hrun := LabelRun.labels h.lengths htail
  rwa [List.append_nil] at hrun

namespace NameAt

variable {msg : Bytes} {p n : ℕ} {stretches : List (List Bytes)}

theorem labels_ne_nil (h : NameAt msg p stretches n) :
    ∀ labels ∈ stretches, ∀ l ∈ labels, l ≠ [] := by
  induction h with
  | root hw => simpa using fun l hl => (hw l hl).1
  | pointer hw _ _ _ _ _ ih =>
    intro m hm
    rcases List.mem_cons.mp hm with rfl | hm
    · exact fun l hl => (hw l hl).1
    · exact ih m hm

/-- The first stretch lies at the place of the name; the loop joins the others to it. -/
theorem read (h : NameAt msg p stretches n) :
    ∃ labels hops offset, stretches = labels :: hops ∧
      LabelRun isPointer (msg.drop p) labels offset n ∧
      ∀ bytesCount name, (followPointers msg ⟨bytesCount, name, offset⟩).Returns
        ⟨bytesCount,
          hops.foldl (fun name labels => appendName name (joinDots labels)) name, 0⟩ := by
  induction h with
  | @root p labels rest hw hdrop =>
    refine ⟨labels, [], 0, rfl, ?_, fun _ _ => returns_loop.mpr ⟨.refl, rfl⟩⟩
    rw [hdrop]
    exact hw.run (.root rfl)
  | @pointer p labels q rest stretches n hw hdrop hne hlt hearlier hname ih =>
    obtain ⟨labels', hops, offset, rfl, hrun, hloop⟩ := ih
    refine ⟨labels, labels' :: hops, q, rfl, ?_, fun bytesCount name => ?_⟩
    · rw [hdrop]
      exact hw.run (pointerBytes_run hlt rest)
    · obtain ⟨hreach, hlast⟩ := returns_loop.mp
        (hloop bytesCount (appendName name (joinDots labels')))
      exact returns_loop.mpr ⟨.head (iterates_iff.mpr ⟨hne, labels', n, hrun, rfl⟩) hreach, hlast⟩

theorem readFullName_take (h : NameAt msg p stretches n) {m : ℕ} (hm : n ≤ m) :
    (readFullName msg ((msg.drop p).take m)).Returns ⟨n, joinStretches stretches, 0⟩ := by
  obtain ⟨labels, hops, offset, rfl, hrun, hloop⟩ := h.read
  rw [readFullName, returns_bind (stable_lift _) followPointers_stable]
  refine ⟨_, returns_lift.mpr (readName_of_run (hrun.take hm)), ?_⟩
  have hjoin : joinStretches (labels :: hops) =
      hops.foldl (fun name labels => appendName name (joinDots labels)) (joinDots labels) := by
    rw [joinStretches, List.foldl_cons, appendName, if_pos rfl]
  rw [hjoin]
  exact hloop n (joinDots labels)

theorem length_le (h : NameAt msg p stretches n) : n ≤ (msg.drop p).length := by
  obtain ⟨labels, hops, offset, -, hrun, -⟩ := h.read
  exact hrun.length_le

theorem readFullName (h : NameAt msg p stretches n) :
    (readFullName msg (msg.drop p)).Returns ⟨n, joinStretches stretches, 0⟩ := by
  have hread := h.readFullName_take h.length_le
  rwa [List.take_length] at hread

end NameAt

/-- The data of a record, at position `d`: at least one octet for an address, a name that
takes all of them for an alias. -/
def DataAt (msg : Bytes) (d : ℕ) (f : RecordFields) : Prop :=
  (f.type = QType.A → f.data ≠ []) ∧
  (f.type = QType.CNAME → ∃ stretches, NameAt msg d stretches f.data.length)

theorem FieldsAt.data_eq {msg : Bytes} {p : ℕ} {f : RecordFields} (h : FieldsAt msg p f) :
    f.data = (msg.drop (p + 10)).take f.data.length := by
  obtain ⟨-, rest, hdrop⟩ := h
  have hbytes : (fieldBytes f ++ rest).drop 10 = f.data ++ rest := by
    simp [fieldBytes, htons, htonl]
  rw [← List.drop_drop, hdrop, hbytes, List.take_left]

section Readers

variable {msg : Bytes} {p n : ℕ} {stretches : List (List Bytes)}

theorem readQuestion_nameAt (h : NameAt msg p stretches n) (hlen : p + n + 4 ≤ msg.length) :
    ∃ type cls, (readQuestion msg p).Returns (⟨joinStretches stretches, type, cls⟩, n + 4) := by
  obtain ⟨⟨type, cls⟩, hw⟩ := readTypeClass_some.mpr
    (show 4 ≤ (msg.drop (p + n)).length by rw [List.length_drop]; omega)
  exact ⟨type, cls, readQuestion_returns.mpr ⟨_, h.readFullName, hw, rfl, rfl⟩⟩

theorem recordText_dataAt {d : ℕ} {f : RecordFields} (h : DataAt msg d f)
    (hdata : f.data = (msg.drop d).take f.data.length) :
    ∃ text, (recordText msg f.type f.data).Returns text := by
  refine recordText_returns.mpr ⟨h.1, fun hC => ?_⟩
  obtain ⟨stretches, hname⟩ := h.2 hC
  have hread := hname.readFullName_take (Nat.le_refl _)
  rw [← hdata] at hread
  exact ⟨_, readFullName_returns.mp ⟨_, hread, rfl⟩⟩

theorem recordText_cname {d : ℕ} {f : RecordFields} (hC : f.type = QType.CNAME)
    (h : NameAt msg d stretches f.data.length)
    (hdata : f.data = (msg.drop d).take f.data.length) :
    (recordText msg f.type f.data).Returns (joinStretches stretches) := by
  have hread := h.readFullName_take (Nat.le_refl _)
  rw [← hdata] at hread
  rw [recordText, if_neg (by rw [hC]; decide), if_pos hC,
    returns_bind readFullName_stable fun _ => stable_pure _]
  exact ⟨_, hread, returns_pure.mpr rfl⟩

theorem readResourceRecord_nameAt {f : RecordFields} {text : Bytes}
    (h : NameAt msg p stretches n) (hf : FieldsAt msg (p + n) f)
    (ht : (recordText msg f.type f.data).Returns text) :
    (readResourceRecord msg p).Returns
      (⟨joinStretches stretches, f.type, f.cls, f.ttl, f.data, text⟩, n + 10 + f.data.length) :=
  readResourceRecord_returns.mpr ⟨_, h.readFullName, hf, ht, rfl, rfl⟩

/-- Where a compressed name gives its labels joined by single dots: at each of the three
places when every pointer behind a label leads to a label, and only then. -/
theorem compressed_name_iff (h : NameAt msg p stretches n) :
    (p + n + 4 ≤ msg.length →
      ((∃ q, (readQuestion msg p).Returns (q, n + 4) ∧ q.name = joinDots stretches.flatten) ↔
        EveryHopHasLabel stretches)) ∧
    (∀ f, FieldsAt msg (p + n) f → DataAt msg (p + n + 10) f →
      ((∃ r, (readResourceRecord msg p).Returns (r, n + 10 + f.data.length) ∧
          r.name = joinDots stretches.flatten) ↔ EveryHopHasLabel stretches)) ∧
    (∀ o owner k f, NameAt msg o owner k → FieldsAt msg (o + k) f → f.type = QType.CNAME →
      p = o + k + 10 → f.data.length = n →
      ((∃ r, (readResourceRecord msg o).Returns (r, k + 10 + n) ∧
          r.text = joinDots stretches.flatten) ↔ EveryHopHasLabel stretches)) := by
  rw [← joinStretches_iff h.labels_ne_nil]
  refine ⟨fun hlen => ?_, fun f hf hd => ?_, ?_⟩
  · obtain ⟨type, cls, hread⟩ := readQuestion_nameAt h hlen
    constructor
    · rintro ⟨q, hq, hname⟩
      rw [← hname, (Prod.mk.inj (readQuestion_stable.returns_unique hq hread)).1]
    · exact fun heq => ⟨_, hread, heq⟩
  · obtain ⟨text, ht⟩ := recordText_dataAt hd hf.data_eq
    have hread := readResourceRecord_nameAt h hf ht
    constructor
    · rintro ⟨r, hr, hname⟩
      rw [← hname, (Prod.mk.inj (readResourceRecord_stable.returns_unique hr hread)).1]
    · exact fun heq => ⟨_, hread, heq⟩
  · rintro o owner k f howner hf hC rfl rfl
    have hread := readResourceRecord_nameAt howner hf (recordText_cname hC h hf.data_eq)
    constructor
    · rintro ⟨r, hr, htext⟩
      rw [← htext, (Prod.mk.inj (readResourceRecord_stable.returns_unique hr hread)).1]
    · exact fun heq => ⟨_, hread, heq⟩

/-- Two questions: the root at 12, then the label `a` with a pointer back to the root. -/
def pointerToRoot : Bytes :=
  [0, 0, 0, 0, 0, 2, 0, 0, 0, 0, 0, 0, 0, 0, 1, 0, 1, 1, 97, 0xC0, 12, 0, 1, 0, 1]

theorem pointerToRoot_dot :
    NameAt pointerToRoot 17 [[[97]], []] 4 ∧
    (readQuestion pointerToRoot 17).Returns (⟨[97, dot], 1, 1⟩, 8) ∧
    joinDots [[[97]], []].flatten = [97] := by
  refine ⟨?_, ⟨1, rfl⟩, rfl⟩
  have hroot : NameAt pointerToRoot 12 [[]] 1 :=
    @NameAt.root _ 12 [] [0, 1, 0, 1, 1, 97, 0xC0, 12, 0, 1, 0, 1] (fun _ hl => nomatch hl) rfl
  exact @NameAt.pointer _ 17 [[97]] 12 [0, 1, 0, 1] _ _ (by decide) rfl (by decide) (by decide)
    (by decide) hroot

/-- Two questions: `b` at 12, then the label `a` with a pointer back to it. -/
def pointerToLabel : Bytes :=
  [0, 0, 0, 0, 0, 2, 0, 0, 0, 0, 0, 0, 1, 98, 0, 0, 1, 0, 1, 1, 97, 0xC0, 12, 0, 1, 0, 1]

theorem compressed_name_pointerToLabel :
    ∃ q, (readQuestion pointerToLabel 19).Returns (q, 8) ∧ q.name = [97, dot, 98] := by
  have hlabel : NameAt pointerToLabel 12 [[[98]]] 3 :=
    @NameAt.root _ 12 [[98]] [0, 1, 0, 1, 1, 97, 0xC0, 12, 0, 1, 0, 1] (by decide) rfl
  have hname : NameAt pointerToLabel 19 [[[97]], [[98]]] 4 :=
    @NameAt.pointer _ 19 [[97]] 12 [0, 1, 0, 1] _ _ (by decide) rfl (by decide) (by decide)
      (by decide) hlabel
  exact ((compressed_name_iff hname).1 (by decide)).mpr (by decide)

end Readers

end Dns
end NetworkProtocols
