import NetworkProtocols.Lib.NetworkOrder

/-!
# Domain names as labels

`DNSMessage::encodeDomainName`, and the two readers of a name: `DNSMessage::decodeDomainName`
and `DNSQuery::decodeName`, which knows no compression pointers. `LabelRun` says how the
labels of a name lie in a buffer up to its zero octet or its pointer.
-/

namespace NetworkProtocols
namespace Dns

/-- The character `'.'`. -/
def dot : Byte := 46

def joinDots (labels : List Bytes) : Bytes := [dot].intercalate labels

def labelBytes (label : Bytes) : Bytes := UInt8.ofNat label.length :: label

/-- `encodeDomainName`: `p0` and `p1` enclose one piece between dots after the other. -/
def encodeDomainName (name : Bytes) : Bytes := (name.splitOn dot).flatMap labelBytes ++ [0]

/-- The bytes read, the name and the offset of the pointer that ends it, or zero. -/
structure NameRead where
  bytesCount : ℕ
  name : Bytes
  offset : ℕ
  deriving DecidableEq

namespace NameRead

def push (x : Byte) (r : NameRead) : NameRead :=
  { r with bytesCount := r.bytesCount + 1, name := x :: r.name }

end NameRead

/-- `*data & 0xC0`. -/
def isPointer (x : Byte) : Bool := x &&& 0xC0 != 0

def pointerOffset (x y : Byte) : ℕ := 256 * (x &&& 0x3F).toNat + y.toNat

def readPointer (x : Byte) : Bytes → Except Halt NameRead
  | [] => .error .outside
  | y :: _ => .ok { bytesCount := 2, name := [], offset := pointerOffset x y }

/-- The loops over the labels. `length` octets of the current label are left; at zero,
`data` stands at the octet behind the label. -/
def readLabels (pointer : Byte → Bool) : ℕ → Bytes → Except Halt NameRead
  | _, [] => .error .outside
  | length+1, x :: data => (readLabels pointer length data).map (NameRead.push x)
  | 0, x :: data =>
    if pointer x then readPointer x data
    else if x = 0 then .ok { bytesCount := 1, name := [], offset := 0 }
    else (readLabels pointer x.toNat data).map (NameRead.push dot)

/-- Read the name at the front of the bytes. -/
def readName (pointer : Byte → Bool) : Bytes → Except Halt NameRead
  | [] => .error .outside
  | x :: data =>
    if pointer x then readPointer x data
    else if x = 0 then .ok { bytesCount := 1, name := [], offset := 0 }
    else (readLabels pointer x.toNat data).map
      fun r => { r with bytesCount := r.bytesCount + 1 }

def decodeDomainName (data : Bytes) : Except Halt NameRead := readName isPointer data

/-- `DNSQuery::decodeName`. -/
def decodeName (data : Bytes) : Except Halt NameRead := readName (fun _ => false) data

/-- The labels at the front of a buffer, the offset of the pointer that ends them (zero when
a zero octet does), and the number of bytes. -/
inductive LabelRun (pointer : Byte → Bool) : Bytes → List Bytes → ℕ → ℕ → Prop
  | root {rest} : pointer 0 = false → LabelRun pointer (0 :: rest) [] 0 1
  | pointer {x y rest} : pointer x = true →
      LabelRun pointer (x :: y :: rest) [] (pointerOffset x y) 2
  | label {l data labels offset n} : l ≠ [] → l.length < 256 →
      pointer (UInt8.ofNat l.length) = false → LabelRun pointer data labels offset n →
      LabelRun pointer (labelBytes l ++ data) (l :: labels) offset ((labelBytes l).length + n)

section Reader

variable {pointer : Byte → Bool}

theorem joinDots_cons (l : Bytes) (labels : List Bytes) :
    joinDots (l :: labels) = if labels = [] then l else l ++ dot :: joinDots labels := by
  cases labels with
  | nil => simp [joinDots]
  | cons m labels => simp [joinDots]

/-- An encoded name is two bytes longer than its text. -/
theorem encodeDomainName_length (name : Bytes) :
    (encodeDomainName name).length = name.length + 2 := by
  have hpieces : ∀ pieces : List Bytes, pieces ≠ [] →
      (pieces.flatMap labelBytes).length = (joinDots pieces).length + 1 := by
    intro pieces hne
    induction pieces with
    | nil => exact absurd rfl hne
    | cons piece pieces ih =>
      rw [List.flatMap_cons, List.length_append, labelBytes, List.length_cons, joinDots_cons]
      by_cases hnil : pieces = []
      · rw [if_pos hnil, hnil]
        rfl
      · rw [if_neg hnil, ih hnil, List.length_append, List.length_cons]
        omega
  have hne : name.splitOn dot ≠ [] := List.splitOn_ne_nil dot name
  have hjoin : joinDots (name.splitOn dot) = name := List.intercalate_splitOn dot
  rw [encodeDomainName, List.length_append, hpieces _ hne, hjoin]
  rfl

theorem readLabels_append (l data : Bytes) :
    readLabels pointer l.length (l ++ data) =
      (readLabels pointer 0 data).map
        fun r => { r with bytesCount := l.length + r.bytesCount, name := l ++ r.name } := by
  induction l with
  | nil => cases h : readLabels pointer 0 data <;> simp [Except.map, h]
  | cons x l ih =>
    rw [List.length_cons, List.cons_append, readLabels, ih]
    cases readLabels pointer 0 data with
    | error e => rfl
    | ok r => simp [Except.map, NameRead.push, Nat.add_right_comm]

theorem readLabels_short {k : ℕ} {data : Bytes} (h : data.length ≤ k) :
    readLabels pointer k data = .error .outside := by
  induction data generalizing k with
  | nil => simp [readLabels]
  | cons x data ih =>
    obtain ⟨k, rfl⟩ : ∃ m, k = m + 1 := ⟨k - 1, by simp only [List.length_cons] at h; omega⟩
    rw [readLabels, ih (by simpa using h)]
    rfl

theorem ofNat_length_toNat {l : Bytes} (h : l.length < 256) :
    (UInt8.ofNat l.length).toNat = l.length := by
  rw [UInt8.toNat_ofNat']
  omega

theorem ofNat_length_ne_zero {l : Bytes} (hl : l ≠ []) (h : l.length < 256) :
    UInt8.ofNat l.length ≠ 0 := by
  intro hz
  have hn := ofNat_length_toNat h
  rw [hz] at hn
  exact hl (List.length_eq_zero_iff.mp hn.symm)

theorem readLabels_of_run {data : Bytes} {labels : List Bytes} {offset n : ℕ}
    (h : LabelRun pointer data labels offset n) :
    readLabels pointer 0 data = .ok {
      bytesCount := n
      name := if labels = [] then [] else dot :: joinDots labels
      offset := offset } := by
  induction h with
  | root h0 => simp [readLabels, h0]
  | pointer hp => simp [readLabels, hp, readPointer]
  | @label l data labels offset n hl hlen hp _ ih =>
    rw [labelBytes, List.cons_append, readLabels, if_neg (by simp [hp]),
      if_neg (ofNat_length_ne_zero hl hlen), ofNat_length_toNat hlen, readLabels_append, ih]
    simp only [Except.map, NameRead.push, joinDots_cons, reduceCtorEq, if_false,
      List.length_cons, Except.ok.injEq, NameRead.mk.injEq, and_true]
    constructor
    · omega
    · split <;> simp

theorem readName_of_run {data : Bytes} {labels : List Bytes} {offset n : ℕ}
    (h : LabelRun pointer data labels offset n) :
    readName pointer data = .ok { bytesCount := n, name := joinDots labels, offset := offset } := by
  cases h with
  | root h0 => simp [readName, h0, joinDots]
  | pointer hp => simp [readName, hp, readPointer, joinDots]
  | @label l data labels offset n hl hlen hp hrun =>
    rw [labelBytes, List.cons_append, readName, if_neg (by simp [hp]),
      if_neg (ofNat_length_ne_zero hl hlen), ofNat_length_toNat hlen, readLabels_append,
      readLabels_of_run hrun]
    simp only [Except.map, joinDots_cons, List.length_cons, Except.ok.injEq, NameRead.mk.injEq,
      and_true]
    constructor
    · omega
    · split <;> simp

/-- Where no labels with their end lie, the loops leave the buffer. -/
theorem run_or_outside (data : Bytes) :
    (∃ labels offset n, LabelRun pointer data labels offset n) ∨
      readLabels pointer 0 data = .error .outside := by
  induction h : data.length using Nat.strongRecOn generalizing data with
  | ind k ih =>
    match data with
    | [] => exact .inr rfl
    | x :: data =>
      by_cases hp : pointer x = true
      · match data with
        | [] => exact .inr (by simp [readLabels, hp, readPointer])
        | y :: rest => exact .inl ⟨_, _, _, .pointer hp⟩
      by_cases hz : x = 0
      · subst hz
        exact .inl ⟨_, _, _, .root (by simpa using hp)⟩
      rw [readLabels, if_neg hp, if_neg hz]
      rcases Nat.le_total data.length x.toNat with hshort | hlong
      · exact .inr (by rw [readLabels_short hshort]; rfl)
      have hlen : (data.take x.toNat).length = x.toNat := List.length_take_of_le hlong
      have hx : UInt8.ofNat (data.take x.toNat).length = x := by rw [hlen, UInt8.ofNat_toNat]
      have hne : data.take x.toNat ≠ [] := by
        intro hnil
        rw [hnil] at hlen
        exact hz (UInt8.toNat.inj hlen.symm)
      have hsplit : readLabels pointer x.toNat data = _ :=
        (congrArg₂ (readLabels pointer) hlen (List.take_append_drop _ data)).symm.trans
          (readLabels_append (data.take x.toNat) (data.drop x.toNat))
      simp only [List.length_cons] at h
      rcases ih (data.drop x.toNat).length (by rw [List.length_drop]; omega) _ rfl with
        ⟨labels, offset, n, hrun⟩ | hout
      · have hl : LabelRun pointer (labelBytes (data.take x.toNat) ++ data.drop x.toNat) _ _ _ :=
          .label hne (by rw [hlen]; exact x.toNat_lt) (by rw [hx]; simpa using hp) hrun
        rw [labelBytes, hx, List.cons_append, List.take_append_drop] at hl
        exact .inl ⟨_, _, _, hl⟩
      · rw [hsplit, hout]
        exact .inr rfl

theorem readName_of_no_run {data : Bytes}
    (h : ¬ ∃ labels offset n, LabelRun pointer data labels offset n) :
    readName pointer data = .error .outside := by
  have hout := (run_or_outside data).resolve_left h
  match data, h, hout with
  | [], _, _ => rfl
  | x :: data, h, hout =>
    by_cases hp : pointer x = true
    · simpa [readName, readLabels, hp] using hout
    by_cases hz : x = 0
    · simp [readLabels, hz] at hout
      split at hout <;> simp_all
    simp only [readLabels, hp, hz, if_false] at hout
    simp only [readName, hp, hz, if_false]
    cases hr : readLabels pointer x.toNat data with
    | ok r => rw [hr] at hout; cases hout
    | error e => rw [hr] at hout; exact hout ▸ rfl

theorem readName_eq_ok {data : Bytes} {r : NameRead} :
    readName pointer data = .ok r ↔
      ∃ labels, LabelRun pointer data labels r.offset r.bytesCount ∧ r.name = joinDots labels := by
  constructor
  · intro h
    by_cases hrun : ∃ labels offset n, LabelRun pointer data labels offset n
    · obtain ⟨labels, offset, n, hrun⟩ := hrun
      rw [readName_of_run hrun] at h
      obtain rfl := Except.ok.inj h
      exact ⟨labels, hrun, rfl⟩
    · rw [readName_of_no_run hrun] at h
      cases h
  · rintro ⟨labels, hrun, hname⟩
    rw [readName_of_run hrun, ← hname]

theorem readName_eq_error {data : Bytes} {e : Halt} :
    readName pointer data = .error e ↔
      e = .outside ∧ ¬ ∃ labels offset n, LabelRun pointer data labels offset n := by
  by_cases hrun : ∃ labels offset n, LabelRun pointer data labels offset n
  · obtain ⟨labels, offset, n, hrun⟩ := hrun
    simp only [readName_of_run hrun, reduceCtorEq, false_iff, not_and, not_not]
    exact fun _ => ⟨labels, offset, n, hrun⟩
  · simp [readName_of_no_run hrun, hrun, eq_comm]

theorem readName_reader (data : Bytes) : Reader (readName pointer data) :=
  fun _ h => (readName_eq_error.mp h).1

end Reader

section Run

variable {pointer : Byte → Bool}

theorem LabelRun.unique {data : Bytes} {labels labels' : List Bytes} {offset offset' n n' : ℕ}
    (h : LabelRun pointer data labels offset n) (h' : LabelRun pointer data labels' offset' n') :
    offset = offset' ∧ n = n' := by
  have hr := (readName_of_run h).symm.trans (readName_of_run h')
  simp only [Except.ok.injEq, NameRead.mk.injEq] at hr
  exact ⟨hr.2.2, hr.1⟩

theorem LabelRun.length_le {data : Bytes} {labels : List Bytes} {offset n : ℕ}
    (h : LabelRun pointer data labels offset n) : n ≤ data.length := by
  induction h with
  | root => simp
  | pointer => simp
  | label _ _ _ _ ih =>
    rw [List.length_append]
    omega

theorem LabelRun.take {data : Bytes} {labels : List Bytes} {offset n m : ℕ}
    (h : LabelRun pointer data labels offset n) (hm : n ≤ m) :
    LabelRun pointer (data.take m) labels offset n := by
  induction h generalizing m with
  | root h0 =>
    obtain ⟨k, rfl⟩ : ∃ k, m = k + 1 := ⟨m - 1, by omega⟩
    exact .root h0
  | pointer hp =>
    obtain ⟨k, rfl⟩ : ∃ k, m = k + 2 := ⟨m - 2, by omega⟩
    exact .pointer hp
  | @label l data labels offset n hl hlen hp _ ih =>
    obtain ⟨k, rfl⟩ : ∃ k, m = (labelBytes l).length + k := ⟨m - (labelBytes l).length, by omega⟩
    rw [List.take_length_add_append]
    exact .label hl hlen hp (ih (by omega))

theorem LabelRun.labels {data : Bytes} {labels tail : List Bytes} {offset n : ℕ}
    (hlabels : ∀ l ∈ labels, l ≠ [] ∧ l.length < 256 ∧ pointer (UInt8.ofNat l.length) = false)
    (h : LabelRun pointer data tail offset n) :
    LabelRun pointer (labels.flatMap labelBytes ++ data) (labels ++ tail) offset
      ((labels.flatMap labelBytes).length + n) := by
  induction labels with
  | nil => simpa using h
  | cons l labels ih =>
    obtain ⟨hl, hlen, hp⟩ := hlabels l List.mem_cons_self
    have htail := ih fun m hm => hlabels m (List.mem_cons_of_mem l hm)
    rw [List.flatMap_cons, List.append_assoc, List.length_append, Nat.add_assoc, List.cons_append]
    exact .label hl hlen hp htail

theorem LabelRun.split {data : Bytes} {labels : List Bytes} {offset n : ℕ}
    (h : LabelRun pointer data labels offset n) :
    (∀ l ∈ labels, l ≠ [] ∧ l.length < 256 ∧ pointer (UInt8.ofNat l.length) = false) ∧
    ∃ tail k, data = labels.flatMap labelBytes ++ tail ∧ LabelRun pointer tail [] offset k ∧
      n = (labels.flatMap labelBytes).length + k := by
  induction h with
  | @root rest h0 => exact ⟨by simp, 0 :: rest, 1, rfl, .root h0, rfl⟩
  | @pointer x y rest hp => exact ⟨by simp, x :: y :: rest, 2, rfl, .pointer hp, rfl⟩
  | @label l data labels offset n hl hlen hp _ ih =>
    obtain ⟨hlabels, tail, k, rfl, htail, rfl⟩ := ih
    refine ⟨?_, tail, k, ?_, htail, ?_⟩
    · intro m hm
      rcases List.mem_cons.mp hm with rfl | hm
      · exact ⟨hl, hlen, hp⟩
      · exact hlabels m hm
    · rw [List.flatMap_cons, List.append_assoc]
    · rw [List.flatMap_cons, List.length_append, Nat.add_assoc]

theorem LabelRun.end_cases {data : Bytes} {offset n : ℕ} (h : LabelRun pointer data [] offset n) :
    (∃ rest, data = 0 :: rest ∧ offset = 0 ∧ n = 1) ∨
    ∃ x y rest, pointer x = true ∧ data = x :: y :: rest ∧ offset = pointerOffset x y ∧ n = 2 := by
  cases h with
  | root => exact .inl ⟨_, rfl, rfl, rfl⟩
  | pointer hp => exact .inr ⟨_, _, _, hp, rfl, rfl, rfl⟩

theorem encodeDomainName_joinDots {labels : List Bytes} (hne : labels ≠ [])
    (hdot : ∀ l ∈ labels, dot ∉ l) :
    encodeDomainName (joinDots labels) = labels.flatMap labelBytes ++ [0] := by
  rw [encodeDomainName, joinDots, List.splitOn_intercalate dot hdot hne]

theorem isPointer_ofNat {k : ℕ} (h : k < 64) : isPointer (UInt8.ofNat k) = false := by
  have hall : ∀ k : Fin 64, isPointer (UInt8.ofNat k.val) = false := by decide
  exact hall ⟨k, h⟩

theorem pointerOffset_lt (x y : Byte) : pointerOffset x y < 16384 := by
  have hy := y.toNat_lt
  have hx : (x &&& 0x3F).toNat ≤ 63 := by
    rw [UInt8.toNat_and]
    exact Nat.and_le_right
  rw [pointerOffset]
  omega

theorem LabelRun.offset_lt {data : Bytes} {labels : List Bytes} {offset n : ℕ}
    (h : LabelRun pointer data labels offset n) : offset < 16384 := by
  induction h with
  | root => decide
  | pointer => exact pointerOffset_lt _ _
  | label _ _ _ _ ih => exact ih

end Run

end Dns
end NetworkProtocols
