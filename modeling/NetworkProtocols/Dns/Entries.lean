import NetworkProtocols.Dns.Pointers

/-!
# Questions and records

`Entry.Span` says from the bytes alone where an entry ends, `Entry.Inside` that what the
decoder reads of it lies in the message, `Entry.Acyclic` that its names run into no cycle
of pointers. Each of the three is what the reader of the entry does.
-/

namespace NetworkProtocols
namespace Dns

open Bytes Program Relation

def fieldBytes (f : RecordFields) : Bytes :=
  htons f.type ++ htons f.cls ++ htonl f.ttl ++ htons (UInt16.ofNat f.data.length) ++ f.data

/-- The fields lie at position `p`, with as many octets of data as their length says. -/
def FieldsAt (msg : Bytes) (p : ℕ) (f : RecordFields) : Prop :=
  f.data.length < 65536 ∧ ∃ rest, msg.drop p = fieldBytes f ++ rest

theorem readFields_bytes (f : RecordFields) (rest : Bytes) (hlen : f.data.length < 65536) :
    readFields (fieldBytes f ++ rest) = .ok f := by
  have htype : fieldBytes f ++ rest = htons f.type ++ ((fieldBytes f ++ rest).drop 2) := by
    simp [fieldBytes, htons]
  have hcls : (fieldBytes f ++ rest).drop 2 = htons f.cls ++ (fieldBytes f ++ rest).drop 4 := by
    simp [fieldBytes, htons]
  have httl : (fieldBytes f ++ rest).drop 4 = htonl f.ttl ++ (fieldBytes f ++ rest).drop 8 := by
    simp [fieldBytes, htons, htonl]
  have hlength : (fieldBytes f ++ rest).drop 8 =
      htons (UInt16.ofNat f.data.length) ++ (fieldBytes f ++ rest).drop 10 := by
    simp [fieldBytes, htons, htonl]
  have hdata : (fieldBytes f ++ rest).drop 10 = f.data ++ rest := by
    simp [fieldBytes, htons, htonl]
  have hn : (UInt16.ofNat f.data.length).toNat = f.data.length := by
    rw [UInt16.toNat_ofNat']
    omega
  have h1 : ntohs (fieldBytes f ++ rest) = .ok f.type := by rw [htype, ntohs_htons]
  have h2 : ntohs ((fieldBytes f ++ rest).drop 2) = .ok f.cls := by rw [hcls, ntohs_htons]
  have h3 : ntohl ((fieldBytes f ++ rest).drop 4) = .ok f.ttl := by rw [httl, ntohl_htonl]
  have h4 : ntohs ((fieldBytes f ++ rest).drop 8) = .ok (UInt16.ofNat f.data.length) := by
    rw [hlength, ntohs_htons]
  simp only [readFields, h1, h2, h3, h4, bind, Except.bind, hn]
  rw [hdata, copyN_append]
  rfl

theorem readFields_eq_ok {src : Bytes} {f : RecordFields} :
    readFields src = .ok f ↔ f.data.length < 65536 ∧ ∃ rest, src = fieldBytes f ++ rest := by
  constructor
  · intro h
    simp only [readFields, bind_eq_ok] at h
    obtain ⟨type, htype, cls, hcls, ttl, httl, rdataLength, hlength, data, hdata, h⟩ := h
    obtain rfl := Except.ok.inj h
    obtain ⟨r1, rfl⟩ := ntohs_eq_ok.mp htype
    have hd2 : (htons type ++ r1).drop 2 = r1 := rfl
    rw [hd2] at hcls
    obtain ⟨r2, rfl⟩ := ntohs_eq_ok.mp hcls
    have hd4 : (htons type ++ (htons cls ++ r2)).drop 4 = r2 := rfl
    rw [hd4] at httl
    obtain ⟨r3, rfl⟩ := ntohl_eq_ok.mp httl
    have hd8 : (htons type ++ (htons cls ++ (htonl ttl ++ r3))).drop 8 = r3 := rfl
    rw [hd8] at hlength
    obtain ⟨r4, rfl⟩ := ntohs_eq_ok.mp hlength
    have hd10 : (htons type ++ (htons cls ++ (htonl ttl ++ (htons rdataLength ++ r4)))).drop 10 =
        r4 := rfl
    rw [hd10] at hdata
    obtain ⟨hlen, rest, rfl⟩ := copyN_eq_ok.mp hdata
    have hn : UInt16.ofNat data.length = rdataLength := by rw [hlen, UInt16.ofNat_toNat]
    refine ⟨?_, rest, ?_⟩
    · rw [hlen]
      exact rdataLength.toNat_lt
    · simp only [fieldBytes, hn, List.append_assoc]
  · rintro ⟨hlen, rest, rfl⟩
    exact readFields_bytes f rest hlen

theorem readFields_reader (src : Bytes) : Reader (readFields src) :=
  (ntohs_reader _).bind fun _ => (ntohs_reader _).bind fun _ => (ntohl_reader _).bind fun _ =>
    (ntohs_reader _).bind fun _ => (copyN_reader _ _).bind fun _ => .pure _

theorem readFields_at {msg : Bytes} {p : ℕ} {f : RecordFields} :
    readFields (msg.drop p) = .ok f ↔ FieldsAt msg p f := readFields_eq_ok

theorem readFields_outside {msg : Bytes} {p : ℕ} :
    readFields (msg.drop p) = .error .outside ↔ ¬ ∃ f, FieldsAt msg p f := by
  simp only [← readFields_at]
  exact (readFields_reader _).outside_iff

theorem FieldsAt.unique {msg : Bytes} {p : ℕ} {f g : RecordFields} (hf : FieldsAt msg p f)
    (hg : FieldsAt msg p g) : f = g :=
  Except.ok.inj ((readFields_at.mpr hf).symm.trans (readFields_at.mpr hg))

inductive Entry
  | question
  | record
  deriving DecidableEq

namespace Entry

/-- An entry that begins at `p` ends at `e`: the name is complete, and so is all behind it. -/
def Span (msg : Bytes) : Entry → ℕ → ℕ → Prop
  | question, p, e => ∃ n, NameSpan msg (msg.drop p) n ∧ p + n + 4 ≤ msg.length ∧ e = p + n + 4
  | record, p, e => ∃ n f, NameSpan msg (msg.drop p) n ∧ FieldsAt msg (p + n) f ∧
      (f.type = QType.A → f.data ≠ []) ∧
      (f.type = QType.CNAME → ∃ k, NameSpan msg f.data k) ∧
      e = p + n + 10 + f.data.length

/-- Every part of the entry that the decoder comes to lies in the message. -/
def Inside (msg : Bytes) : Entry → ℕ → Prop
  | question, p => NameInside msg (msg.drop p) ∧
      ∀ n, NameSpan msg (msg.drop p) n → p + n + 4 ≤ msg.length
  | record, p => NameInside msg (msg.drop p) ∧
      ∀ n, NameSpan msg (msg.drop p) n → ∃ f, FieldsAt msg (p + n) f ∧
        (f.type = QType.A → f.data ≠ []) ∧ (f.type = QType.CNAME → NameInside msg f.data)

/-- The name of the entry, and the name that its data hold, run into no cycle of pointers. -/
def Acyclic (msg : Bytes) : Entry → ℕ → Prop
  | question, p => NameAcyclic msg (msg.drop p)
  | record, p => NameAcyclic msg (msg.drop p) ∧
      ∀ n f, NameSpan msg (msg.drop p) n → FieldsAt msg (p + n) f → f.type = QType.CNAME →
        NameAcyclic msg f.data

def skip (msg : Bytes) (p : ℕ) : Entry → Program ℕ
  | question => (fun r => p + r.2) <$> readQuestion msg p
  | record => (fun r => p + r.2) <$> readResourceRecord msg p

end Entry

section Readers

variable {msg : Bytes} {p : ℕ}

theorem readTypeClass_eq_ok {src : Bytes} {type cls : UInt16} :
    readTypeClass src = .ok (type, cls) ↔ ∃ rest, src = htons type ++ htons cls ++ rest := by
  constructor
  · intro h
    simp only [readTypeClass, bind_eq_ok] at h
    obtain ⟨type', htype, cls', hcls, h⟩ := h
    obtain ⟨rfl, rfl⟩ := Prod.mk.inj (Except.ok.inj h)
    obtain ⟨r1, rfl⟩ := ntohs_eq_ok.mp htype
    have hd2 : (htons type' ++ r1).drop 2 = r1 := rfl
    rw [hd2] at hcls
    obtain ⟨rest, rfl⟩ := ntohs_eq_ok.mp hcls
    exact ⟨rest, by rw [List.append_assoc]⟩
  · rintro ⟨rest, rfl⟩
    have hd2 : (htons type ++ (htons cls ++ rest)).drop 2 = htons cls ++ rest := rfl
    simp only [readTypeClass, List.append_assoc, ntohs_htons, hd2, bind, Except.bind]
    rfl

theorem readTypeClass_reader (src : Bytes) : Reader (readTypeClass src) :=
  (ntohs_reader _).bind fun _ => (ntohs_reader _).bind fun _ => .pure _

theorem readTypeClass_some {src : Bytes} : (∃ w, readTypeClass src = .ok w) ↔ 4 ≤ src.length := by
  constructor
  · rintro ⟨⟨type, cls⟩, h⟩
    obtain ⟨rest, rfl⟩ := readTypeClass_eq_ok.mp h
    simp only [List.length_append, htons_length]
    omega
  · intro h
    match src, h with
    | a :: b :: c :: d :: rest, _ => exact ⟨_, rfl⟩

theorem readTypeClass_outside {src : Bytes} :
    readTypeClass src = .error .outside ↔ src.length < 4 := by
  rw [← Nat.not_le, ← readTypeClass_some]
  exact (readTypeClass_reader src).outside_iff

theorem addressText_some (x : Byte) (data : Bytes) :
    ∃ text, addressText (x :: data) = .ok text := by
  induction data generalizing x with
  | nil => exact ⟨_, rfl⟩
  | cons y data ih =>
    obtain ⟨text, ht⟩ := ih y
    exact ⟨decimal x.toNat ++ dot :: text, by simp [addressText, ht, Except.map]⟩

theorem recordText_stable (type : UInt16) (data : Bytes) : (recordText msg type data).Stable := by
  unfold recordText
  split
  · exact stable_lift _
  split
  · exact readFullName_stable.bind fun _ => stable_pure _
  · exact stable_pure _

/-- The text of the data is that of the octets, if there are any, or a name, or empty. -/
theorem recordText_cases (msg : Bytes) (type : UInt16) (data : Bytes) :
    (type = QType.A ∧ data = [] ∧
      recordText msg type data = liftM (.error .outside : Except Halt Bytes)) ∨
    (type = QType.A ∧ data ≠ [] ∧ ∃ text, recordText msg type data = pure text) ∨
    (type = QType.CNAME ∧
      recordText msg type data = readFullName msg data >>= fun r => pure r.name) ∨
    (type ≠ QType.A ∧ type ≠ QType.CNAME ∧ recordText msg type data = pure []) := by
  unfold recordText
  by_cases hA : type = QType.A
  · rw [if_pos hA]
    cases data with
    | nil => exact .inl ⟨hA, rfl, rfl⟩
    | cons x data =>
      obtain ⟨text, ht⟩ := addressText_some x data
      exact .inr (.inl ⟨hA, List.cons_ne_nil _ _, text, by rw [ht]; rfl⟩)
  · rw [if_neg hA]
    by_cases hC : type = QType.CNAME
    · exact .inr (.inr (.inl ⟨hC, by rw [if_pos hC]⟩))
    · exact .inr (.inr (.inr ⟨hA, hC, by rw [if_neg hC]⟩))

theorem cname_ne_address : QType.CNAME ≠ QType.A := by decide

theorem recordText_returns {type : UInt16} {data : Bytes} :
    (∃ text, (recordText msg type data).Returns text) ↔
      (type = QType.A → data ≠ []) ∧ (type = QType.CNAME → ∃ n, NameSpan msg data n) := by
  rcases recordText_cases msg type data with
    ⟨rfl, rfl, heq⟩ | ⟨rfl, hne, text, heq⟩ | ⟨rfl, heq⟩ | ⟨hA, hC, heq⟩
  · simp [heq, returns_lift]
  · simp [heq, hne, cname_ne_address.symm]
  · simp only [heq, returns_bind readFullName_stable fun _ => stable_pure _, returns_pure]
    constructor
    · rintro ⟨_, r, hr, -⟩
      exact ⟨fun h => absurd h cname_ne_address, fun _ => ⟨_, readFullName_returns.mp ⟨r, hr, rfl⟩⟩⟩
    · rintro ⟨-, h⟩
      obtain ⟨n, hn⟩ := h trivial
      obtain ⟨r, hr, -⟩ := readFullName_returns.mpr hn
      exact ⟨r.name, r, hr, rfl⟩
  · simp [heq, hA, hC]

theorem recordText_strays {type : UInt16} {data : Bytes} :
    (recordText msg type data).Strays ↔
      ¬ ((type = QType.A → data ≠ []) ∧ (type = QType.CNAME → NameInside msg data)) := by
  rcases recordText_cases msg type data with
    ⟨rfl, rfl, heq⟩ | ⟨rfl, hne, text, heq⟩ | ⟨rfl, heq⟩ | ⟨hA, hC, heq⟩
  · simp [heq, strays_lift]
  · simp [heq, hne, cname_ne_address.symm]
  · rw [heq, strays_bind readFullName_stable fun _ => stable_pure _, readFullName_strays]
    simp [cname_ne_address]
  · simp [heq, hA, hC]

theorem recordText_terminates {type : UInt16} {data : Bytes} :
    (recordText msg type data).Terminates ↔ (type = QType.CNAME → NameAcyclic msg data) := by
  rcases recordText_cases msg type data with
    ⟨rfl, rfl, heq⟩ | ⟨rfl, hne, text, heq⟩ | ⟨rfl, heq⟩ | ⟨hA, hC, heq⟩
  · rw [heq]
    exact ⟨fun _ h => absurd h.symm cname_ne_address, fun _ => .inr ⟨0, rfl⟩⟩
  · rw [heq]
    exact ⟨fun _ h => absurd h.symm cname_ne_address, fun _ => terminates_pure text⟩
  · rw [heq, terminates_bind readFullName_stable fun _ => stable_pure _, readFullName_terminates]
    exact ⟨fun h _ => h.1, fun h => ⟨h rfl, fun _ _ => terminates_pure _⟩⟩
  · rw [heq]
    exact ⟨fun _ h => absurd h hC, fun _ => terminates_pure []⟩

theorem readQuestion_returns {q : Question} {k : ℕ} :
    (readQuestion msg p).Returns (q, k) ↔
      ∃ r, (readFullName msg (msg.drop p)).Returns r ∧
        readTypeClass (msg.drop (p + r.bytesCount)) = .ok (q.type, q.cls) ∧
        q.name = r.name ∧ k = r.bytesCount + 4 := by
  simp only [readQuestion]
  rw [returns_bind readFullName_stable fun _ => (stable_lift _).bind fun _ => stable_pure _]
  simp only [returns_bind (stable_lift _) fun _ => stable_pure _, returns_lift, returns_pure,
    Prod.exists, Prod.mk.injEq]
  constructor
  · rintro ⟨r, hr, type, cls, hw, rfl, rfl⟩
    exact ⟨r, hr, hw, rfl, rfl⟩
  · rintro ⟨r, hr, hw, hname, rfl⟩
    exact ⟨r, hr, q.type, q.cls, hw, by rw [← hname], rfl⟩

theorem readResourceRecord_returns {record : ResourceRecord} {k : ℕ} :
    (readResourceRecord msg p).Returns (record, k) ↔
      ∃ r, (readFullName msg (msg.drop p)).Returns r ∧
        FieldsAt msg (p + r.bytesCount) ⟨record.type, record.cls, record.ttl, record.data⟩ ∧
        (recordText msg record.type record.data).Returns record.text ∧
        record.name = r.name ∧ k = r.bytesCount + 10 + record.data.length := by
  simp only [readResourceRecord]
  rw [returns_bind readFullName_stable fun _ =>
    (stable_lift _).bind fun _ => (recordText_stable _ _).bind fun _ => stable_pure _]
  simp only [returns_bind (stable_lift _) fun _ => (recordText_stable _ _).bind fun _ =>
    stable_pure _, returns_bind (recordText_stable _ _) fun _ => stable_pure _, returns_lift,
    returns_pure, Prod.mk.injEq, readFields_at]
  constructor
  · rintro ⟨r, hr, f, hf, text, ht, rfl, rfl⟩
    exact ⟨r, hr, hf, ht, rfl, rfl⟩
  · rintro ⟨r, hr, hf, ht, hname, rfl⟩
    exact ⟨r, hr, _, hf, record.text, ht, by rw [← hname], rfl⟩

theorem readQuestion_stable : (readQuestion msg p).Stable :=
  readFullName_stable.bind fun _ => (stable_lift _).bind fun _ => stable_pure _

theorem readResourceRecord_stable : (readResourceRecord msg p).Stable :=
  readFullName_stable.bind fun _ =>
    (stable_lift _).bind fun _ => (recordText_stable _ _).bind fun _ => stable_pure _

end Readers

namespace Entry

variable {msg : Bytes} {p : ℕ}

theorem skip_stable (p : ℕ) (entry : Entry) : (skip msg p entry).Stable := by
  cases entry with
  | question => exact readQuestion_stable.map _
  | record => exact readResourceRecord_stable.map _

theorem skip_returns (p : ℕ) (entry : Entry) (e : ℕ) :
    (skip msg p entry).Returns e ↔ entry.Span msg p e := by
  cases entry with
  | question =>
    simp only [skip, returns_map readQuestion_stable, Prod.exists, Span]
    constructor
    · rintro ⟨q, k, hread, rfl⟩
      obtain ⟨r, hr, hw, -, rfl⟩ := readQuestion_returns.mp hread
      have hlen := readTypeClass_some.mp ⟨_, hw⟩
      rw [List.length_drop] at hlen
      exact ⟨r.bytesCount, readFullName_returns.mp ⟨r, hr, rfl⟩, by omega, by omega⟩
    · rintro ⟨n, hspan, hlen, rfl⟩
      obtain ⟨r, hr, rfl⟩ := readFullName_returns.mpr hspan
      obtain ⟨⟨type, cls⟩, hw⟩ := readTypeClass_some.mpr
        (show 4 ≤ (msg.drop (p + r.bytesCount)).length by rw [List.length_drop]; omega)
      exact ⟨⟨r.name, type, cls⟩, _, readQuestion_returns.mpr ⟨r, hr, hw, rfl, rfl⟩, by omega⟩
  | record =>
    simp only [skip, returns_map readResourceRecord_stable, Prod.exists, Span]
    constructor
    · rintro ⟨record, k, hread, rfl⟩
      obtain ⟨r, hr, hf, ht, -, rfl⟩ := readResourceRecord_returns.mp hread
      obtain ⟨hA, hC⟩ := recordText_returns.mp ⟨_, ht⟩
      exact ⟨r.bytesCount, _, readFullName_returns.mp ⟨r, hr, rfl⟩, hf, hA, hC, by
        simp only
        omega⟩
    · rintro ⟨n, f, hspan, hf, hA, hC, rfl⟩
      obtain ⟨r, hr, rfl⟩ := readFullName_returns.mpr hspan
      obtain ⟨text, ht⟩ := recordText_returns.mpr ⟨hA, hC⟩
      exact ⟨⟨r.name, f.type, f.cls, f.ttl, f.data, text⟩, _,
        readResourceRecord_returns.mpr ⟨r, hr, hf, ht, rfl, rfl⟩, by
          simp only
          omega⟩

theorem skip_strays (p : ℕ) (entry : Entry) :
    (skip msg p entry).Strays ↔ ¬ entry.Inside msg p := by
  cases entry with
  | question =>
    rw [skip, strays_map readQuestion_stable]
    simp only [readQuestion, Inside]
    rw [strays_bind readFullName_stable fun _ => (stable_lift _).bind fun _ => stable_pure _,
      readFullName_strays]
    simp only [strays_bind (stable_lift _) fun _ => stable_pure _, strays_lift, strays_pure,
      and_false, exists_false, or_false, readTypeClass_outside, List.length_drop]
    rw [not_and_or]
    refine or_congr_right ⟨?_, fun h => ?_⟩
    · rintro ⟨r, hr, hlen⟩ h
      have := h r.bytesCount (readFullName_returns.mp ⟨r, hr, rfl⟩)
      omega
    · push Not at h
      obtain ⟨n, hspan, hlen⟩ := h
      obtain ⟨r, hr, rfl⟩ := readFullName_returns.mpr hspan
      exact ⟨r, hr, by omega⟩
  | record =>
    rw [skip, strays_map readResourceRecord_stable]
    simp only [readResourceRecord, Inside]
    rw [strays_bind readFullName_stable fun _ =>
      (stable_lift _).bind fun _ => (recordText_stable _ _).bind fun _ => stable_pure _,
      readFullName_strays]
    simp only [strays_bind (stable_lift _) fun _ => (recordText_stable _ _).bind fun _ =>
      stable_pure _, strays_bind (recordText_stable _ _) fun _ => stable_pure _, strays_lift,
      returns_lift, strays_pure, and_false, exists_false, or_false, recordText_strays,
      readFields_at, readFields_outside]
    rw [not_and_or]
    refine or_congr_right ⟨?_, fun h => ?_⟩
    · rintro ⟨r, hr, hout⟩ h
      obtain ⟨f, hf, hA, hC⟩ := h r.bytesCount (readFullName_returns.mp ⟨r, hr, rfl⟩)
      rcases hout with hno | ⟨g, hg, hout⟩
      · exact hno ⟨f, hf⟩
      · rw [hg.unique hf] at hout
        exact hout ⟨hA, hC⟩
    · simp only [not_forall] at h
      obtain ⟨n, hspan, hno⟩ := h
      obtain ⟨r, hr, rfl⟩ := readFullName_returns.mpr hspan
      refine ⟨r, hr, ?_⟩
      by_cases hf : ∃ f, FieldsAt msg (p + r.bytesCount) f
      · obtain ⟨f, hf⟩ := hf
        exact .inr ⟨f, hf, fun h => hno ⟨f, hf, h⟩⟩
      · exact .inl hf

theorem skip_terminates (p : ℕ) (entry : Entry) :
    (skip msg p entry).Terminates ↔ entry.Acyclic msg p := by
  cases entry with
  | question =>
    rw [skip, terminates_map readQuestion_stable]
    simp only [readQuestion, Acyclic]
    rw [terminates_bind readFullName_stable fun _ => (stable_lift _).bind fun _ => stable_pure _,
      readFullName_terminates, and_iff_left]
    intro r _
    rw [terminates_bind (stable_lift _) fun _ => stable_pure _]
    exact ⟨terminates_lift (readTypeClass_reader _), fun _ _ => terminates_pure _⟩
  | record =>
    rw [skip, terminates_map readResourceRecord_stable]
    simp only [readResourceRecord, Acyclic]
    rw [terminates_bind readFullName_stable fun _ =>
      (stable_lift _).bind fun _ => (recordText_stable _ _).bind fun _ => stable_pure _,
      readFullName_terminates]
    simp only [terminates_bind (stable_lift _) fun _ => (recordText_stable _ _).bind fun _ =>
      stable_pure _, terminates_bind (recordText_stable _ _) fun _ => stable_pure _, returns_lift,
      recordText_terminates, readFields_at]
    refine and_congr_right fun _ => ⟨fun h n f hspan hf hC => ?_, fun h r hr => ?_⟩
    · obtain ⟨r, hr, rfl⟩ := readFullName_returns.mpr hspan
      exact ((h r hr).2 f hf).1 hC
    · refine ⟨terminates_lift (readFields_reader _), fun f hf => ⟨fun hC => ?_, fun _ _ => ?_⟩⟩
      · exact h r.bytesCount f (readFullName_returns.mp ⟨r, hr, rfl⟩) hf hC
      · exact terminates_pure _

end Entry

end Dns
end NetworkProtocols
