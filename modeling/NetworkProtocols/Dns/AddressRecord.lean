import NetworkProtocols.Dns.Compression

/-!
# Address records of any length

What `readResourceRecord` makes of a record of type A behind an uncompressed name. The bound of the
loop that writes the text is the number of octets less one.
-/

namespace NetworkProtocols
namespace Dns

open Bytes Program

/-- The labels of an uncompressed name, its zero octet, the ten octets of fields and the data. -/
def recordBytes (labels : List Bytes) (f : RecordFields) : Bytes :=
  labels.flatMap labelBytes ++ [0] ++ fieldBytes f

/-- An address record with these labels and fields lies at position `p`. -/
structure AddressRecordAt (msg : Bytes) (p : ℕ) (labels : List Bytes) (f : RecordFields) :
    Prop where
  wire : WireLabels labels
  type : f.type = QType.A
  length : f.data.length < 65536
  bytes : ∃ rest, msg.drop p = recordBytes labels f ++ rest

/-- Wherever the record lies and whatever is around it, it is read as it is: its name, its fields
and data, the octets in decimal with dots between, and the size of what was taken. -/
def ReadExactly (labels : List Bytes) (f : RecordFields) : Prop :=
  ∀ msg p, AddressRecordAt msg p labels f →
    (readResourceRecord msg p).Returns
      (⟨joinDots labels, f.type, f.cls, f.ttl, f.data,
          joinDots (f.data.map fun x => decimal x.toNat)⟩,
        (labels.flatMap labelBytes ++ [0]).length + 10 + f.data.length)

variable {labels : List Bytes} {f : RecordFields}

theorem addressText_joinDots {data : Bytes} (h : data ≠ []) :
    addressText data = .ok (joinDots (data.map fun x => decimal x.toNat)) := by
  induction data with
  | nil => exact absurd rfl h
  | cons x data ih =>
    cases data with
    | nil => simp [addressText, joinDots]
    | cons y data =>
      have htail := ih (List.cons_ne_nil y data)
      have htext : joinDots ((x :: y :: data).map fun x => decimal x.toNat) =
          decimal x.toNat ++ dot :: joinDots ((y :: data).map fun x => decimal x.toNat) := by
        rw [List.map_cons, joinDots_cons]
        exact if_neg (List.cons_ne_nil _ _)
      rw [addressText, htail, htext]
      · rfl
      · exact List.cons_ne_nil y data

variable {msg : Bytes} {p : ℕ}

theorem AddressRecordAt.nameAt (h : AddressRecordAt msg p labels f) :
    NameAt msg p [labels] (labels.flatMap labelBytes ++ [0]).length := by
  obtain ⟨rest, hbytes⟩ := h.bytes
  rw [List.length_append]
  rw [recordBytes, List.append_assoc, List.append_assoc] at hbytes
  exact NameAt.root h.wire hbytes

theorem AddressRecordAt.fieldsAt (h : AddressRecordAt msg p labels f) :
    FieldsAt msg (p + (labels.flatMap labelBytes ++ [0]).length) f := by
  obtain ⟨rest, hbytes⟩ := h.bytes
  refine ⟨h.length, rest, ?_⟩
  rw [← List.drop_drop, hbytes, recordBytes, List.append_assoc]
  exact List.drop_left

/-- A record of type A is read exactly, wherever it lies, if and only if it has at least one octet
of data: of none, the text is made of an octet behind it. -/
theorem address_record_exact_iff (msg : Bytes) (p : ℕ) (h : AddressRecordAt msg p labels f) :
    ReadExactly labels f ↔ f.data ≠ [] := by
  constructor
  · intro hread
    obtain ⟨r, -, -, htext, -, -⟩ := readResourceRecord_returns.mp (hread msg p h)
    exact (recordText_returns.mp ⟨_, htext⟩).1 h.type
  · intro hne msg' p' h'
    have htext : (recordText msg' f.type f.data).Returns
        (joinDots (f.data.map fun x => decimal x.toNat)) := by
      rw [recordText, if_pos h'.type, addressText_joinDots hne]
      exact returns_lift.mpr rfl
    have hread := readResourceRecord_nameAt h'.nameAt h'.fieldsAt htext
    rwa [joinStretches, List.foldl_cons, appendName, if_pos rfl, List.foldl_nil] at hread

/-- `1.2.3.4` at the end of a message, behind the name `a`. -/
def fourOctets : RecordFields := { type := QType.A, cls := 1, ttl := 60, data := [1, 2, 3, 4] }

theorem address_record_exact_four : ReadExactly [[97]] fourOctets :=
  (address_record_exact_iff (recordBytes [[97]] fourOctets) 0
    ⟨by decide, rfl, by decide, [], by decide⟩).mpr (by decide)

/-- Without data, the octet behind the record is read. -/
theorem address_record_empty :
    ¬ ∀ labels f, WireLabels labels → f.type = QType.A → f.data.length < 65536 →
      ReadExactly labels f := by
  intro h
  let f : RecordFields := { type := QType.A, cls := 1, ttl := 60, data := [] }
  have hread := h [[97]] f (by decide) rfl (by decide) (recordBytes [[97]] f) 0
    ⟨by decide, rfl, by decide, [], by decide⟩
  refine readResourceRecord_stable.not_strays hread ?_
  exact ⟨0, by decide⟩

end Dns
end NetworkProtocols
