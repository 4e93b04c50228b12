import NetworkProtocols.Dns.Query

/-!
# The obsolete reader of a name

`DNSQuery::decodeName` is to be replaced by `DNSMessage::decodeDomainName`. The two differ in the
octets in front of a label: from 64 on one takes them for a length, the other for a pointer.
-/

namespace NetworkProtocols
namespace Dns

open Bytes

/-- The length octets that `decodeName` meets in front of its terminating zero, if it comes to
one. `length` octets of the current label are left. -/
def lengthOctets : ℕ → Bytes → Option Bytes
  | _, [] => none
  | length+1, _ :: data => lengthOctets length data
  | 0, x :: data => if x = 0 then some [] else (lengthOctets x.toNat data).map (x :: ·)

/-- The decoder of a query with another reader of the name. -/
def DNSQuery.decodeBy (reader : Bytes → Except Halt NameRead) (buffer : Bytes) :
    Except Halt (DNSQuery × ℕ) := do
  let (message, bytesCount) ← DNSMessage.decode buffer
  let read ← reader (buffer.drop bytesCount)
  let src := buffer.drop (bytesCount + read.bytesCount)
  let type ← ntohs src
  let cls ← ntohs (src.drop 2)
  pure ({ toDNSMessage := message, name := read.name, type, cls },
    bytesCount + read.bytesCount + 4)

theorem DNSQuery.decodeBy_decodeName : DNSQuery.decodeBy decodeName = DNSQuery.decode := rfl

section Readers

variable {data octets : Bytes} {pointer : Byte → Bool}

/-- A reader that takes all the octets for lengths reads the labels to their end, and another such
reader reads the same. -/
theorem readLabels_agree {length : ℕ} (h : lengthOctets length data = some octets)
    (hzero : pointer 0 = false) (hlengths : ∀ x ∈ octets, pointer x = false) :
    ∃ r, readLabels (fun _ => false) length data = .ok r ∧ r.offset = 0 ∧
      readLabels pointer length data = .ok r := by
  induction data generalizing length octets with
  | nil =>
    rw [lengthOctets] at h
    cases h
  | cons x data ih =>
    cases length with
    | succ length =>
      obtain ⟨r, hr, hoffset, hr'⟩ := ih h hlengths
      exact ⟨r.push x, by rw [readLabels, hr]; rfl, hoffset, by rw [readLabels, hr']; rfl⟩
    | zero =>
      by_cases hx : x = 0
      · subst hx
        exact ⟨_, rfl, rfl, by rw [readLabels, hzero, if_neg Bool.false_ne_true, if_pos rfl]⟩
      · rw [lengthOctets, if_neg hx] at h
        obtain ⟨octets, hrest, rfl⟩ := Option.map_eq_some_iff.mp h
        obtain ⟨hlength, hlengths⟩ := List.forall_mem_cons.mp hlengths
        obtain ⟨r, hr, hoffset, hr'⟩ := ih hrest hlengths
        refine ⟨r.push dot, ?_, hoffset, ?_⟩
        · rw [readLabels, if_neg Bool.false_ne_true, if_neg hx, hr]
          rfl
        · rw [readLabels, hlength, if_neg Bool.false_ne_true, if_neg hx, hr']
          rfl

/-- The first label has no dot in front of it. -/
theorem readName_agree (h : lengthOctets 0 data = some octets) (hzero : pointer 0 = false)
    (hlengths : ∀ x ∈ octets, pointer x = false) :
    ∃ r, readName (fun _ => false) data = .ok r ∧ r.offset = 0 ∧ readName pointer data = .ok r := by
  cases data with
  | nil =>
    rw [lengthOctets] at h
    cases h
  | cons x data =>
    by_cases hx : x = 0
    · subst hx
      exact ⟨_, rfl, rfl, by rw [readName, hzero, if_neg Bool.false_ne_true, if_pos rfl]⟩
    · rw [lengthOctets, if_neg hx] at h
      obtain ⟨octets, hrest, rfl⟩ := Option.map_eq_some_iff.mp h
      obtain ⟨hlength, hlengths⟩ := List.forall_mem_cons.mp hlengths
      obtain ⟨r, hr, hoffset, hr'⟩ := readLabels_agree hrest hzero hlengths
      refine ⟨{ r with bytesCount := r.bytesCount + 1 }, ?_, hoffset, ?_⟩
      · rw [readName, if_neg Bool.false_ne_true, if_neg hx, hr]
        rfl
      · rw [readName, hlength, if_neg Bool.false_ne_true, if_neg hx, hr']
        rfl

theorem isPointer_of_le {x : Byte} (h : x ≤ 63) : isPointer x = false := by
  have hx : x.toNat < 64 := Nat.lt_succ_of_le (UInt8.le_iff_toNat_le.mp h)
  rw [← UInt8.ofNat_toNat (x := x)]
  exact isPointer_ofNat hx

end Readers

/-- The two readers agree on a name whose length octets are all at most 63, wherever it starts.
So a query with such a name behind its header is decoded as before with the other reader. -/
theorem decoders_agree (buffer : Bytes) (start : ℕ) {octets : Bytes}
    (h : lengthOctets 0 (buffer.drop start) = some octets) (hshort : ∀ x ∈ octets, x ≤ 63) :
    (∃ r, decodeName (buffer.drop start) = .ok r ∧
      decodeDomainName (buffer.drop start) = .ok { r with offset := 0 }) ∧
    ((∃ message, DNSMessage.decode buffer = .ok (message, start)) →
      DNSQuery.decodeBy decodeDomainName buffer = DNSQuery.decode buffer) := by
  obtain ⟨r, hname, hoffset, hdomain⟩ := readName_agree h (by decide)
    fun x hx => isPointer_of_le (hshort x hx)
  refine ⟨⟨r, hname, ?_⟩, ?_⟩
  · rw [← hoffset]
    exact hdomain
  · rintro ⟨message, hheader⟩
    have hsame : decodeDomainName (buffer.drop start) = decodeName (buffer.drop start) :=
      hdomain.trans hname.symm
    rw [← DNSQuery.decodeBy_decodeName]
    unfold DNSQuery.decodeBy
    simp only [hheader, bind, Except.bind, hsame]

/-- A query for `ab.c`. -/
theorem decoders_agree_query :
    let q : DNSQuery := { name := [97, 98, dot, 99], type := 1 }
    decodeDomainName (q.encode.drop 12) = .ok ⟨6, q.name, 0⟩ ∧
      DNSQuery.decodeBy decodeDomainName q.encode = .ok (q, 22) := by
  intro q
  have hshort : ∀ x ∈ ([2, 1] : Bytes), x ≤ 63 := by simp
  obtain ⟨⟨r, hname, hdomain⟩, hquery⟩ := @decoders_agree q.encode 12 [2, 1] rfl hshort
  have hr : .ok r = decodeName (q.encode.drop 12) := hname.symm
  obtain rfl : r = ⟨6, q.name, 0⟩ := Except.ok.inj (hr.trans rfl)
  have hheader : DNSMessage.decode q.encode = .ok (q.toDNSMessage, 12) := by decide +kernel
  have hdecode : DNSQuery.decode q.encode = .ok (q, 22) := by decide +kernel
  exact ⟨hdomain, (hquery ⟨_, hheader⟩).trans hdecode⟩

end Dns
end NetworkProtocols
