import NetworkProtocols.Dns.Labels
import NetworkProtocols.Dns.Message

/-!
# DNS queries

`DNSQuery::encode` and `DNSQuery::decode`. The decoder reads the name with `decodeName`,
for which every octet up to 255 is a length.
-/

namespace NetworkProtocols
namespace Dns

open Bytes

structure DNSQuery extends DNSMessage where
  name : Bytes := []
  type : UInt16 := 0
  cls : UInt16 := 1
  deriving DecidableEq

namespace DNSQuery

/-- Every field of the object is assigned. -/
def decode (buffer : Bytes) : Except Halt (DNSQuery × ℕ) := do
  let (message, bytesCount) ← DNSMessage.decode buffer
  let read ← decodeName (buffer.drop bytesCount)
  let src := buffer.drop (bytesCount + read.bytesCount)
  let type ← ntohs src
  let cls ← ntohs (src.drop 2)
  pure ({ toDNSMessage := message, name := read.name, type, cls },
    bytesCount + read.bytesCount + 4)

def encode (q : DNSQuery) : Bytes :=
  q.toDNSMessage.encode ++ encodeDomainName q.name ++ htons q.type ++ htons q.cls

theorem decode_parts (m : DNSMessage) (nameBytes : Bytes) {labels : List Bytes} {offset n : ℕ}
    (type cls : UInt16) (rest : Bytes) (hn : nameBytes.length = n)
    (hrun : LabelRun (fun _ => false) (nameBytes ++ htons type ++ htons cls ++ rest) labels
      offset n) :
    decode (m.encode ++ (nameBytes ++ htons type ++ htons cls ++ rest)) =
      .ok ({ toDNSMessage := m, name := joinDots labels, type, cls }, 12 + n + 4) := by
  have hname : (m.encode ++ (nameBytes ++ htons type ++ htons cls ++ rest)).drop 12 =
      nameBytes ++ htons type ++ htons cls ++ rest := rfl
  have hsrc : (m.encode ++ (nameBytes ++ htons type ++ htons cls ++ rest)).drop (12 + n) =
      htons type ++ (htons cls ++ rest) := by
    rw [← List.drop_drop, hname, ← hn]
    simp [List.append_assoc]
  have hcls : (htons type ++ (htons cls ++ rest)).drop 2 = htons cls ++ rest := rfl
  rw [decode, DNSMessage.decode_encode]
  simp only [bind, Except.bind]
  rw [hname, decodeName, readName_of_run hrun]
  simp only [hsrc, ntohs_htons, hcls, pure, Except.pure]

/-- Decoding an encoded query restores it and takes exactly its bytes, whatever follows. -/
theorem query_round_trip (q : DNSQuery) (labels : List Bytes) (hne : labels ≠ [])
    (hlabels : ∀ l ∈ labels, 1 ≤ l.length ∧ l.length ≤ 255 ∧ dot ∉ l)
    (hname : q.name = joinDots labels) (rest : Bytes) :
    decode (q.encode ++ rest) = .ok (q, q.encode.length) := by
  have henc : encodeDomainName q.name = labels.flatMap labelBytes ++ [0] := by
    rw [hname, encodeDomainName_joinDots hne fun l hl => (hlabels l hl).2.2]
  have hlens : ∀ l ∈ labels, l ≠ [] ∧ l.length < 256 ∧ (false : Bool) = false := by
    intro l hl
    obtain ⟨hpos, hlen, -⟩ := hlabels l hl
    refine ⟨?_, by omega, rfl⟩
    rintro rfl
    simp at hpos
  have hrun : LabelRun (fun _ => false) (labels.flatMap labelBytes ++ (0 :: _)) (labels ++ []) 0
      ((labels.flatMap labelBytes).length + 1) :=
    LabelRun.labels hlens (@LabelRun.root _ (htons q.type ++ htons q.cls ++ rest) rfl)
  rw [List.append_nil] at hrun
  have hsplit : q.encode ++ rest = q.toDNSMessage.encode ++
      ((labels.flatMap labelBytes ++ [0]) ++ htons q.type ++ htons q.cls ++ rest) := by
    simp only [encode, henc, List.append_assoc]
  have hdecode := @decode_parts q.toDNSMessage (labels.flatMap labelBytes ++ [0]) labels 0 _
    q.type q.cls rest rfl
    (by simpa only [List.append_assoc, List.cons_append, List.nil_append, List.length_append,
      List.length_singleton] using hrun)
  rw [hsplit, hdecode, ← hname]
  congr 2
  simp only [encode, henc, List.length_append, DNSMessage.encode_length, htons_length]

theorem query_round_trip_example :
    decode (encode { id := 7, flags := 256, qCount := 1, name := [97, 98, dot, 99], type := 1 } ++
      [255]) =
    .ok ({ id := 7, flags := 256, qCount := 1, name := [97, 98, dot, 99], type := 1 }, 22) :=
  query_round_trip { id := 7, flags := 256, qCount := 1, name := [97, 98, dot, 99], type := 1 }
    [[97, 98], [99]] (by decide) (by decide) rfl [255]

def Complete (buffer : Bytes) : Prop :=
  ∃ m, ∃ labels : List Bytes, ∃ rest, (∀ l ∈ labels, l ≠ [] ∧ l.length < 256) ∧
    buffer = DNSMessage.encode m ++ (labels.flatMap labelBytes ++ 0 :: rest) ∧ 4 ≤ rest.length

theorem decode_reader (buffer : Bytes) : Reader (decode buffer) :=
  (DNSMessage.decode_reader _).bind fun _ => (readName_reader _).bind fun _ =>
    (ntohs_reader _).bind fun _ => (ntohs_reader _).bind fun _ => .pure _

theorem complete_of_decode {buffer : Bytes} {q : DNSQuery} {n : ℕ}
    (h : decode buffer = .ok (q, n)) : Complete buffer := by
  simp only [decode, bind_eq_ok] at h
  obtain ⟨⟨m, k⟩, hheader, r, hname, type, htype, cls, hcls, -⟩ := h
  obtain ⟨rfl, tail, rfl⟩ := DNSMessage.decode_eq_ok.mp hheader
  have htail : (m.encode ++ tail).drop 12 = tail := rfl
  rw [htail] at hname
  obtain ⟨labels, hrun, -⟩ := readName_eq_ok.mp hname
  obtain ⟨hlabels, rest, k, rfl, hend, hk⟩ := hrun.split
  obtain ⟨rest, rfl, -, rfl⟩ : ∃ rest', rest = 0 :: rest' ∧ r.offset = 0 ∧ k = 1 := by
    rcases hend.end_cases with hz | ⟨_, _, _, hp, -⟩
    · exact hz
    · cases hp
  refine ⟨m, labels, rest, fun l hl => ⟨(hlabels l hl).1, (hlabels l hl).2.1⟩, rfl, ?_⟩
  have hsrc : (m.encode ++ (labels.flatMap labelBytes ++ 0 :: rest)).drop (12 + r.bytesCount) =
      rest := by
    rw [hk, ← List.drop_drop, htail, ← List.drop_drop, List.drop_left]
    rfl
  simp only [hsrc] at htype hcls
  obtain ⟨r1, rfl⟩ := ntohs_eq_ok.mp htype
  obtain ⟨r2, hr2⟩ := ntohs_eq_ok.mp hcls
  have hd2 : (htons type ++ r1).drop 2 = r1 := rfl
  rw [hd2] at hr2
  rw [hr2, List.length_append, List.length_append, htons_length, htons_length]
  omega

/-- The decoder reads bytes of the buffer only when a complete query lies at its front. -/
theorem decode_outside {buffer : Bytes} :
    decode buffer = .error .outside ↔ ¬ Complete buffer := by
  constructor
  · rintro hout ⟨m, labels, rest, hlabels, rfl, hrest⟩
    match rest, hrest with
    | a :: b :: c :: d :: rest, _ =>
      have hrun : LabelRun (fun _ => false) (labels.flatMap labelBytes ++ (0 :: _))
          (labels ++ []) 0 _ :=
        LabelRun.labels (fun l hl => ⟨(hlabels l hl).1, (hlabels l hl).2, rfl⟩)
          (@LabelRun.root _ (a :: b :: c :: d :: rest) rfl)
      have hdecode := @decode_parts m (labels.flatMap labelBytes ++ [0]) (labels ++ []) 0 _
        (word b a) (word d c) rest rfl
        (by simpa [htons_word] using hrun)
      simp only [htons_word, List.append_assoc, List.cons_append, List.nil_append] at hdecode
      rw [hdecode] at hout
      cases hout
  · intro hno
    refine (decode_reader buffer).outside_iff.mpr ?_
    rintro ⟨r, h⟩
    exact hno (complete_of_decode h)

end DNSQuery

end Dns
end NetworkProtocols
