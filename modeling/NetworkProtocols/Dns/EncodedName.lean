import NetworkProtocols.Dns.RoundTrip

/-!
# Encoded names on the wire

When the bytes of `encodeDomainName` are a name of the format. The pieces between the dots are
written as they are, empty or longer than a label may be, and the length octet of a long piece can
be that of a label, or a pointer.
-/

namespace NetworkProtocols
namespace Dns

open Bytes

/-- Labels behind length octets from 1 to 63, and one zero octet which is the last byte. -/
def IsWireName (bytes : Bytes) : Prop :=
  ∃ labels, WireLabels labels ∧ bytes = labels.flatMap labelBytes ++ [0]

/-- The bytes are a name of the format, all of which the decoder takes for this name. -/
def EncodesName (bytes name : Bytes) : Prop :=
  IsWireName bytes ∧ decodeDomainName bytes = .ok ⟨bytes.length, name, 0⟩

theorem decodeDomainName_wire {labels : List Bytes} (h : WireLabels labels) :
    decodeDomainName (labels.flatMap labelBytes ++ [0]) =
      .ok ⟨(labels.flatMap labelBytes ++ [0]).length, joinDots labels, 0⟩ := by
  have hrun := readName_of_run (h.run (.root rfl : LabelRun isPointer [0] [] 0 1))
  rw [decodeDomainName, hrun, List.length_append]
  rfl

section Pieces

variable {p l : Bytes} {ps ls : List Bytes}

theorem length_le_of_octet (hl : l.length ≤ 63)
    (h : UInt8.ofNat p.length = UInt8.ofNat l.length) : l.length ≤ p.length := by
  have hn := congrArg UInt8.toNat h
  rw [UInt8.toNat_ofNat', UInt8.toNat_ofNat'] at hn
  omega

theorem eq_of_prefix (hdot : dot ∉ p)
    (hjoin : p ++ ps.flatMap (dot :: ·) = l ++ ls.flatMap (dot :: ·))
    (hle : l.length ≤ p.length) : p = l := by
  rcases List.append_eq_append_iff.mp hjoin with ⟨rest, rfl, -⟩ | ⟨rest, rfl, hrest⟩
  · rw [List.length_append] at hle
    rw [List.length_eq_zero_iff.mp (show rest.length = 0 by omega), List.append_nil]
  · cases rest with
    | nil => rw [List.append_nil]
    | cons x rest =>
      cases ls with
      | nil => cases hrest
      | cons m ls =>
        obtain ⟨rfl, -⟩ := List.cons.inj hrest
        exact absurd (List.mem_append_right l List.mem_cons_self) hdot

/-- Pieces without dots and labels that make the same name and the same bytes are the same. -/
theorem pieces_eq_labels (hdot : ∀ p ∈ ps, dot ∉ p) (hwire : WireLabels ls)
    (hjoin : ps.flatMap (dot :: ·) = ls.flatMap (dot :: ·))
    (hbytes : ps.flatMap labelBytes = ls.flatMap labelBytes) : ps = ls := by
  induction ps generalizing ls with
  | nil =>
    cases ls with
    | nil => rfl
    | cons l ls => cases hbytes
  | cons p ps ih =>
    cases ls with
    | nil => cases hbytes
    | cons l ls =>
      rw [List.forall_mem_cons] at hdot
      obtain ⟨hl, hls⟩ := List.forall_mem_cons.mp hwire
      rw [List.flatMap_cons, List.flatMap_cons] at hbytes hjoin
      obtain ⟨hoctet, hrest⟩ := List.cons.inj hbytes
      have hnames := List.tail_eq_of_cons_eq hjoin
      obtain rfl := eq_of_prefix hdot.1 hnames (length_le_of_octet hl.2 hoctet)
      exact congrArg (p :: ·)
        (ih hdot.2 hls (List.append_cancel_left hnames) (List.append_cancel_left hrest))

end Pieces

/-- `encodeDomainName` yields a name of the format that is decoded to the same string if and only
if each piece between the dots has 1 to 63 bytes. -/
theorem encoded_name_iff (name : Bytes) :
    EncodesName (encodeDomainName name) name ↔
      ∀ piece ∈ name.splitOn dot, 1 ≤ piece.length ∧ piece.length ≤ 63 := by
  have hwire : (∀ piece ∈ name.splitOn dot, 1 ≤ piece.length ∧ piece.length ≤ 63) ↔
      WireLabels (name.splitOn dot) := by
    refine forall₂_congr fun piece _ => and_congr_left fun _ => ?_
    exact List.length_pos_iff
  have hjoin : joinDots (name.splitOn dot) = name := List.intercalate_splitOn dot
  rw [hwire]
  constructor
  · rintro ⟨⟨labels, hlabels, hbytes⟩, hdecode⟩
    rw [hbytes, decodeDomainName_wire hlabels] at hdecode
    have hname : joinDots labels = name := (NameRead.mk.inj (Except.ok.inj hdecode)).2.1
    have hsame := List.append_cancel_right hbytes
    have hpieces : name.splitOn dot ≠ [] := List.splitOn_ne_nil dot name
    have hne : labels ≠ [] := by
      rintro rfl
      obtain ⟨piece, pieces, hcons⟩ := List.exists_cons_of_ne_nil hpieces
      rw [hcons] at hsame
      cases hsame
    have hnames := congrArg (dot :: ·) (hjoin.trans hname.symm)
    rw [dot_joinDots hpieces, dot_joinDots hne] at hnames
    rw [pieces_eq_labels (fun _ => notMem_of_mem_splitOn) hlabels hnames hsame]
    exact hlabels
  · intro h
    refine ⟨⟨_, h, rfl⟩, ?_⟩
    rw [encodeDomainName, decodeDomainName_wire h, hjoin]

/-- The empty name is written as two octets, of which the decoder takes one. -/
theorem root_not_encoded : ¬ ∀ name, EncodesName (encodeDomainName name) name := by
  intro h
  have hroot := (h []).2
  revert hroot
  decide

end Dns
end NetworkProtocols
