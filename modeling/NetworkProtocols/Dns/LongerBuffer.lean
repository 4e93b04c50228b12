import NetworkProtocols.Dns.Framing

/-!
# Messages with bytes behind them

`DNSClient::resolve` decodes its whole buffer of 512 bytes, whatever the length of the datagram.
A decoder that stays inside a message makes the same of every buffer that starts with it, the
compression pointers included.
-/

namespace NetworkProtocols
namespace Dns

open Bytes Program

theorem LabelRun.append {pointer : Byte → Bool} {data : Bytes} {labels : List Bytes}
    {offset n : ℕ} (h : LabelRun pointer data labels offset n) (rest : Bytes) :
    LabelRun pointer (data ++ rest) labels offset n := by
  induction h with
  | root h0 => exact .root h0
  | pointer hp => exact .pointer hp
  | label hl hlen hp _ ih =>
    rw [List.append_assoc]
    exact .label hl hlen hp ih

theorem readName_append {pointer : Byte → Bool} {data : Bytes} {r : NameRead}
    (h : readName pointer data = .ok r) (rest : Bytes) :
    readName pointer (data ++ rest) = .ok r := by
  obtain ⟨labels, hrun, hname⟩ := readName_eq_ok.mp h
  exact readName_eq_ok.mpr ⟨labels, hrun.append rest, hname⟩

theorem DNSMessage.decode_append {buffer : Bytes} {r : DNSMessage × ℕ}
    (h : DNSMessage.decode buffer = .ok r) (rest : Bytes) :
    DNSMessage.decode (buffer ++ rest) = .ok r := by
  obtain ⟨hn, tail, rfl⟩ := DNSMessage.decode_eq_ok.mp h
  exact DNSMessage.decode_eq_ok.mpr ⟨hn, tail ++ rest, List.append_assoc _ _ _⟩

theorem readTypeClass_append {src : Bytes} {w : UInt16 × UInt16} (h : readTypeClass src = .ok w)
    (rest : Bytes) : readTypeClass (src ++ rest) = .ok w := by
  obtain ⟨tail, rfl⟩ := readTypeClass_eq_ok.mp h
  exact readTypeClass_eq_ok.mpr ⟨tail ++ rest, List.append_assoc _ _ _⟩

theorem readFields_append {src : Bytes} {f : RecordFields} (h : readFields src = .ok f)
    (rest : Bytes) : readFields (src ++ rest) = .ok f := by
  obtain ⟨hlen, tail, rfl⟩ := readFields_eq_ok.mp h
  exact readFields_eq_ok.mpr ⟨hlen, tail ++ rest, List.append_assoc _ _ _⟩

section Offset

variable {α : Type} {reader : Bytes → Except Halt α}

theorem at_offset (hreader : ∀ src a, reader src = .ok a → ∀ rest, reader (src ++ rest) = .ok a)
    (msg rest : Bytes) (p : ℕ) (a : α) (h : reader (msg.drop p) = .ok a) :
    reader ((msg ++ rest).drop p) = .ok a := by
  rw [List.drop_append]
  exact hreader _ _ h _

end Offset

section Longer

variable (msg rest : Bytes)

theorem followPointer_append (r s : NameRead) (h : followPointer msg r = .ok s) :
    followPointer (msg ++ rest) r = .ok s := by
  cases hop : decodeDomainName (msg.drop r.offset) with
  | error e =>
    rw [followPointer, hop] at h
    cases h
  | ok name =>
    have hlonger := at_offset (fun _ _ h => readName_append h) msg rest r.offset name hop
    rw [followPointer, hop] at h
    rw [followPointer, decodeDomainName, hlonger]
    exact h

theorem readFullName_append (p : ℕ) :
    Extends (readFullName msg (msg.drop p)) (readFullName (msg ++ rest) ((msg ++ rest).drop p)) :=
  (extends_lift (at_offset (fun _ _ h => readName_append h) msg rest p)).bind
    fun r => extends_loop (followPointer_append msg rest) r

theorem readFullName_data (data : Bytes) :
    Extends (readFullName msg data) (readFullName (msg ++ rest) data) :=
  (Extends.refl _).bind fun r => extends_loop (followPointer_append msg rest) r

theorem readQuestion_append (p : ℕ) :
    Extends (readQuestion msg p) (readQuestion (msg ++ rest) p) :=
  (readFullName_append msg rest p).bind fun _ =>
    (extends_lift (at_offset (fun _ _ h => readTypeClass_append h) msg rest _)).bind
      fun _ => .refl _

theorem recordText_append (type : UInt16) (data : Bytes) :
    Extends (recordText msg type data) (recordText (msg ++ rest) type data) := by
  unfold recordText
  split
  · exact .refl _
  split
  · exact (readFullName_data msg rest data).bind fun _ => .refl _
  · exact .refl _

theorem readResourceRecord_append (p : ℕ) :
    Extends (readResourceRecord msg p) (readResourceRecord (msg ++ rest) p) :=
  (readFullName_append msg rest p).bind fun _ =>
    (extends_lift (at_offset (fun _ _ h => readFields_append h) msg rest _)).bind fun f =>
      (recordText_append msg rest f.type f.data).bind fun _ => .refl _

theorem readEntries_append {α : Type} {read read' : ℕ → Program (α × ℕ)}
    (hread : ∀ p, Extends (read p) (read' p)) (n i : ℕ) (v : StdVector α) (p : ℕ) :
    Extends (readEntries read n i v p) (readEntries read' n i v p) := by
  induction n generalizing i v p with
  | zero => exact .refl _
  | succ n ih => exact (hread p).bind fun _ => (Extends.refl _).bind fun _ => ih _ _ _

end Longer

theorem DNSResponse.decode_longer (self : DNSResponse) (message rest : Bytes) :
    Extends (self.decode message) (self.decode (message ++ rest)) := by
  have hquestions := fun k v => readEntries_append (readQuestion_append message rest) k 0 v
  have hrecords := fun k v => readEntries_append (readResourceRecord_append message rest) k 0 v
  exact (extends_lift fun _ h => DNSMessage.decode_append h rest).bind fun _ =>
    (hquestions _ _ _).bind fun _ => (hrecords _ _ _).bind fun _ =>
      (hrecords _ _ _).bind fun _ => (hrecords _ _ _).bind fun _ => .refl _

/-- A response that was decoded inside a message is decoded to the same, with the same number of
bytes, whatever follows the message. -/
theorem trailing_bytes_ignored (self result : DNSResponse) (message rest : Bytes) (n : ℕ)
    (h : (self.decode message).Returns (result, n)) :
    (self.decode (message ++ rest)).Returns (result, n) :=
  (self.decode_longer message rest).returns h

def pointedMessage : Bytes :=
  [0, 7, 128, 0, 0, 1, 0, 1, 0, 0, 0, 0] ++ [1, 97, 0, 0, 1, 0, 1] ++
    [192, 12, 0, 1, 0, 1, 0, 0, 0, 60, 0, 4, 10, 0, 0, 1]

theorem trailing_bytes_ignored_pointed : ∃ result,
    ((DNSResponse.new 0 0 0).decode (pointedMessage ++ [192, 0, 7])).Returns (result, 35) ∧
      result.answerResourceRecords.elems =
        [⟨[97], 1, 1, 60, [10, 0, 0, 1], [49, 48, dot, 48, dot, 48, dot, 49]⟩] :=
  ⟨_, trailing_bytes_ignored (.new 0 0 0) _ pointedMessage [192, 0, 7] 35 ⟨1, rfl⟩, by decide⟩

end Dns
end NetworkProtocols
