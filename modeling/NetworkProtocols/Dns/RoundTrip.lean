import NetworkProtocols.Dns.Sections

/-!
# Decoding an encoded response

`DNSResponse::encode` writes one question and one answer with the same uncompressed name,
and the `data` of the answer as a domain name whatever its type. `DNSResponse::decode` finds
both again.
-/

namespace NetworkProtocols
namespace Dns

open Bytes Program

/-- A name of dot-free labels of one to 63 bytes. -/
structure DottedName (name : Bytes) (labels : List Bytes) : Prop where
  ne_nil : labels ≠ []
  wire : WireLabels labels
  dot_free : ∀ l ∈ labels, dot ∉ l
  eq : name = joinDots labels

namespace DottedName

variable {name : Bytes} {labels : List Bytes}

theorem encode (h : DottedName name labels) :
    encodeDomainName name = labels.flatMap labelBytes ++ [0] := by
  rw [h.eq, encodeDomainName_joinDots h.ne_nil h.dot_free]

theorem nameAt (h : DottedName name labels) {msg rest : Bytes} {p : ℕ}
    (hdrop : msg.drop p = encodeDomainName name ++ rest) :
    NameAt msg p [labels] (encodeDomainName name).length := by
  rw [h.encode] at hdrop ⊢
  rw [List.append_assoc, List.singleton_append] at hdrop
  rw [List.length_append]
  exact .root h.wire hdrop

theorem joinStretches (h : DottedName name labels) : joinStretches [labels] = name := by
  rw [h.eq, Dns.joinStretches, List.foldl_cons, appendName, if_pos rfl, List.foldl_nil]

end DottedName

namespace DNSResponse

/-- The fields of the answer that `encode` writes. -/
def answerFields (r : DNSResponse) : RecordFields where
  type := r.type
  cls := r.cls
  ttl := r.ttl
  data := encodeDomainName r.data

theorem encode_eq (r : DNSResponse) :
    r.encode = r.toDNSMessage.encode ++ (encodeDomainName r.name ++ (htons r.type ++ htons r.cls ++
      (encodeDomainName r.name ++ fieldBytes r.answerFields))) := by
  simp only [encode, fieldBytes, answerFields, List.append_assoc]

section Parts

variable (r : DNSResponse)

def nameLength (r : DNSResponse) : ℕ := (encodeDomainName r.name).length

theorem encode_drop_question :
    r.encode.drop 12 = encodeDomainName r.name ++ (htons r.type ++ htons r.cls ++
      (encodeDomainName r.name ++ fieldBytes r.answerFields)) := by
  rw [encode_eq]
  rfl

theorem encode_drop_words :
    r.encode.drop (12 + nameLength r) = htons r.type ++ htons r.cls ++
      (encodeDomainName r.name ++ fieldBytes r.answerFields) := by
  rw [← List.drop_drop, encode_drop_question, nameLength, List.drop_left]

theorem encode_drop_answer :
    r.encode.drop (12 + nameLength r + 4) =
      encodeDomainName r.name ++ fieldBytes r.answerFields := by
  rw [← List.drop_drop, encode_drop_words]
  rfl

theorem encode_length :
    r.encode.length = 12 + (nameLength r + 4) +
      (nameLength r + 10 + (encodeDomainName r.data).length) := by
  simp only [encode, nameLength, List.length_append, DNSMessage.encode_length, htons_length,
    htonl_length]
  omega

end Parts

theorem readQuestion_encode (r : DNSResponse) {labels : List Bytes}
    (hname : DottedName r.name labels) :
    (readQuestion r.encode 12).Returns (⟨r.name, r.type, r.cls⟩, nameLength r + 4) := by
  have hread := (hname.nameAt r.encode_drop_question).readFullName
  refine readQuestion_returns.mpr ⟨_, hread, ?_, hname.joinStretches.symm, rfl⟩
  exact readTypeClass_eq_ok.mpr ⟨_, r.encode_drop_words⟩

/-- The answer as the decoder reads it, with the text that its type asks for. -/
theorem readResourceRecord_encode (r : DNSResponse) {labels dataLabels : List Bytes}
    (hname : DottedName r.name labels) (hdata : DottedName r.data dataLabels)
    (hlen : (encodeDomainName r.data).length < 65536) :
    ∃ text, (readResourceRecord r.encode (12 + (nameLength r + 4))).Returns
        (⟨r.name, r.type, r.cls, r.ttl, encodeDomainName r.data, text⟩,
          nameLength r + 10 + (encodeDomainName r.data).length) ∧
      (recordText r.encode r.type (encodeDomainName r.data)).Returns text ∧
      (r.type = QType.CNAME → text = r.data) := by
  have hanswer := hname.nameAt r.encode_drop_answer
  have hfields : r.encode.drop (12 + nameLength r + 4 + nameLength r) =
      fieldBytes r.answerFields := by
    rw [← List.drop_drop, encode_drop_answer, nameLength, List.drop_left]
  have hf : FieldsAt r.encode (12 + nameLength r + 4 + nameLength r) r.answerFields :=
    ⟨hlen, [], by rw [hfields, List.append_nil]⟩
  have hdrop : r.encode.drop (12 + nameLength r + 4 + nameLength r + 10) =
      encodeDomainName r.data ++ [] := by
    rw [← List.drop_drop, hfields, List.append_nil]
    rfl
  have hdataName := hdata.nameAt hdrop
  have htext : ∃ text, (recordText r.encode r.type (encodeDomainName r.data)).Returns text ∧
      (r.type = QType.CNAME → text = r.data) := by
    by_cases hC : r.type = QType.CNAME
    · have ht := recordText_cname (f := r.answerFields) hC hdataName hf.data_eq
      exact ⟨_, ht, fun _ => hdata.joinStretches⟩
    · have hA : r.answerFields.data ≠ [] := by
        rw [answerFields, hdata.encode]
        simp
      obtain ⟨text, ht⟩ := recordText_returns.mpr
        ⟨fun _ => hA, fun h => absurd h hC⟩
      exact ⟨text, ht, fun h => absurd h hC⟩
  obtain ⟨text, ht, hcname⟩ := htext
  have hread := readResourceRecord_nameAt hanswer hf ht
  rw [hname.joinStretches] at hread
  exact ⟨text, hread, ht, hcname⟩

theorem decode_encode (self r : DNSResponse) (hq : r.qCount = 1) (ha : r.aCount = 1)
    (hns : r.nsCount = 0) (har : r.arCount = 0) {question : Question} {answer : ResourceRecord}
    {k n : ℕ} (hquestion : (readQuestion r.encode 12).Returns (question, k))
    (hanswer : (readResourceRecord r.encode (12 + k)).Returns (answer, n)) :
    ∃ result, (self.decode r.encode).Returns (result, 12 + k + n) ∧
      result.toDNSMessage = r.toDNSMessage ∧ result.questions.elems = [question] ∧
      result.answerResourceRecords.elems = [answer] := by
  have hp : Parsed r.encode r.toDNSMessage [question] [answer] [] [] (12 + k) (12 + k + n)
      (12 + k + n) (12 + k + n) :=
    ⟨⟨_, r.encode_eq⟩, ⟨.cons hquestion .nil, by rw [hq]; rfl⟩,
      ⟨.cons hanswer .nil, by rw [ha]; rfl⟩, ⟨.nil, by rw [hns]; rfl⟩, ⟨.nil, by rw [har]; rfl⟩⟩
  exact ⟨_, hp.decode_returns self (Nat.zero_le _) (Nat.zero_le _), rfl, rfl, rfl⟩

/-- Decoding the encoding of a response restores the header, the question and the answer
whose data are the encoded name, and takes all the bytes. -/
theorem response_round_trip (self r : DNSResponse) (labels dataLabels : List Bytes)
    (hq : r.qCount = 1) (ha : r.aCount = 1) (hns : r.nsCount = 0) (har : r.arCount = 0)
    (hname : DottedName r.name labels) (hdata : DottedName r.data dataLabels)
    (hlen : (encodeDomainName r.data).length < 65536) :
    ∃ result text, (self.decode r.encode).Returns (result, r.encode.length) ∧
      result.toDNSMessage = r.toDNSMessage ∧
      result.questions.elems = [⟨r.name, r.type, r.cls⟩] ∧
      result.answerResourceRecords.elems =
        [⟨r.name, r.type, r.cls, r.ttl, encodeDomainName r.data, text⟩] ∧
      (r.type = QType.CNAME → text = r.data) := by
  obtain ⟨text, hanswer, -, hcname⟩ := readResourceRecord_encode r hname hdata hlen
  obtain ⟨result, hdecode, hheader, hquestions, hanswers⟩ :=
    decode_encode self r hq ha hns har (readQuestion_encode r hname) hanswer
  rw [← encode_length] at hdecode
  exact ⟨result, text, hdecode, hheader, hquestions, hanswers, hcname⟩

/-- An alias: the name `a.b` for the name `c`. -/
def aliasResponse : DNSResponse where
  id := 7
  flags := 0x8000
  qCount := 1
  aCount := 1
  name := [97, dot, 98]
  type := QType.CNAME
  cls := 1
  ttl := 60
  data := [99]

theorem response_round_trip_alias :
    ∃ result text, ((new 0 0 0).decode aliasResponse.encode).Returns (result, 39) ∧
      result.toDNSMessage = aliasResponse.toDNSMessage ∧
      result.answerResourceRecords.elems =
        [⟨[97, dot, 98], QType.CNAME, 1, 60, [1, 99, 0], text⟩] ∧ text = [99] := by
  have hname : DottedName aliasResponse.name [[97], [98]] :=
    ⟨by decide, by decide, by decide, rfl⟩
  have hdata : DottedName aliasResponse.data [[99]] := ⟨by decide, by decide, by decide, rfl⟩
  obtain ⟨result, text, hdecode, hheader, -, hanswer, htext⟩ :=
    response_round_trip (new 0 0 0) aliasResponse _ _ rfl rfl rfl rfl hname hdata (by decide)
  exact ⟨result, text, hdecode, hheader, hanswer, htext rfl⟩

end DNSResponse

end Dns
end NetworkProtocols
