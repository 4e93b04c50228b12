import NetworkProtocols.Dns.Query
import NetworkProtocols.Dns.RoundTrip

/-!
# The resolver and the address that its client reads

`DNSResolver::process` puts the address of a record, a text, into the data of the response.
`DNSResponse::encode` writes these data as a domain name, and `DNSResponse::decode` prints
the octets of an address record as numbers.
-/

namespace NetworkProtocols
namespace Dns

open Bytes Program

/-- `std::string::find`: the first position of the pattern. -/
def find (pattern : Bytes) : Bytes → Option ℕ
  | [] => if pattern = [] then some 0 else none
  | x :: s => if pattern.isPrefixOf (x :: s) then some 0 else (find pattern s).map (· + 1)

abbrev Record := Bytes × Bytes

namespace DNSResolver

def findAddress (records : List Record) (domainName : Bytes) : Bytes :=
  match records.find? fun record => record.2 == domainName with
  | some record => record.1
  | none => []

def findDomainName (records : List Record) (ipAddr : Bytes) : Bytes :=
  match records.find? fun record => record.1 == ipAddr with
  | some record => record.2
  | none => []

/-- The loop over `rfind('.')` appends the pieces between the dots, the last one first. -/
def getIpAddrFromQname (qname : Bytes) : Bytes :=
  match find (chars ".in-addr.arpa") qname with
  | none => []
  | some p => joinDots ((qname.take p).splitOn dot).reverse

def Rcode.NoError : UInt16 := 0
def Rcode.NameError : UInt16 := 3

def process (records : List Record) (query : DNSQuery) (response : DNSResponse) : DNSResponse :=
  let qname := query.name
  let ipAddr := getIpAddrFromQname qname
  let rdata := if ipAddr ≠ [] then findDomainName records ipAddr else findAddress records qname
  let message := { response.toDNSMessage with id := query.id, qCount := 1, aCount := 1 }
  { response with
    toDNSMessage := message.setFieldRcode (if rdata = [] then Rcode.NameError else Rcode.NoError)
    name := qname
    type := query.type
    cls := query.cls
    data := rdata }

def IsIPv4 (address : Bytes) : Prop :=
  ∃ a b c d : Byte, address =
    joinDots [decimal a.toNat, decimal b.toNat, decimal c.toNat, decimal d.toNat]

theorem process_address {records : List Record} {query : DNSQuery} {address : Bytes}
    (response : DNSResponse) (hno : find (chars ".in-addr.arpa") query.name = none)
    (hfound : records.find? (fun record => record.2 == query.name) = some (address, query.name)) :
    (process records query response).data = address := by
  have hip : getIpAddrFromQname query.name = [] := by rw [getIpAddrFromQname, hno]
  simp only [process, hip, ne_eq, not_true_eq_false, if_false, findAddress, hfound]

end DNSResolver

theorem decimal_digits (x : Byte) :
    decimal x.toNat ≠ [] ∧ (decimal x.toNat).length ≤ 3 ∧ dot ∉ decimal x.toNat := by
  have hall : ∀ k : Fin 256, decimal (UInt8.ofNat k.val).toNat ≠ [] ∧
      (decimal (UInt8.ofNat k.val).toNat).length ≤ 3 ∧ dot ∉ decimal (UInt8.ofNat k.val).toNat := by
    decide +kernel
  have hx := hall ⟨x.toNat, x.toNat_lt⟩
  rwa [UInt8.ofNat_toNat] at hx

/-- Every octet takes a digit, and a dot between two. -/
theorem addressText_length {data text : Bytes} (h : addressText data = .ok text) :
    2 * data.length ≤ text.length + 1 := by
  induction data generalizing text with
  | nil => cases h
  | cons x data ih =>
    have hx : 0 < (decimal x.toNat).length := List.length_pos_iff.mpr (decimal_digits x).1
    cases data with
    | nil =>
      obtain rfl := Except.ok.inj h
      simp only [List.length_singleton]
      omega
    | cons y data =>
      obtain ⟨tail, ht⟩ := addressText_some y data
      have htext : text = decimal x.toNat ++ dot :: tail := by
        have heq : addressText (x :: y :: data) = .ok (decimal x.toNat ++ dot :: tail) := by
          simp [addressText, ht, Except.map]
        exact Except.ok.inj (h.symm.trans heq)
      have hlen := ih ht
      simp only [htext, List.length_cons, List.length_append] at hlen ⊢
      omega

namespace DNSResolver

theorem IsIPv4.dotted {address : Bytes} (h : IsIPv4 address) :
    ∃ labels, DottedName address labels ∧ address.length ≤ 15 := by
  obtain ⟨a, b, c, d, rfl⟩ := h
  obtain ⟨ha, hal, had⟩ := decimal_digits a
  obtain ⟨hb, hbl, hbd⟩ := decimal_digits b
  obtain ⟨hc, hcl, hcd⟩ := decimal_digits c
  obtain ⟨hd, hdl, hdd⟩ := decimal_digits d
  refine ⟨[decimal a.toNat, decimal b.toNat, decimal c.toNat, decimal d.toNat],
    ⟨by simp, ?_, ?_, rfl⟩, ?_⟩
  · simp only [WireLabels, List.forall_mem_cons, List.not_mem_nil, false_implies, implies_true,
      and_true]
    exact ⟨⟨ha, by omega⟩, ⟨hb, by omega⟩, ⟨hc, by omega⟩, hd, by omega⟩
  · simp only [List.forall_mem_cons, List.not_mem_nil, false_implies, implies_true, and_true]
    exact ⟨had, hbd, hcd, hdd⟩
  · simp only [joinDots_eq, List.length_append, List.flatMap_cons, List.flatMap_nil,
      List.length_cons, List.length_nil]
    omega

/-- The client decodes the response to an address query, and the text of the one answer is
never the address that the server found. -/
theorem resolved_text_ne_address (self : DNSResponse) (records : List Record) (query : DNSQuery)
    (labels : List Bytes) (address : Bytes) (type cls : UInt16) (ttl : UInt32)
    (hA : query.type = QType.A) (hname : DottedName query.name labels)
    (hno : find (chars ".in-addr.arpa") query.name = none)
    (hfound : records.find? (fun record => record.2 == query.name) = some (address, query.name))
    (hip : IsIPv4 address) :
    ∃ result answer n,
      (self.decode (process records query (.new type cls ttl)).encode).Returns (result, n) ∧
      result.answerResourceRecords.elems = [answer] ∧ answer.text ≠ address := by
  obtain ⟨dataLabels, hdata, hshort⟩ := hip.dotted
  have haddress := process_address (.new type cls ttl) hno hfound
  have hlen := encodeDomainName_length address
  rw [← haddress] at hdata hlen
  obtain ⟨text, hanswer, htext, -⟩ := DNSResponse.readResourceRecord_encode
    (process records query (.new type cls ttl)) hname hdata (by rw [hlen, haddress]; omega)
  obtain ⟨result, hdecode, -, -, hanswers⟩ := DNSResponse.decode_encode self
    (process records query (.new type cls ttl)) rfl rfl rfl rfl
    (DNSResponse.readQuestion_encode _ hname) hanswer
  refine ⟨result, _, _, hdecode, hanswers, fun heq => ?_⟩
  have htypeA : (process records query (.new type cls ttl)).type = QType.A := hA
  rw [recordText, if_pos htypeA, returns_lift] at htext
  have hlong := addressText_length htext
  simp only at heq
  rw [heq, hlen, haddress] at hlong
  omega

def oneRecord : List Record := [(chars "1.2.3.4", chars "a.b")]
def oneQuery : DNSQuery := { name := chars "a.b", type := QType.A }

/-- The text is that of the octets of the encoded address. -/
theorem oneRecord_text :
    ∃ result n, ((DNSResponse.new 0 0 0).decode
        (process oneRecord oneQuery (.new 0 0 0)).encode).Returns (result, n) ∧
      result.answerResourceRecords.elems.map (·.text) = [chars "1.49.1.50.1.51.1.52.0"] ∧
      findAddress oneRecord oneQuery.name = chars "1.2.3.4" :=
  ⟨_, _, ⟨0, rfl⟩, by decide, by decide⟩

theorem resolved_text_oneRecord :
    ∃ result answer n, ((DNSResponse.new 0 0 0).decode
        (process oneRecord oneQuery (.new 0 0 0)).encode).Returns (result, n) ∧
      result.answerResourceRecords.elems = [answer] ∧ answer.text ≠ chars "1.2.3.4" :=
  resolved_text_ne_address (.new 0 0 0) oneRecord oneQuery [[97], [98]] (chars "1.2.3.4") 0 0 0
    rfl ⟨by decide, by decide, by decide, by decide⟩ (by decide) (by decide)
    ⟨1, 2, 3, 4, by decide⟩

end DNSResolver

end Dns
end NetworkProtocols
