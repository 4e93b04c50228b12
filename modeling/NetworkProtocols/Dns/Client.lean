import NetworkProtocols.Dns.LongerBuffer
import NetworkProtocols.Dns.NameKinds

/-!
# The DNS client

`DNSClient::resolve` sends one address query, with the same id every time, and prints what
`DNSResponse::decode` makes of its buffer of 512 bytes, of which the datagram fills the front.
-/

namespace NetworkProtocols
namespace Dns

open Bytes Program

/-- `setFlagRD(on)`. -/
def DNSMessage.setFlagRD (on : Bool) (m : DNSMessage) : DNSMessage :=
  { m with flags := if on then m.flags ||| 0x100 else m.flags &&& 0xFEFF }

namespace DNSClient

def queryId : UInt16 := 0xAAAA

def recvBufferSize : ℕ := 512

/-- The query that `resolve` sends. -/
def query (useRecursion : Bool) (addr : Bytes) : DNSQuery where
  toDNSMessage :=
    if useRecursion then DNSMessage.setFlagRD true { id := queryId, qCount := 1 }
    else { id := queryId, qCount := 1 }
  name := addr
  type := QType.A

/-- What `resolve` prints: the response, or that its id is unexpected. -/
inductive Report
  | response (dnsResponse : DNSResponse)
  | unexpected (id : UInt16)
  deriving DecidableEq

/-- `resolve` behind `receive_from`. -/
def read (dnsResponse : DNSResponse) (recvBuffer : Bytes) : Program Report := do
  let (dnsResponse, _) ← dnsResponse.decode recvBuffer
  pure (if dnsResponse.id = queryId then .response dnsResponse else .unexpected dnsResponse.id)

end DNSClient

namespace DNSResponse

end DNSResponse

/-- What the client shows about the answer to a query: the question, whether the resolver has
anything for it, and the encoded text that it has, octet by octet. -/
structure Shows (records : List Record) (query : DNSQuery) (result : DNSResponse) : Prop where
  id : result.id = query.id
  rcode : result.getFieldRcode =
    if (DNSResolver.process records query (.new 0 0 0)).data = [] then DNSResolver.Rcode.NameError
    else DNSResolver.Rcode.NoError
  questions : result.questions.elems = [⟨query.name, query.type, query.cls⟩]
  answers : ∃ ttl text,
    addressText (encodeDomainName (DNSResolver.process records query (.new 0 0 0)).data) =
      .ok text ∧
    result.answerResourceRecords.elems = [⟨query.name, query.type, query.cls, ttl,
      encodeDomainName (DNSResolver.process records query (.new 0 0 0)).data, text⟩]

end Dns
end NetworkProtocols
