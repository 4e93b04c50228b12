import NetworkProtocols.Dns.Labels
import NetworkProtocols.Dns.Message
import NetworkProtocols.Lib.StdVector

/-!
# DNS responses

`DNSResponse`: one object that is filled in for sending, with one question and one answer
under the same name, or filled by `decode` with four sections of entries.
-/

namespace NetworkProtocols
namespace Dns

open Bytes

structure Question where
  name : Bytes := []
  type : UInt16 := 0
  cls : UInt16 := 0
  deriving DecidableEq

structure ResourceRecord where
  name : Bytes := []
  type : UInt16 := 0
  cls : UInt16 := 0
  ttl : UInt32 := 0
  data : Bytes := []
  text : Bytes := []
  deriving DecidableEq

/-- The fields `name` to `data` are those of a response to send, the vectors those of a
received one. -/
structure DNSResponse extends DNSMessage where
  name : Bytes := []
  type : UInt16
  cls : UInt16
  ttl : UInt32
  data : Bytes := []
  questions : StdVector Question := {}
  answerResourceRecords : StdVector ResourceRecord := {}
  authorityResourceRecords : StdVector ResourceRecord := {}
  additionalResourceRecords : StdVector ResourceRecord := {}
  deriving DecidableEq

/-- A dot before the name of a further hop, unless nothing was read so far. -/
def appendName (name hop : Bytes) : Bytes := if name = [] then hop else name ++ dot :: hop

/-- The body of `while (offset != 0)`. -/
def followPointer (msg : Bytes) (r : NameRead) : Except Halt NameRead :=
  (decodeDomainName (msg.drop r.offset)).map
    fun hop => { r with name := appendName r.name hop.name, offset := hop.offset }

/-- The loop that follows the pointers behind a name: the same at the question name, the
record name and the CNAME data. -/
def followPointers (msg : Bytes) (r : NameRead) : Program NameRead :=
  Program.loop (fun r => r.offset != 0) (followPointer msg) r

/-- A name at the front of `data`, with its pointers into the message followed. -/
def readFullName (msg data : Bytes) : Program NameRead := do
  let r ← decodeDomainName data
  followPointers msg r

/-- The two words behind the name of a question. -/
def readTypeClass (src : Bytes) : Except Halt (UInt16 × UInt16) := do
  let type ← ntohs src
  let cls ← ntohs (src.drop 2)
  pure (type, cls)

/-- The body of the loop over the questions, and the bytes it takes. -/
def readQuestion (buffer : Bytes) (bytesCount : ℕ) : Program (Question × ℕ) := do
  let r ← readFullName buffer (buffer.drop bytesCount)
  let (type, cls) ← readTypeClass (buffer.drop (bytesCount + r.bytesCount))
  pure ({ name := r.name, type, cls }, r.bytesCount + 4)

/-- The octets in decimal with dots between. Without octets the bound `size() - 1` wraps
and `_data[0]` is read all the same. -/
def addressText : Bytes → Except Halt Bytes
  | [] => .error .outside
  | [x] => .ok (decimal x.toNat)
  | x :: data => (addressText data).map fun text => decimal x.toNat ++ dot :: text

/-- The `switch` over the type of a record. -/
def recordText (msg : Bytes) (type : UInt16) (data : Bytes) : Program Bytes :=
  if type = QType.A then addressText data
  else if type = QType.CNAME then do
    let r ← readFullName msg data
    pure r.name
  else pure []

/-- The fields of a record behind its name. -/
structure RecordFields where
  type : UInt16
  cls : UInt16
  ttl : UInt32
  data : Bytes
  deriving DecidableEq

def readFields (src : Bytes) : Except Halt RecordFields := do
  let type ← ntohs src
  let cls ← ntohs (src.drop 2)
  let ttl ← ntohl (src.drop 4)
  let rdataLength ← ntohs (src.drop 8)
  let data ← copyN rdataLength.toNat (src.drop 10)
  pure { type, cls, ttl, data }

def readResourceRecord (msg : Bytes) (recOffset : ℕ) : Program (ResourceRecord × ℕ) := do
  let r ← readFullName msg (msg.drop recOffset)
  let f ← readFields (msg.drop (recOffset + r.bytesCount))
  let text ← recordText msg f.type f.data
  pure ({ name := r.name, type := f.type, cls := f.cls, ttl := f.ttl, data := f.data, text },
    r.bytesCount + 10 + f.data.length)

/-- The loop that reads `n` entries and stores them from index `i` on. -/
def readEntries {α : Type} (read : ℕ → Program (α × ℕ)) :
    ℕ → ℕ → StdVector α → ℕ → Program (StdVector α × ℕ)
  | 0, _, v, bytesCount => pure (v, bytesCount)
  | n+1, i, v, bytesCount => do
    let (entry, size) ← read bytesCount
    let v ← v.assign i entry
    readEntries read n (i+1) v (bytesCount + size)

namespace DNSResponse

/-- `DNSResponse()`, which leaves the type, the class and the TTL indeterminate. -/
def new (type cls : UInt16) (ttl : UInt32) : DNSResponse where
  toDNSMessage := DNSMessage.setFlagQR {}
  type := type
  cls := cls
  ttl := ttl

def decode (self : DNSResponse) (buffer : Bytes) : Program (DNSResponse × ℕ) := do
  let (message, bytesCount) ← DNSMessage.decode buffer
  let n := message.qCount.toNat
  let (questions, bytesCount) ←
    readEntries (readQuestion buffer) n 0 (self.questions.resize n {}) bytesCount
  let n := message.aCount.toNat
  let (answers, bytesCount) ←
    readEntries (readResourceRecord buffer) n 0 (self.answerResourceRecords.resize n {}) bytesCount
  let n := message.nsCount.toNat
  let (authority, bytesCount) ←
    readEntries (readResourceRecord buffer) n 0 (self.authorityResourceRecords.reserve n) bytesCount
  let n := message.arCount.toNat
  let (additional, bytesCount) ←
    readEntries (readResourceRecord buffer) n 0 (self.additionalResourceRecords.reserve n)
      bytesCount
  pure ({ self with
    toDNSMessage := message
    questions := questions
    answerResourceRecords := answers
    authorityResourceRecords := authority
    additionalResourceRecords := additional }, bytesCount)

/-- The header, the question, and the answer with the encoded `data`. -/
def encode (r : DNSResponse) : Bytes :=
  r.toDNSMessage.encode
    ++ encodeDomainName r.name ++ htons r.type ++ htons r.cls
    ++ encodeDomainName r.name ++ htons r.type ++ htons r.cls ++ htonl r.ttl
    ++ htons (UInt16.ofNat (encodeDomainName r.data).length) ++ encodeDomainName r.data

end DNSResponse

end Dns
end NetworkProtocols
