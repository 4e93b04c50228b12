import NetworkProtocols.Dns.Client
import NetworkProtocols.Dns.Server
import NetworkProtocols.Lib.RequestReply

/-!
# Many clients and a server

All clients of the server use the same id in their queries, so a client takes the first datagram
that reaches him for his answer. He asks one question at a time, and as long as no receive of his
fails no other answer than that to his question can reach him. The network may lose, delay and
reorder datagrams but does not duplicate them, and nobody but the server sends to the clients.
-/

namespace NetworkProtocols
namespace Dns

open Bytes RequestReply Relation

/-- A call of `resolve`: whether recursion is asked for, and the name. -/
structure Lookup where
  useRecursion : Bool
  addr : Bytes

def Lookup.query (l : Lookup) : DNSQuery := DNSClient.query l.useRecursion l.addr

/-- The server, the clients, and the datagrams on their way, each with the client that it comes
from or goes to. -/
structure Network where
  clients : ℕ → Client Lookup
  server : DNSServer.State := DNSServer.start
  clientEndpoint : ℕ := 0
  queries : List (ℕ × Bytes) := []
  replies : List (ℕ × Bytes) := []

namespace Network

/-- A step of a client, of the server, or of the network. -/
inductive Step (records : List Record) : Network → Network → Prop
  | resolve {s c} (l : Lookup) : s.clients c = .idle →
      Step records s { s with
        clients := Function.update s.clients c (.waiting l)
        queries := s.queries ++ [(c, l.query.encode)] }
  | stranger {s c} (datagram : Bytes) : s.clients c = .stranger →
      Step records s { s with queries := s.queries ++ [(c, datagram)] }
  | received {s p c p' r server} : s.queries = p ++ (c, r.buffer) :: p' →
      DNSServer.Step records s.server (.received r) server →
      Step records s { s with server := server, clientEndpoint := c, queries := p ++ p' }
  | receiveFailed {s r server} : r.receiveError = true →
      DNSServer.Step records s.server (.received r) server →
      Step records s { s with server := server }
  | sent {s buffer server} : .send buffer ∈ s.server.pending →
      DNSServer.Step records s.server (.sent false) server →
      Step records s { s with
        server := server
        replies := s.replies ++ [(s.clientEndpoint, buffer)] }
  | sendFailed {s server} : DNSServer.Step records s.server (.sent true) server →
      Step records s { s with server := server }
  | signal {s error server} : DNSServer.Step records s.server (.signal error) server →
      Step records s { s with server := server }
  | loseQuery {s p c datagram p'} : s.queries = p ++ (c, datagram) :: p' →
      Step records s { s with queries := p ++ p' }
  | loseReply {s p c datagram p'} : s.replies = p ++ (c, datagram) :: p' →
      Step records s { s with replies := p ++ p' }
  | resolved {s c l p datagram p'} : s.clients c = .waiting l →
      s.replies = p ++ (c, datagram) :: p' →
      Step records s { s with
        clients := Function.update s.clients c .idle
        replies := p ++ p' }
  | resolveFailed {s c l} : s.clients c = .waiting l →
      Step records s { s with clients := Function.update s.clients c .stranger }

/-- A datagram to the server or to a client. -/
inductive Datagram
  | query (bytes : Bytes)
  | reply (bytes : Bytes)

/-- The server makes a reply of a query. -/
inductive Turns (records : List Record) : Datagram → Datagram → Prop
  | answer {r : DNSServer.Received} {buffer : Bytes} : r.Possible →
      DNSServer.onReceive records r = [.send buffer] →
      Turns records (.query r.buffer) (.reply buffer)

/-- The buffers that the server was given to send and has not sent yet. -/
def sending (pending : List DNSServer.Operation) : List Bytes :=
  pending.filterMap fun
    | .receive => none
    | .send buffer => some buffer

/-- The datagrams of all clients: to the server, in the server, and to the clients. -/
def inFlight (queries : List (ℕ × Bytes)) (buffers : List Bytes) (clientEndpoint : ℕ)
    (replies : List (ℕ × Bytes)) : Multiset (ℕ × Datagram) :=
  (queries.map (fun p => (p.1, .query p.2)) ++
    (buffers.map (fun buffer => (clientEndpoint, .reply buffer)) ++
      replies.map fun p => (p.1, .reply p.2)) : List (ℕ × Datagram))

def exchange (s : Network) : RequestReply.State ℕ Lookup Datagram where
  clients := s.clients
  inFlight := inFlight s.queries (sending s.server.pending) s.clientEndpoint s.replies

def asks (l : Lookup) : Datagram := .query l.query.encode

section InFlight

variable {queries p p' replies : List (ℕ × Bytes)} {buffers : List Bytes} {endpoint c : ℕ}
variable {b : Bytes}

theorem inFlight_query :
    inFlight (p ++ (c, b) :: p') buffers endpoint replies =
      (c, .query b) ::ₘ inFlight (p ++ p') buffers endpoint replies := by
  simp only [inFlight, List.map_append, List.map_cons, List.append_assoc, List.cons_append]
  exact Multiset.coe_eq_coe.mpr List.perm_middle

theorem inFlight_reply :
    inFlight queries buffers endpoint (p ++ (c, b) :: p') =
      (c, .reply b) ::ₘ inFlight queries buffers endpoint (p ++ p') := by
  simp only [inFlight, List.map_append, List.map_cons, ← List.append_assoc]
  exact Multiset.coe_eq_coe.mpr List.perm_middle

theorem inFlight_send (endpoint' : ℕ) :
    inFlight queries [b] endpoint replies =
      (endpoint, .reply b) ::ₘ inFlight queries [] endpoint' replies := by
  simp only [inFlight, List.map_cons, List.map_nil, List.cons_append, List.nil_append]
  exact Multiset.coe_eq_coe.mpr List.perm_middle

end InFlight

def Single (s : Network) : Prop := s.server.pending.length ≤ 1

variable {records : List Record} {s t : Network}

theorem onReceive_single (r : DNSServer.Received) :
    DNSServer.onReceive records r = [] ∨
      ∃ buffer, DNSServer.onReceive records r = [.send buffer] := by
  rcases @DNSServer.onReceive_cases records r with ⟨-, h⟩ | ⟨-, h⟩
  · exact .inr h
  · exact .inl h

theorem onReceive_failed {r : DNSServer.Received} (h : r.receiveError = true) :
    DNSServer.onReceive records r = [] := by
  rw [DNSServer.onReceive, if_pos h]

theorem single_eq {op : DNSServer.Operation} {pending : List DNSServer.Operation}
    (h : pending.length ≤ 1) (hop : op ∈ pending) : pending = [op] := by
  match pending, h, hop with
  | [x], _, hop => rw [List.mem_singleton.mp hop]

theorem received_server {server t : DNSServer.State} {r : DNSServer.Received}
    (hs : server.pending.length ≤ 1) (h : DNSServer.Step records server (.received r) t) :
    server.pending = [.receive] ∧ r.Possible ∧ t.pending = DNSServer.onReceive records r := by
  cases h with
  | received _ hmem hpossible =>
    have hpending := single_eq hs hmem
    refine ⟨hpending, hpossible, ?_⟩
    simp [hpending]

theorem sent_server {server t : DNSServer.State} {error : Bool} (hs : server.pending.length ≤ 1)
    (h : DNSServer.Step records server (.sent error) t) :
    (∃ buffer, server.pending = [.send buffer]) ∧ t.pending = DNSServer.onSend error := by
  cases h with
  | sent _ hmem =>
    have hpending := single_eq hs hmem
    refine ⟨⟨_, hpending⟩, ?_⟩
    simp [hpending]

theorem signal_server {server t : DNSServer.State} {error : Bool}
    (h : DNSServer.Step records server (.signal error) t) : t.pending = server.pending := by
  cases h with
  | signal _ _ => rfl

theorem onReceive_length (r : DNSServer.Received) :
    (DNSServer.onReceive records r).length ≤ 1 := by
  rcases @onReceive_single records r with h | ⟨buffer, h⟩
  · rw [h]
    exact Nat.zero_le 1
  · rw [h]
    exact Nat.le_refl 1

theorem onSend_length (error : Bool) : (DNSServer.onSend error).length ≤ 1 := by
  cases error
  · exact Nat.le_refl 1
  · exact Nat.zero_le 1

theorem Step.single (hs : Single s) (h : Step records s t) : Single t := by
  cases h with
  | received _ hserver =>
    rw [Single, (received_server hs hserver).2.2]
    exact onReceive_length _
  | receiveFailed _ hserver =>
    rw [Single, (received_server hs hserver).2.2]
    exact onReceive_length _
  | sent _ hserver =>
    rw [Single, (sent_server hs hserver).2]
    exact onSend_length _
  | sendFailed hserver =>
    rw [Single, (sent_server hs hserver).2]
    exact onSend_length _
  | signal hserver =>
    rw [Single, signal_server hserver]
    exact hs
  | resolve _ _ => exact hs
  | stranger _ _ => exact hs
  | loseQuery _ => exact hs
  | loseReply _ => exact hs
  | resolved _ _ => exact hs
  | resolveFailed _ => exact hs

/-- A step of the network is a step of the exchange, or is not to be seen there. -/
theorem Step.exchange (hs : Single s) (h : Step records s t) :
    t.exchange = s.exchange ∨
      RequestReply.Step asks (Turns records) s.exchange t.exchange := by
  cases h with
  | resolve l hidle =>
    right
    simp only [Network.exchange, inFlight_query, List.append_nil]
    exact .ask _ hidle
  | stranger datagram hstranger =>
    right
    simp only [Network.exchange, inFlight_query, List.append_nil]
    exact .inject hstranger
  | @received p c p' r server hqueries hserver =>
    right
    obtain ⟨hpending, hpossible, hafter⟩ := received_server hs hserver
    have hbefore : sending s.server.pending = [] := congrArg sending hpending
    simp only [Network.exchange, hqueries, hbefore, inFlight_query]
    rcases @onReceive_single records r with hnone | ⟨buffer, hsome⟩
    · have hnothing : sending server.pending = [] := congrArg sending (hafter.trans hnone)
      rw [hnothing]
      exact .lose
    · have hanswer : sending server.pending = [buffer] := congrArg sending (hafter.trans hsome)
      rw [hanswer, inFlight_send s.clientEndpoint]
      exact .turn (.answer hpossible hsome)
  | @receiveFailed r server hfails hserver =>
    left
    obtain ⟨hpending, -, hafter⟩ := received_server hs hserver
    rw [onReceive_failed hfails] at hafter
    simp only [Network.exchange, hpending, hafter]
    rfl
  | @sent buffer server hmem hserver =>
    left
    obtain ⟨-, hafter⟩ := sent_server hs hserver
    have hbefore : sending s.server.pending = [buffer] := congrArg sending (single_eq hs hmem)
    have hnothing : sending server.pending = [] := congrArg sending hafter
    simp only [Network.exchange, hbefore, hnothing, inFlight_send s.clientEndpoint,
      inFlight_reply, List.append_nil]
  | @sendFailed server hserver =>
    right
    obtain ⟨⟨buffer, hpending⟩, hafter⟩ := sent_server hs hserver
    have hbefore : sending s.server.pending = [buffer] := congrArg sending hpending
    have hnothing : sending server.pending = [] := congrArg sending hafter
    simp only [Network.exchange, hbefore, hnothing, inFlight_send s.clientEndpoint]
    exact .lose
  | signal hserver =>
    left
    simp only [Network.exchange, signal_server hserver]
  | loseQuery hqueries =>
    right
    simp only [Network.exchange, hqueries, inFlight_query]
    exact .lose
  | loseReply hreplies =>
    right
    simp only [Network.exchange, hreplies, inFlight_reply]
    exact .lose
  | resolved hwaiting hreplies =>
    right
    simp only [Network.exchange, hreplies, inFlight_reply]
    exact .take hwaiting
  | resolveFailed hwaiting =>
    right
    exact .leave hwaiting

/-- A message that belongs to a call: its query, or the answer that the resolver has for it. -/
def Belongs (records : List Record) (l : Lookup) : Datagram → Prop
  | .query bytes => bytes = l.query.encode
  | .reply bytes => (∃ labels, DottedName l.addr labels) →
      ∃ ttl, bytes = (DNSResolver.process records l.query (.new 0 0 ttl)).encode

/-- What the server sends is the answer to what it decoded. -/
theorem onReceive_send {r : DNSServer.Received} {buffer : Bytes}
    (h : DNSServer.onReceive records r = [.send buffer]) :
    ∃ query, r.decoded = some query ∧
      buffer = (DNSResolver.process records query (.new 0 0 r.ttl)).encode := by
  simp only [DNSServer.onReceive] at h
  split at h
  · cases h
  split at h
  · cases h
  split at h
  · cases h
  split at h
  · cases h
  · rename_i query hquery
    split at h
    · cases h
    split at h
    · cases h
    · simp only [DNSServer.sendResponse, List.cons.injEq, DNSServer.Operation.send.injEq,
        and_true] at h
      exact ⟨query, hquery, h.symm⟩

/-- Two clients; the second one's query is the first to arrive. -/
def twoNames : List Record := [(chars "1.2.3.4", chars "a.b"), (chars "5.6.7.8", chars "c")]

def lookupC : Lookup := ⟨true, chars "c"⟩

def answerTo (l : Lookup) : Bytes := (DNSResolver.process twoNames l.query (.new 0 0 0)).encode

def answered : DNSServer.State where
  pending := [.send (answerTo lookupC)]
  waiting := true
  stopped := false

end Network
end Dns
end NetworkProtocols
