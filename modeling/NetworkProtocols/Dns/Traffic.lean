import Mathlib.Algebra.BigOperators.Group.Finset.Basic
import Mathlib.Data.Multiset.Count
import NetworkProtocols.Dns.Lookups

/-!
# Servers that answer each other

Nothing keeps a datagram from having a server for its sender: the address may be forged. A server
answers whoever the datagram says it is from, but it answers queries only, and its answers are
none. So among any number of servers, over a network that loses, delays and reorders, each
query that somebody sends is answered at most once, and no answer comes of anything else.
-/

namespace NetworkProtocols
namespace Dns

open Bytes Transition

section Answers

/-- Labels that may be empty, up to a zero octet: the first empty label is one already. -/
theorem exists_run {pieces : List Bytes} (hlen : ∀ l ∈ pieces, l.length < 256) (rest : Bytes) :
    ∃ labels n, LabelRun (fun _ => false) (pieces.flatMap labelBytes ++ 0 :: rest) labels 0 n ∧
      n ≤ (pieces.flatMap labelBytes).length + 1 := by
  induction pieces with
  | nil => exact ⟨[], 1, .root rfl, Nat.le_refl 1⟩
  | cons l pieces ih =>
    obtain ⟨labels, n, hrun, hn⟩ := ih fun m hm => hlen m (List.mem_cons_of_mem l hm)
    rw [List.flatMap_cons, List.append_assoc, List.length_append]
    by_cases hl : l = []
    · subst hl
      exact ⟨[], 1, .root rfl, by omega⟩
    · exact ⟨l :: labels, _, .label hl (hlen l List.mem_cons_self) rfl hrun, by omega⟩

theorem pieces_of_labels {labels : List Bytes} (hlen : ∀ l ∈ labels, l.length < 256) :
    ∀ piece ∈ (joinDots labels).splitOn dot, piece.length < 256 := by
  induction labels with
  | nil =>
    intro piece hpiece
    exact Nat.lt_of_le_of_lt (length_le_of_mem_splitOn hpiece) (by decide)
  | cons l labels ih =>
    intro piece hpiece
    have hl := hlen l List.mem_cons_self
    rw [joinDots_cons] at hpiece
    split at hpiece
    · exact Nat.lt_of_le_of_lt (length_le_of_mem_splitOn hpiece) hl
    · rw [List.splitOn_append_cons_self, List.mem_append] at hpiece
      rcases hpiece with hpiece | hpiece
      · exact Nat.lt_of_le_of_lt (length_le_of_mem_splitOn hpiece) hl
      · exact ih (fun m hm => hlen m (List.mem_cons_of_mem l hm)) piece hpiece

namespace DNSQuery

theorem decode_labels (m : DNSMessage) {labels : List Bytes}
    (hlabels : ∀ l ∈ labels, l ≠ [] ∧ l.length < 256) (a b c d : Byte) (rest : Bytes) :
    decode (m.encode ++ (labels.flatMap labelBytes ++ 0 :: a :: b :: c :: d :: rest)) =
      .ok ({ toDNSMessage := m, name := joinDots labels, type := word b a, cls := word d c },
        12 + ((labels.flatMap labelBytes).length + 1) + 4) := by
  have hrun : LabelRun (fun _ => false)
      (labels.flatMap labelBytes ++ (0 :: a :: b :: c :: d :: rest)) (labels ++ []) 0
      ((labels.flatMap labelBytes).length + 1) :=
    LabelRun.labels (fun l hl => ⟨(hlabels l hl).1, (hlabels l hl).2, rfl⟩) (.root rfl)
  have hdecode := @decode_parts m (labels.flatMap labelBytes ++ [0]) (labels ++ []) 0 _
    (word b a) (word d c) rest List.length_append (by simpa [htons_word] using hrun)
  simpa [htons_word] using hdecode

theorem decode_behind {buffer : Bytes} {q : DNSQuery} {n : ℕ} (h : decode buffer = .ok (q, n))
    (behind : Bytes) : decode (buffer ++ behind) = .ok (q, n) := by
  obtain ⟨m, labels, rest, hlabels, rfl, hrest⟩ := complete_of_decode h
  match rest, hrest with
  | a :: b :: c :: d :: rest, _ =>
    rw [decode_labels m hlabels] at h
    rw [← h, List.append_assoc, List.append_assoc]
    exact decode_labels m hlabels a b c d (rest ++ behind)

theorem decode_name {buffer : Bytes} {q : DNSQuery} {n : ℕ} (h : decode buffer = .ok (q, n)) :
    ∃ labels : List Bytes, (∀ l ∈ labels, l.length < 256) ∧ q.name = joinDots labels := by
  obtain ⟨m, labels, rest, hlabels, rfl, hrest⟩ := complete_of_decode h
  match rest, hrest with
  | a :: b :: c :: d :: rest, _ =>
    rw [decode_labels m hlabels] at h
    obtain ⟨rfl, -⟩ := Prod.mk.inj (Except.ok.inj h)
    exact ⟨labels, fun l hl => (hlabels l hl).2, rfl⟩

theorem decode_of_run (m : DNSMessage) {tail : Bytes} {labels : List Bytes} {offset n : ℕ}
    (hrun : LabelRun (fun _ => false) tail labels offset n) (hlen : n + 4 ≤ tail.length) :
    ∃ q k, decode (m.encode ++ tail) = .ok (q, k) ∧ q.toDNSMessage = m := by
  obtain ⟨hlabels, rest, k, rfl, hend, rfl⟩ := hrun.split
  obtain ⟨rest, rfl, -, rfl⟩ : ∃ rest', rest = 0 :: rest' ∧ offset = 0 ∧ k = 1 := by
    rcases hend.end_cases with hzero | ⟨_, _, _, hp, -⟩
    · exact hzero
    · cases hp
  match rest, hlen with
  | a :: b :: c :: d :: rest, _ =>
    exact ⟨_, _, decode_labels m (fun l hl => ⟨(hlabels l hl).1, (hlabels l hl).2.1⟩) a b c d rest,
      rfl⟩
  | [], hlen | [_], hlen | [_, _], hlen | [_, _, _], hlen =>
    simp only [List.length_append, List.length_cons, List.length_nil] at hlen
    omega

end DNSQuery

/-- A message that the server does not take for a query. -/
def isResponse (datagram : Bytes) : Bool :=
  match DNSQuery.decode datagram with
  | .ok (query, _) => query.getFlagQR
  | .error _ => false

theorem isResponse_encode {r : DNSResponse} (hqr : r.getFlagQR = true)
    (hlen : ∀ piece ∈ r.name.splitOn dot, piece.length < 256) : isResponse r.encode = true := by
  obtain ⟨labels, n, hrun, hn⟩ := exists_run hlen (htons r.type ++ htons r.cls ++
    (encodeDomainName r.name ++ fieldBytes r.answerFields))
  obtain ⟨q, k, hdecode, hq⟩ := DNSQuery.decode_of_run r.toDNSMessage hrun (by
    simp only [List.length_append, List.length_cons, htons_length]
    omega)
  have hencode : r.encode = r.toDNSMessage.encode ++ ((r.name.splitOn dot).flatMap labelBytes ++
      0 :: (htons r.type ++ htons r.cls ++
        (encodeDomainName r.name ++ fieldBytes r.answerFields))) := by
    rw [r.encode_eq]
    simp only [encodeDomainName, List.append_assoc, List.singleton_append]
  rw [isResponse, hencode, hdecode]
  simp only [hq, hqr]

theorem process_getFlagQR (records : List Record) (query : DNSQuery) (ttl : UInt32) :
    (DNSResolver.process records query (.new 0 0 ttl)).getFlagQR = true := by
  have hflags : ∀ rdata : Bytes, ((0x8000 &&& 0xFFF0 |||
      ((if rdata = [] then DNSResolver.Rcode.NameError else DNSResolver.Rcode.NoError) &&& 0xF)) >>>
        15 == 1) = true := by
    intro rdata
    split <;> decide
  exact hflags _

end Answers

/-- What is read of a datagram lies in it, or in the memory behind it. -/
def DNSServer.Received.FromMemory (r : DNSServer.Received) : Prop :=
  ∀ query, r.decoded = some query → ∃ behind n,
    DNSQuery.decode (r.buffer ++ behind) = .ok (query, n)

namespace DNSServer.Received

variable {r : DNSServer.Received}
  (h : r.decoded = (DNSQuery.decode r.buffer).toOption.map Prod.fst)

include h

theorem possible_of_decode : r.Possible := by
  intro query n hdecode
  rw [h, hdecode]
  exact .inl rfl

theorem fromMemory_of_decode : r.FromMemory := by
  intro query hquery
  rw [h] at hquery
  cases hdecode : DNSQuery.decode r.buffer with
  | error e => simp [hdecode, Except.toOption] at hquery
  | ok read =>
    rw [hdecode] at hquery
    cases hquery
    exact ⟨[], read.2, by rw [List.append_nil, hdecode]⟩

end DNSServer.Received

/-- A datagram with the addresses that it bears. -/
structure Packet (H : Type*) where
  source : H
  destination : H
  bytes : Bytes

/-- The servers of some hosts, and the datagrams on their way. -/
structure Hosts (H : Type*) where
  servers : H → DNSServer.State
  clientEndpoints : H → H
  inFlight : Multiset (Packet H)

namespace Hosts

variable {H : Type*}

/-- Somebody sends a datagram, a server sends its answer, or nothing is sent. -/
inductive Event
  | injected (datagram : Bytes)
  | answered
  | silent
  deriving DecidableEq

def Event.isAnswer : Event → Bool
  | .answered => true
  | _ => false

def Event.mayAsk : Event → Bool
  | .injected datagram => !isResponse datagram
  | _ => false

variable [DecidableEq H]

/-- A step of a server, of the network, or of somebody else. -/
inductive Step (records : H → List Record) : Hosts H → Event → Hosts H → Prop
  | injected {s} (p : Packet H) :
      Step records s (.injected p.bytes) { s with inFlight := p ::ₘ s.inFlight }
  | received {s p rest r server} : s.inFlight = p ::ₘ rest → r.buffer = p.bytes → r.FromMemory →
      DNSServer.Step (records p.destination) (s.servers p.destination) (.received r) server →
      Step records s .silent
        { servers := Function.update s.servers p.destination server
          clientEndpoints := Function.update s.clientEndpoints p.destination p.source
          inFlight := rest }
  | receiveFailed {s h r server} : r.receiveError = true →
      DNSServer.Step (records h) (s.servers h) (.received r) server →
      Step records s .silent { s with servers := Function.update s.servers h server }
  | sent {s h buffer server} : .send buffer ∈ (s.servers h).pending →
      DNSServer.Step (records h) (s.servers h) (.sent false) server →
      Step records s .answered { s with
        servers := Function.update s.servers h server
        inFlight := ⟨h, s.clientEndpoints h, buffer⟩ ::ₘ s.inFlight }
  | sendFailed {s h server} :
      DNSServer.Step (records h) (s.servers h) (.sent true) server →
      Step records s .silent { s with servers := Function.update s.servers h server }
  | signal {s h error server} :
      DNSServer.Step (records h) (s.servers h) (.signal error) server →
      Step records s .silent { s with servers := Function.update s.servers h server }
  | lost {s p rest} : s.inFlight = p ::ₘ rest →
      Step records s .silent { s with inFlight := rest }

def isSend : DNSServer.Operation → Bool
  | .receive => false
  | .send _ => true

section Server

variable {records : List Record} {server t : DNSServer.State}

theorem onReceive_response {r : DNSServer.Received} (hmemory : r.FromMemory)
    (h : isResponse r.buffer = true) : DNSServer.onReceive records r = [] := by
  rcases @DNSServer.onReceive_cases records r with ⟨⟨-, -, -, ⟨query, hquery, hqr⟩, -⟩, -⟩ | ⟨-, h⟩
  · unfold isResponse at h
    cases hdecode : DNSQuery.decode r.buffer with
    | error e => simp [hdecode] at h
    | ok read =>
      obtain ⟨query', n⟩ := read
      obtain ⟨behind, n', hread⟩ := hmemory query hquery
      rw [DNSQuery.decode_behind hdecode behind] at hread
      obtain ⟨rfl, -⟩ := Prod.mk.inj (Except.ok.inj hread)
      simp only [hdecode, hqr, Bool.false_eq_true] at h
  · exact h

theorem isResponse_onReceive {r : DNSServer.Received} (hmemory : r.FromMemory) {buffer : Bytes}
    (h : .send buffer ∈ DNSServer.onReceive records r) : isResponse buffer = true := by
  rcases @Network.onReceive_single records r with hnone | ⟨buffer', hsend⟩
  · rw [hnone] at h
    cases h
  · obtain ⟨query, hquery, rfl⟩ := Network.onReceive_send hsend
    rw [hsend, List.mem_singleton] at h
    cases h
    obtain ⟨behind, n, hread⟩ := hmemory query hquery
    obtain ⟨labels, hlen, hname⟩ := DNSQuery.decode_name hread
    refine isResponse_encode (process_getFlagQR records query r.ttl) ?_
    change ∀ piece ∈ query.name.splitOn dot, piece.length < 256
    rw [hname]
    exact pieces_of_labels hlen

theorem countP_received {r : DNSServer.Received}
    (h : DNSServer.Step records server (.received r) t) :
    t.pending.countP isSend =
      server.pending.countP isSend + (DNSServer.onReceive records r).length := by
  have hstarted : (DNSServer.onReceive records r).countP isSend =
      (DNSServer.onReceive records r).length := by
    rcases @Network.onReceive_single records r with hnone | ⟨buffer, hsend⟩
    · rw [hnone]
      rfl
    · rw [hsend]
      rfl
  cases h with
  | received _ _ _ =>
    rw [List.countP_append, List.countP_erase, hstarted]
    simp [isSend]

theorem countP_sent {error : Bool} (h : DNSServer.Step records server (.sent error) t) :
    t.pending.countP isSend + 1 = server.pending.countP isSend := by
  cases h with
  | sent _ hmem =>
    have hpos : 0 < server.pending.countP isSend := List.countP_pos_iff.mpr ⟨_, hmem, rfl⟩
    have hstarted : (DNSServer.onSend error).countP isSend = 0 := by cases error <;> rfl
    rw [List.countP_append, List.countP_erase, hstarted, if_pos ⟨hmem, rfl⟩]
    omega

theorem pending_received {r : DNSServer.Received} {op : DNSServer.Operation}
    (h : DNSServer.Step records server (.received r) t) (hop : op ∈ t.pending) :
    op ∈ server.pending ∨ op ∈ DNSServer.onReceive records r := by
  cases h with
  | received _ _ _ => exact (List.mem_append.mp hop).imp_left List.mem_of_mem_erase

theorem pending_sent {error : Bool} {buffer : Bytes}
    (h : DNSServer.Step records server (.sent error) t) (hop : .send buffer ∈ t.pending) :
    .send buffer ∈ server.pending := by
  cases h with
  | sent _ _ =>
    rcases List.mem_append.mp hop with hop | hop
    · exact List.mem_of_mem_erase hop
    · cases error <;> simp [DNSServer.onSend] at hop

end Server

/-- The servers send responses only. -/
def Answering (s : Hosts H) : Prop :=
  ∀ h buffer, .send buffer ∈ (s.servers h).pending → isResponse buffer = true

section Steps

variable {records : H → List Record} {s t : Hosts H} {e : Event}

theorem Answering.update {inFlight : Multiset (Packet H)} {endpoints : H → H} {h : H}
    {server : DNSServer.State} (hs : Answering s)
    (hserver : ∀ buffer, .send buffer ∈ server.pending → isResponse buffer = true) :
    Answering ⟨Function.update s.servers h server, endpoints, inFlight⟩ := by
  intro i buffer hmem
  by_cases hi : i = h
  · simp only [hi, Function.update_self] at hmem
    exact hserver buffer hmem
  · simp only [Function.update_of_ne hi] at hmem
    exact hs i buffer hmem

theorem Step.answering (hs : Answering s) (h : Step records s e t) : Answering t := by
  cases h with
  | injected _ => exact hs
  | lost _ => exact hs
  | received _ _ hmemory hserver =>
    refine hs.update fun buffer hmem => ?_
    rcases pending_received hserver hmem with hold | hnew
    · exact hs _ _ hold
    · exact isResponse_onReceive hmemory hnew
  | receiveFailed hfails hserver =>
    refine hs.update fun buffer hmem => ?_
    rcases pending_received hserver hmem with hold | hnew
    · exact hs _ _ hold
    · rw [Network.onReceive_failed hfails] at hnew
      cases hnew
  | sent _ hserver => exact hs.update fun buffer hmem => hs _ _ (pending_sent hserver hmem)
  | sendFailed hserver => exact hs.update fun buffer hmem => hs _ _ (pending_sent hserver hmem)
  | signal hserver =>
    refine hs.update fun buffer hmem => ?_
    rw [Network.signal_server hserver] at hmem
    exact hs _ _ hmem

variable [Fintype H]

def answers (servers : H → DNSServer.State) (h : H) : ℕ := (servers h).pending.countP isSend

def unanswered (s : Hosts H) : ℕ :=
  s.inFlight.countP (fun p => isResponse p.bytes = false) + ∑ h, answers s.servers h

theorem sum_update (servers : H → DNSServer.State) (h : H) (server : DNSServer.State) :
    ∑ i, answers (Function.update servers h server) i + (servers h).pending.countP isSend =
      ∑ i, answers servers i + server.pending.countP isSend := by
  have hothers : ∑ i ∈ Finset.univ.erase h, answers (Function.update servers h server) i =
      ∑ i ∈ Finset.univ.erase h, answers servers i := by
    refine Finset.sum_congr rfl fun i hi => ?_
    rw [answers, Function.update_of_ne (Finset.ne_of_mem_erase hi), answers]
  rw [← Finset.add_sum_erase _ _ (Finset.mem_univ h), hothers, answers, Function.update_self,
    ← Finset.add_sum_erase _ (answers servers) (Finset.mem_univ h), answers]
  omega

/-- Every answer uses up something that was to be answered, and only what is injected adds to it. -/
theorem Step.unanswered (hs : Answering s) (h : Step records s e t) :
    e.isAnswer.toNat + t.unanswered ≤ e.mayAsk.toNat + s.unanswered := by
  cases h with
  | injected p =>
    simp only [Hosts.unanswered, Event.isAnswer, Event.mayAsk, Multiset.countP_cons]
    cases isResponse p.bytes with
    | true =>
      simp
    | false =>
      simp
      omega
  | @lost p rest hflight =>
    simp only [Hosts.unanswered, Event.isAnswer, Event.mayAsk, hflight, Multiset.countP_cons]
    omega
  | @received p rest r server hflight hbuffer hmemory hserver =>
    have hsum := sum_update s.servers p.destination server
    rw [countP_received hserver] at hsum
    have hone := @Network.onReceive_length (records p.destination) r
    have hresponse := @onReceive_response (records p.destination) r hmemory
    simp only [Hosts.unanswered, Event.isAnswer, Event.mayAsk, hflight, Multiset.countP_cons]
    rw [hbuffer] at hresponse
    cases hp : isResponse p.bytes with
    | true =>
      have hnone := congrArg List.length (hresponse hp)
      simp only [List.length_nil] at hnone
      simp
      omega
    | false =>
      simp
      omega
  | @receiveFailed h r server hfails hserver =>
    have hsum := sum_update s.servers h server
    rw [countP_received hserver, Network.onReceive_failed hfails, List.length_nil] at hsum
    simp only [Hosts.unanswered, Event.isAnswer, Event.mayAsk]
    omega
  | @sent h buffer server hmem hserver =>
    have hsum := sum_update s.servers h server
    have hone := countP_sent hserver
    have hresponse := hs h buffer hmem
    simp only [Hosts.unanswered, Event.isAnswer, Event.mayAsk, Multiset.countP_cons, hresponse]
    simp
    omega
  | @sendFailed h server hserver =>
    have hsum := sum_update s.servers h server
    have hone := countP_sent hserver
    simp only [Hosts.unanswered, Event.isAnswer, Event.mayAsk]
    omega
  | @signal h error server hserver =>
    have hsum := sum_update s.servers h server
    rw [Network.signal_server hserver] at hsum
    simp only [Hosts.unanswered, Event.isAnswer, Event.mayAsk]
    omega

/-- Whatever is sent to the servers in whatever name, they all together send at most one datagram
for each that somebody sends to them and that is no response. -/
theorem answers_le_queries {clientEndpoints : H → H} {run : List (Event × Hosts H)}
    (h : Trace (Step records) ⟨fun _ => DNSServer.start, clientEndpoints, 0⟩ run) :
    run.countP (fun p => p.1.isAnswer) ≤ run.countP (fun p => p.1.mayAsk) := by
  have hanswering : Answering (⟨fun _ => DNSServer.start, clientEndpoints, 0⟩ : Hosts H) := by
    intro h buffer hmem
    simp [DNSServer.start] at hmem
  have hcount := h.countP_le (fun s e t hs hst => hst.answering hs)
    (fun s e t hs hst => hst.unanswered hs) hanswering
  have hnone : unanswered (⟨fun _ => DNSServer.start, clientEndpoints, 0⟩ : Hosts H) = 0 := by
    simp [unanswered, answers, DNSServer.start, isSend]
  rwa [hnone] at hcount

end Steps

/-- Two servers, with a query to the first in the name of the second. -/
def forged : Packet Bool where
  source := true
  destination := false
  bytes := DNSServer.rootDatagram

def asked : Hosts Bool := ⟨fun _ => DNSServer.start, id, {forged}⟩

def replying : Hosts Bool where
  servers := Function.update asked.servers false DNSServer.answering
  clientEndpoints := Function.update asked.clientEndpoints false true
  inFlight := 0

def replied : Hosts Bool where
  servers := Function.update replying.servers false DNSServer.start
  clientEndpoints := replying.clientEndpoints
  inFlight := {⟨false, true, DNSServer.rootAnswer⟩}

def reflected : DNSServer.Received where
  buffer := DNSServer.rootAnswer
  decoded := (DNSQuery.decode DNSServer.rootAnswer).toOption.map Prod.fst

def reflection : Hosts Bool where
  servers := Function.update replied.servers true
    { pending := [], waiting := true, stopped := false }
  clientEndpoints := Function.update replied.clientEndpoints true false
  inFlight := 0

theorem answers_le_queries_forged : ∃ run : List (Event × Hosts Bool),
    Trace (Step fun _ => []) ⟨fun _ => DNSServer.start, id, 0⟩ run ∧ run.map Prod.fst =
        [.injected DNSServer.rootDatagram, .silent, .answered, .silent] ∧
      run.countP (fun p => p.1.isAnswer) = 1 ∧ 1 ≤ run.countP (fun p => p.1.mayAsk) := by
  have hquery : DNSServer.Received.FromMemory DNSServer.rootReceived :=
    DNSServer.Received.fromMemory_of_decode rfl
  have hanswer : DNSServer.Received.FromMemory reflected :=
    DNSServer.Received.fromMemory_of_decode rfl
  have h₁ : Step (fun _ => []) asked .silent replying :=
    .received (p := forged) rfl rfl hquery (.received rfl (by decide)
      (DNSServer.Received.possible_of_decode rfl))
  have hsent : DNSServer.Step [] DNSServer.answering (.sent false) DNSServer.start :=
    @DNSServer.Step.sent [] _ DNSServer.rootAnswer false rfl (List.mem_singleton.mpr rfl)
  have h₂ : Step (fun _ => []) replying .answered replied :=
    .sent (h := false) (List.mem_singleton.mpr rfl) hsent
  have h₃ : Step (fun _ => []) replied .silent reflection :=
    .received (p := ⟨false, true, DNSServer.rootAnswer⟩) rfl rfl hanswer (.received rfl (by decide)
      (DNSServer.Received.possible_of_decode rfl))
  have h₀ : Step (fun _ => []) ⟨fun _ => DNSServer.start, id, 0⟩
      (.injected DNSServer.rootDatagram) asked := .injected forged
  have hrun := Trace.cons h₀ (.cons h₁ (.cons h₂ (.cons h₃ .nil)))
  exact ⟨_, hrun, rfl, rfl, answers_le_queries hrun⟩

end Hosts

end Dns
end NetworkProtocols
