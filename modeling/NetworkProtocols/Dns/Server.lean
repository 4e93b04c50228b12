import NetworkProtocols.Lib.Transition
import NetworkProtocols.Dns.Resolver

/-!
# The DNS server

`DNSServer` has one asynchronous receive or send pending and one wait for a signal. The
completion handlers start the next operation; a handler that starts none leaves the
server without any.
-/

namespace NetworkProtocols
namespace Dns
namespace DNSServer

/-- An asynchronous operation on the socket; a send has the bytes it was given. -/
inductive Operation
  | receive
  | send (buffer : Bytes)
  deriving DecidableEq

/-- What the steps of the receive handler come to: the error codes, the datagram, and
`decoded`, which is none when `decode` throws. `ttl` is the value that the response object
leaves indeterminate. -/
structure Received where
  receiveError : Bool := false
  ioControlError : Bool := false
  receiveFromError : Bool := false
  buffer : Bytes
  decoded : Option DNSQuery
  processThrows : Bool := false
  ttl : UInt32 := 0

/-- A datagram that decodes inside its bytes decodes to its query, or `decode` throws. -/
def Received.Possible (r : Received) : Prop :=
  ∀ q n, DNSQuery.decode r.buffer = .ok (q, n) → r.decoded = some q ∨ r.decoded = none

inductive Event
  | received (r : Received)
  | sent (error : Bool)
  | signal (error : Bool)

structure State where
  pending : List Operation
  waiting : Bool
  stopped : Bool
  deriving DecidableEq

/-- `start()`: a wait for a signal and a receive. -/
def start : State := { pending := [.receive], waiting := true, stopped := false }

/-- `sendResponse`. -/
def sendResponse (buffer : Bytes) : List Operation := [.send buffer]

/-- The operations that the receive handler starts. A message that is no query is thrown as
an exception, and exceptions are only reported. -/
def onReceive (records : List Record) (r : Received) : List Operation :=
  if r.receiveError then []
  else if r.ioControlError then []
  else if r.receiveFromError then []
  else match r.decoded with
    | none => []
    | some query =>
      if query.getFlagQR then []
      else if r.processThrows then []
      else sendResponse (DNSResolver.process records query (.new 0 0 r.ttl)).encode

def onSend (error : Bool) : List Operation := if error then [] else [.receive]

/-- One completion. -/
inductive Step (records : List Record) : State → Event → State → Prop
  | received {s r} : s.stopped = false → .receive ∈ s.pending → r.Possible →
      Step records s (.received r)
        { s with pending := s.pending.erase .receive ++ onReceive records r }
  | sent {s buffer error} : s.stopped = false → .send buffer ∈ s.pending →
      Step records s (.sent error)
        { s with pending := s.pending.erase (.send buffer) ++ onSend error }
  | signal {s error} : s.stopped = false → s.waiting = true →
      Step records s (.signal error) { s with waiting := false, stopped := !error }

def Serving (s : State) : Prop := s.stopped = false → ∃ op, s.pending = [op]

/-- Events after which the server goes on: a query received, decoded and answered without
an error, or a send that succeeds. -/
def Event.Serves : Event → Prop
  | received r => r.receiveError = false ∧ r.ioControlError = false ∧
      r.receiveFromError = false ∧ (∃ query, r.decoded = some query ∧ query.getFlagQR = false) ∧
      r.processThrows = false
  | sent error => error = false
  | signal _ => True

variable {records : List Record}

theorem onReceive_cases (r : Received) :
    (Event.Serves (.received r) ∧ ∃ buffer, onReceive records r = [.send buffer]) ∨
    (¬ Event.Serves (.received r) ∧ onReceive records r = []) := by
  simp only [Event.Serves, onReceive, sendResponse]
  cases r.receiveError <;> cases r.ioControlError <;> cases r.receiveFromError <;>
    cases r.decoded <;> cases r.processThrows <;> simp
  all_goals rename_i query
  all_goals cases query.getFlagQR <;> simp

theorem step_serving {s t : State} {e : Event} (hs : Serving s) (h : Step records s e t) :
    Serving t ↔ e.Serves := by
  cases h with
  | @received r hrun hmem _ =>
    obtain ⟨op, hop⟩ := hs hrun
    obtain rfl : op = .receive := by simpa [hop, eq_comm] using hmem
    rcases @onReceive_cases records r with ⟨hserves, buffer, hon⟩ | ⟨hnot, hon⟩
    · simp [Serving, hop, hon, hserves]
    · simp [Serving, hop, hon, hnot, hrun]
  | @sent buffer error hrun hmem =>
    obtain ⟨op, hop⟩ := hs hrun
    obtain rfl : op = .send buffer := by simpa [hop, eq_comm] using hmem
    cases error <;> simp [Serving, hop, onSend, Event.Serves, hrun]
  | @signal error hrun _ =>
    simp only [Serving, Event.Serves, iff_true]
    exact fun _ => hs hrun

/-- In a run from `start` the server always has its one operation pending exactly when
every event of the run lets it go on. -/
theorem keeps_serving_iff {run : List (Event × State)}
    (h : Transition.Trace (Step records) start run) :
    (∀ p ∈ run, Serving p.2) ↔ ∀ p ∈ run, p.1.Serves :=
  Transition.Trace.forall_iff Serving Event.Serves (fun _ _ _ => step_serving)
    (fun _ => ⟨.receive, rfl⟩) h

def responseDatagram : Bytes := [0, 7, 0x80, 0, 0, 1, 0, 0, 0, 0, 0, 0, 0, 0, 1, 0, 1]

def responseQuery : DNSQuery := { id := 7, flags := 0x8000, qCount := 1, type := 1, cls := 1 }

/-- After it nothing is pending, and the server has not been stopped. -/
theorem silent_after_response :
    Step [] start (.received { buffer := responseDatagram, decoded := some responseQuery })
      { pending := [], waiting := true, stopped := false } ∧
    ¬ Serving { pending := [], waiting := true, stopped := false } := by
  refine ⟨.received rfl (by decide) ?_, fun h => ?_⟩
  · intro q n hq
    have heq : DNSQuery.decode responseDatagram = .ok (responseQuery, 17) := rfl
    rw [heq] at hq
    obtain ⟨rfl, -⟩ := Prod.mk.inj (Except.ok.inj hq)
    exact .inl rfl
  · obtain ⟨op, hop⟩ := h rfl
    cases hop

def rootDatagram : Bytes := [0, 7, 0, 0, 0, 1, 0, 0, 0, 0, 0, 0, 0, 0, 1, 0, 1]

def rootReceived : Received where
  buffer := rootDatagram
  decoded := some { id := 7, qCount := 1, type := 1, cls := 1 }

def rootAnswer : Bytes :=
  (DNSResolver.process [] { id := 7, qCount := 1, type := 1, cls := 1 } (.new 0 0 0)).encode

def answering : State := { pending := [.send rootAnswer], waiting := true, stopped := false }

/-- The query is received, its answer sent, and the next receive started. -/
theorem keeps_serving_root : Serving answering ∧ Serving start := by
  have hreceived : Step [] start (.received rootReceived) answering := by
    refine .received rfl (by decide) fun q n hq => ?_
    have heq : DNSQuery.decode rootDatagram =
        .ok ({ id := 7, qCount := 1, type := 1, cls := 1 }, 17) := rfl
    have hq' : DNSQuery.decode rootDatagram = .ok (q, n) := hq
    rw [heq] at hq'
    obtain ⟨rfl, -⟩ := Prod.mk.inj (Except.ok.inj hq')
    exact .inl rfl
  have hsent : Step [] answering (.sent false) start :=
    @Step.sent [] _ rootAnswer false rfl (List.mem_singleton.mpr rfl)
  have hserving := (keeps_serving_iff (.cons hreceived (.cons hsent .nil))).mpr
    (by simp [Event.Serves, rootReceived, DNSMessage.getFlagQR])
  exact ⟨hserving _ List.mem_cons_self, hserving (.sent false, start) (by simp)⟩

end DNSServer
end Dns
end NetworkProtocols
