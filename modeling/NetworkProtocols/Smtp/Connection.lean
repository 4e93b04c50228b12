import NetworkProtocols.Lib.Transition
import NetworkProtocols.Smtp.Session

/-!
# A session with its pending operation

The completion handlers of `receive` and `sendResponse`. A read hands over at most 512
bytes of the stream; a failed operation closes the session.
-/

namespace NetworkProtocols
namespace Smtp

open Bytes

namespace SMTPSession

def fill (s : SMTPSession) (chunk : Bytes) : SMTPSession :=
  { s with recvBuffer := s.recvBuffer.fill chunk, recvLength := chunk.length }

/-- The handler of a completed read, behind the assignment of `_recvLength`. -/
def onReceive (r : Refusals) (s : SMTPSession) (d : Disk) : Outcome :=
  if s.receiveMessage then s.processMessage r d else s.processCommand r d

end SMTPSession

structure State where
  session : SMTPSession
  disk : Disk
  pending : List Operation
  closed : Bool := false

inductive Event
  | received (chunk : Bytes) (r : Refusals)
  | sent (responseCode : UInt16)
  | failed (op : Operation)

def IsRead (chunk : Bytes) : Prop := 1 ≤ chunk.length ∧ chunk.length ≤ recvBufferSize

instance (chunk : Bytes) : Decidable (IsRead chunk) := inferInstanceAs (Decidable (_ ∧ _))

namespace State

/-- `start()` of a session whose buffer holds anything. -/
def start (id : UInt32) (buffer : Buffer) (disk : Disk) : State where
  session := { id, recvBuffer := buffer }
  disk
  pending := sendResponse 220

def onReceived (s : State) (chunk : Bytes) (r : Refusals) : State :=
  let (session, disk, started) := (s.session.fill chunk).onReceive r s.disk
  { s with session, disk, pending := s.pending.erase .receive ++ started }

/-- The reply 221 is the last one. -/
def onSent (s : State) (responseCode : UInt16) : State :=
  let pending := s.pending.erase (.send responseCode)
  if responseCode = 221 then { s with pending, closed := true }
  else { s with pending := pending ++ [.receive] }

/-- The reply code that is being sent. -/
def due (s : State) : List UInt16 :=
  match s.pending with
  | .send responseCode :: _ => [responseCode]
  | _ => []

/-- The state once a reply that is being sent has gone out. -/
def settle (s : State) : State :=
  match s.pending with
  | .send responseCode :: _ => s.onSent responseCode
  | _ => s

def onFailed (s : State) (op : Operation) : State :=
  { s with pending := s.pending.erase op, closed := true }

end State

/-- One completion. -/
inductive Step : State → Event → State → Prop
  | received {s : State} {chunk r} : .receive ∈ s.pending → IsRead chunk →
      Step s (.received chunk r) (s.onReceived chunk r)
  | sent {s : State} {code} : .send code ∈ s.pending → Step s (.sent code) (s.onSent code)
  | failed {s : State} {op} : op ∈ s.pending → Step s (.failed op) (s.onFailed op)

theorem State.settle_cases (s : State) : (∃ code, Step s (.sent code) s.settle) ∨ s.settle = s := by
  unfold settle
  split
  · rename_i code rest hpending
    exact .inl ⟨code, .sent (by simp [hpending])⟩
  · exact .inr rfl

section Buffer

variable {b : Buffer} {chunk : Bytes}

theorem Buffer.fill_bytes (h : chunk.length ≤ recvBufferSize) :
    (b.fill chunk).bytes = chunk ++ b.bytes.drop chunk.length := by
  simp only [Buffer.fill, List.take_of_length_le h]

theorem Buffer.fill_take (h : chunk.length ≤ recvBufferSize) :
    (b.fill chunk).bytes.take chunk.length = chunk := by
  rw [Buffer.fill_bytes h, List.take_left]

end Buffer

def terminator : Bytes := chars ".\r\n"

theorem terminator_isRead : IsRead terminator := by decide

variable {s : SMTPSession} {d : Disk} {r : Refusals} {chunk : Bytes}

theorem strncmpEqual_terminator {rest : Bytes} (h : chunk.length = 3) :
    strncmpEqual 3 (chunk ++ rest) (literal ".\r\n") = true ↔ chunk = terminator := by
  obtain ⟨a, b, c, rfl⟩ := List.length_eq_three.mp h
  have hliteral : literal ".\r\n" = [46, 13, 10, 0] := by decide
  have hterminator : terminator = [46, 13, 10] := by decide
  simp only [hliteral, hterminator, List.cons_append, List.nil_append, strncmpEqual,
    Bool.and_eq_true, Bool.or_eq_true, beq_iff_eq, List.cons.injEq, and_true]
  constructor
  · rintro ⟨rfl, h₁ | ⟨rfl, h₂ | ⟨rfl, -⟩⟩⟩
    · exact absurd h₁ (by decide)
    · exact absurd h₂ (by decide)
    · exact ⟨rfl, rfl, rfl⟩
  · rintro ⟨rfl, rfl, rfl⟩
    exact ⟨rfl, .inr ⟨rfl, .inr ⟨rfl, .inr trivial⟩⟩⟩

namespace SMTPSession

theorem isTerminator_iff (h : IsRead chunk) :
    ((s.fill chunk).recvLength = 3 ∧
      strncmpEqual 3 (s.fill chunk).recvBuffer.bytes (literal ".\r\n")) ↔ chunk = terminator := by
  simp only [fill, Buffer.fill_bytes h.2]
  constructor
  · rintro ⟨hlen, heq⟩
    exact (strncmpEqual_terminator hlen).mp heq
  · rintro rfl
    exact ⟨rfl, (strncmpEqual_terminator rfl).mpr rfl⟩

theorem processMessage_text (h : IsRead chunk) (hc : chunk ≠ terminator) :
    (s.fill chunk).processMessage r d =
      ({ s.fill chunk with messageOut := (d.writeOut r s.messageOut chunk).1 },
        (d.writeOut r s.messageOut chunk).2, [.receive]) := by
  rw [processMessage, if_neg (mt (isTerminator_iff h).mp hc)]
  simp only [fill, Buffer.fill_take h.2]

end SMTPSession

end Smtp
end NetworkProtocols
