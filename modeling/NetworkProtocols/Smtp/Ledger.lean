import NetworkProtocols.Smtp.Connection

/-!
# The ledger of a session

What a client has seen of a run: the HELO commands and the accepted recipients since the
last RSET or HELO, and the bytes since the reply 354. A dialogue is a run in which nothing is
refused and every read is followed by its reply.
-/

namespace NetworkProtocols
namespace Smtp

open Bytes Relation SMTPSession

/-- The HELO commands since the last RSET, the recipients accepted since the last HELO or
RSET, the bytes received since the reply 354 if there was one, and the terminators among
them that were answered. -/
structure Ledger where
  helos : ℕ := 0
  accepted : List Recipient := []
  data : Option Bytes := none
  terminators : ℕ := 0

/-- The mailbox of an address. -/
def mailbox (address : Bytes) : Bytes :=
  match splitAddress address with
  | some (user, domain) => mboxPath user domain
  | none => []

namespace Ledger

/-- A read in command mode; `s` is the session that has the bytes in its buffer. -/
def command (l : Ledger) (s : SMTPSession) (started : List Operation) : Ledger :=
  match dispatch s.recvBuffer.bytes with
  | .helo => { l with helos := l.helos + 1, accepted := [] }
  | .rset => { l with helos := 0, accepted := [] }
  | .rcptTo =>
    if started = sendResponse 250 then
      { l with accepted := l.accepted ++ [(s.getAddress, mailbox s.getAddress)] }
    else l
  | .data => if started = sendResponse 354 then { l with data := some [] } else l
  | _ => l

/-- A read behind the reply 354. -/
def text (l : Ledger) (bytes chunk : Bytes) (started : List Operation) : Ledger :=
  { l with
    data := some (bytes ++ chunk)
    terminators := if chunk = terminator ∧ started = sendResponse 250 then l.terminators + 1
      else l.terminators }

def read (l : Ledger) (s : SMTPSession) (chunk : Bytes) (started : List Operation) : Ledger :=
  match l.data with
  | none => l.command s started
  | some bytes => l.text bytes chunk started

/-- The message file was opened by the one HELO since the last RSET, and the message has
not been ended yet. -/
def Opened (l : Ledger) (d : Disk) (path : Bytes) : Prop :=
  d.openable path = true ∧ l.helos = 1 ∧ l.terminators = 0

end Ledger

def NoFile (s : State) (l : Ledger) : Prop := ∀ recipient ∈ l.accepted,
  s.disk.hasDirectory recipient.2 = true →
  s.disk.present (PathName.append recipient.2 (messageName s.session.id)) = false

instance (s : State) (l : Ledger) : Decidable (NoFile s l) :=
  inferInstanceAs (Decidable (∀ _ ∈ _, _))

/-- Calls on existing paths and writes succeed, and no mailbox holds a file of the message's name
when a message ends. -/
structure Assumed (s : State) (l : Ledger) (chunk : Bytes) (r : Refusals) : Prop where
  spares : r.Spares s.disk
  noFile : l.data ≠ none → chunk = terminator → NoFile s l

/-- One completion, with the ledger beside the state. -/
inductive Observed : State × Ledger → State × Ledger → Prop
  | received {s t : State} {l : Ledger} {chunk r} : Step s (.received chunk r) t →
      Assumed s l chunk r →
      Observed (s, l) (t, l.read (s.session.fill chunk) chunk
        ((s.session.fill chunk).onReceive r s.disk).2.2)
  | sent {s t : State} {l : Ledger} {code} : Step s (.sent code) t → Observed (s, l) (t, l)
  | failed {s t : State} {l : Ledger} {op} : Step s (.failed op) t → Observed (s, l) (t, l)

def exchange (p : State × Ledger) (chunk : Bytes) : State × Ledger :=
  ((p.1.onReceived chunk {}).settle, p.2.read (p.1.session.fill chunk) chunk
    ((p.1.session.fill chunk).onReceive {} p.1.disk).2.2)

/-- Each chunk meets a pending read, and none is the terminator. -/
def Readable : State × Ledger → List Bytes → Prop
  | _, [] => True
  | p, chunk :: chunks => (p.1.pending = [.receive] ∧ IsRead chunk ∧ chunk ≠ terminator) ∧
      Readable (exchange p chunk) chunks

instance Readable.decide : (p : State × Ledger) → (chunks : List Bytes) →
    Decidable (Readable p chunks)
  | _, [] => .isTrue trivial
  | p, chunk :: chunks =>
    have := Readable.decide (exchange p chunk) chunks
    inferInstanceAs (Decidable ((_ ∧ _ ∧ _) ∧ Readable (exchange p chunk) chunks))

theorem spares_none (d : Disk) : Refusals.Spares {} d :=
  ⟨whole_none, fun _ _ => rfl, fun _ _ => rfl, fun _ _ _ _ => rfl, fun _ _ => rfl⟩

theorem settle_run (s : State) (l : Ledger) : ReflTransGen Observed (s, l) (s.settle, l) := by
  rcases s.settle_cases with ⟨code, hsent⟩ | hsame
  · exact .single (.sent hsent)
  · rw [hsame]

theorem dialogue_run {p : State × Ledger} {chunks : List Bytes} (h : Readable p chunks) :
    ReflTransGen Observed p (chunks.foldl exchange p) := by
  induction chunks generalizing p with
  | nil => exact .refl
  | cons chunk chunks ih =>
    obtain ⟨⟨hpending, hread, hchunk⟩, hrest⟩ := h
    have hreceived : Observed p (p.1.onReceived chunk {}, (exchange p chunk).2) :=
      .received (.received (by simp [hpending]) hread)
        ⟨spares_none _, fun _ heq => absurd heq hchunk⟩
    exact (ReflTransGen.head hreceived (settle_run _ _)).trans (ih hrest)

end Smtp
end NetworkProtocols
