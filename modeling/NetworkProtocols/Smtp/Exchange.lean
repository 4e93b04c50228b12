import NetworkProtocols.Smtp.Ledger

/-!
# The record of a session

Each read of a run is put on record with the session that found it in its buffer. Of the
session only the envelope matters to the order of commands, and a handler does one of a few
things to it.
-/

namespace NetworkProtocols
namespace Smtp

open Bytes Relation SMTPSession Transition

/-- A read: the session with the bytes in its buffer, the disk as it is, and the calls that
are refused. -/
structure Exchange where
  session : SMTPSession
  disk : Disk
  refusals : Refusals
  chunk : Bytes

/-- What the commands keep about the transaction. -/
structure Envelope where
  receiveMessage : Bool
  lastCommand : Command
  returnAddress : Bytes
  recipients : Vector Recipient maxRcptAllowed
  rcptCount : UInt8

def SMTPSession.envelope (s : SMTPSession) : Envelope :=
  ⟨s.receiveMessage, s.lastCommand, s.returnAddress, s.recipients, s.rcptCount⟩

def Envelope.start : Envelope where
  receiveMessage := false
  lastCommand := .undefined
  returnAddress := []
  recipients := Vector.replicate maxRcptAllowed ([], [])
  rcptCount := 0

def Envelope.accepted (v : Envelope) : List Recipient := v.recipients.toList.take v.rcptCount.toNat

namespace Exchange

def started (e : Exchange) : List Operation := (e.session.onReceive e.refusals e.disk).2.2

def after (e : Exchange) : SMTPSession := (e.session.onReceive e.refusals e.disk).1

def Answered (e : Exchange) (responseCode : UInt16) : Prop := e.started = sendResponse responseCode

/-- What `processCommand` does with the read; none for the text of a message. -/
def handler (e : Exchange) : Option Handler :=
  if e.session.receiveMessage then none else some (dispatch e.session.recvBuffer.bytes)

def Is (e : Exchange) (handler : Handler) (responseCode : UInt16) : Prop :=
  e.handler = some handler ∧ e.Answered responseCode

instance (e : Exchange) (responseCode : UInt16) : Decidable (e.Answered responseCode) :=
  inferInstanceAs (Decidable (_ = _))

instance (e : Exchange) (handler : Handler) (responseCode : UInt16) :
    Decidable (e.Is handler responseCode) :=
  inferInstanceAs (Decidable (_ ∧ _))

def recipient (e : Exchange) : Recipient := (e.session.getAddress, mailbox e.session.getAddress)

/-- The state before a RCPT TO that stores its recipient. -/
structure Takes (e : Exchange) : Prop where
  last : e.session.lastCommand = .mailFrom
  room : e.session.rcptCount.toNat < maxRcptAllowed
  address : ∃ user domain, splitAddress e.session.getAddress = some (user, domain) ∧
    e.refusals.status (domainPath domain) = false ∧ e.disk.hasDirectory (domainPath domain) = true

end Exchange

/-- The reads of a run are put on record. -/
def note (s : State) : Event → Option Exchange
  | .received chunk r => some ⟨s.session.fill chunk, s.disk, r, chunk⟩
  | .sent _ => none
  | .failed _ => none

abbrev Run (id : UInt32) (buffer : Buffer) (d : Disk) (s : State) (record : List Exchange) : Prop :=
  ReflTransGen (Recorded Step note) (State.start id buffer d, []) (s, record)

namespace Exchange

/-- The cases of a read: what it is, what it starts and what becomes of the envelope. -/
inductive Effect (e : Exchange) : Prop
  | text (h : e.handler = none) (mode : e.session.receiveMessage = true)
      (started : e.started = [.receive] ∨ e.Answered 250)
      (kept : e.after.envelope = e.session.envelope)
  | helo (h : e.Is .helo 250) (reset : e.after.envelope = { e.session.envelope with
      returnAddress := [], rcptCount := 0, lastCommand := .helo })
  | heloRefused (h : e.Is .helo 451) (cleared : e.after.envelope = { e.session.envelope with
      returnAddress := [], rcptCount := 0 })
  | rset (h : e.Is .rset 250) (reset : e.after.envelope = { e.session.envelope with
      receiveMessage := false, returnAddress := [], rcptCount := 0, lastCommand := .rset })
  | data (h : e.Is .data 354) (begun : e.after.envelope = { e.session.envelope with
      receiveMessage := true, lastCommand := .data })
  | dataAgain (h : e.handler = some .data) (last : e.session.lastCommand = .data)
      (mode : e.session.receiveMessage = false) (started : e.started = [])
      (kept : e.after.envelope = e.session.envelope)
  | mailFrom (h : e.Is .mailFrom 250) (address : e.session.getAddress ≠ [])
      (stored : e.after.envelope = { e.session.envelope with
        returnAddress := e.session.getAddress, lastCommand := .mailFrom })
  | rcptTo (h : e.Is .rcptTo 250) (takes : e.Takes)
      (stored : e.after.envelope = { e.session.envelope with
        recipients := e.session.recipients.setIfInBounds e.session.rcptCount.toNat e.recipient
        rcptCount := e.session.rcptCount + 1 })
  | vrfy (h : e.handler = some .vrfy) (started : e.started = [])
      (kept : e.after.envelope = e.session.envelope)
  | reply {handler : Handler} {code : UInt16} (h : e.Is handler code)
      (plain : handler ∉ [.helo, .rset, .data, .vrfy])
      (refused : handler = .mailFrom ∨ handler = .rcptTo → code ≠ 250)
      (kept : e.after.envelope = e.session.envelope)

end Exchange

theorem sendResponse_inj {a b : UInt16} : sendResponse a = sendResponse b ↔ a = b := by
  simp [sendResponse]

section Handlers

variable (r : Refusals) (s : SMTPSession) (d : Disk)

theorem processMessage_envelope :
    ((s.processMessage r d).2.2 = [.receive] ∨ (s.processMessage r d).2.2 = sendResponse 250) ∧
    (s.processMessage r d).1.envelope = s.envelope := by
  unfold processMessage
  split
  · exact ⟨.inr rfl, rfl⟩
  · exact ⟨.inl rfl, rfl⟩

theorem createMessage_envelope : (createMessage r s d).2.1.envelope = s.envelope := by
  unfold createMessage
  dsimp only
  split <;> rfl

theorem processHelo_envelope :
    ((s.processHelo r d).2.2 = sendResponse 250 ∧ (s.processHelo r d).1.envelope =
      { s.envelope with returnAddress := [], rcptCount := 0, lastCommand := .helo }) ∨
    ((s.processHelo r d).2.2 = sendResponse 451 ∧ (s.processHelo r d).1.envelope =
      { s.envelope with returnAddress := [], rcptCount := 0 }) := by
  have hkept := createMessage_envelope r { s with rcptCount := 0, returnAddress := [] } d
  unfold processHelo
  dsimp only
  split
  · rename_i heq
    rw [heq] at hkept
    exact .inr ⟨rfl, hkept⟩
  · rename_i s' _ heq
    rw [heq] at hkept
    have hopened : { s' with lastCommand := .helo }.envelope =
        { s'.envelope with lastCommand := .helo } := rfl
    exact .inl ⟨rfl, by rw [hopened, hkept]; rfl⟩

end Handlers

namespace Exchange

theorem handler_eq_some {e : Exchange} {handler : Handler} :
    e.handler = some handler ↔
      e.session.receiveMessage = false ∧ dispatch e.session.recvBuffer.bytes = handler := by
  unfold Exchange.handler
  cases e.session.receiveMessage <;> simp

theorem Is.handler_eq {e : Exchange} {h h' : Handler} {code : UInt16} (his : e.Is h code)
    (hhandler : e.handler = some h') : h = h' := by
  rw [his.1] at hhandler
  exact Option.some.inj hhandler

theorem Answered.unique {e : Exchange} {code code' : UInt16} (h : e.Answered code)
    (h' : e.Answered code') : code = code' := sendResponse_inj.mp (h.symm.trans h')

theorem Is.code_eq {e : Exchange} {h h' : Handler} {code code' : UInt16} (his : e.Is h code)
    (his' : e.Is h' code') : code = code' := his.2.unique his'.2

theorem onReceive_command {e : Exchange} (h : e.session.receiveMessage = false) :
    e.session.onReceive e.refusals e.disk = e.session.processCommand e.refusals e.disk := by
  rw [onReceive, h, if_neg Bool.false_ne_true]

theorem returned {e : Exchange} {outcome : Outcome}
    (h : e.session.onReceive e.refusals e.disk = outcome) :
    e.started = outcome.2.2 ∧ e.after = outcome.1 := by
  rw [started, after, h]
  exact ⟨rfl, rfl⟩

theorem onReceive_rcptTo {e : Exchange} (h : e.handler = some .rcptTo) :
    e.session.onReceive e.refusals e.disk = e.session.processRcptTo e.refusals e.disk := by
  obtain ⟨hmode, hdispatch⟩ := handler_eq_some.mp h
  rw [onReceive_command hmode, processCommand, hdispatch]

theorem ne_nil_of_splitAddress {address : Bytes} {parts : Bytes × Bytes}
    (h : splitAddress address = some parts) : address ≠ [] := by
  rintro rfl
  cases h

/-- A RCPT TO is accepted exactly in the states that take its recipient. -/
theorem rcptTo_iff {e : Exchange} (h : e.handler = some .rcptTo) : e.Answered 250 ↔ e.Takes := by
  rw [Answered, (returned (onReceive_rcptTo h)).1]
  constructor
  · unfold processRcptTo
    split
    · exact fun h => absurd (sendResponse_inj.mp h) (by decide)
    split
    · exact fun h => absurd (sendResponse_inj.mp h) (by decide)
    rename_i hlast hroom
    dsimp only
    split
    · exact fun h => absurd (sendResponse_inj.mp h) (by decide)
    cases hsplit : splitAddress e.session.getAddress with
    | none => exact fun h => absurd (sendResponse_inj.mp h) (by decide)
    | some parts =>
      obtain ⟨user, domain⟩ := parts
      dsimp only
      split
      · exact fun h => absurd (sendResponse_inj.mp h) (by decide)
      rename_i hstatus
      split
      · exact fun h => absurd (sendResponse_inj.mp h) (by decide)
      rename_i hdomain
      simp only [Bool.or_eq_true, Bool.not_eq_true', not_or, Bool.not_eq_false] at hdomain
      exact fun _ => ⟨not_not.mp hlast, Nat.not_le.mp hroom, user, domain, hsplit,
        by simpa using hstatus, hdomain.2⟩
  · rintro ⟨hlast, hroom, user, domain, hsplit, hstatus, hdomain⟩
    have haddress : e.session.getAddress ≠ [] := ne_nil_of_splitAddress hsplit
    simp only [processRcptTo, hlast, hsplit, hstatus, hdomain, haddress, Nat.not_le.mpr hroom,
      Disk.present_of_directory hdomain, ne_eq, not_true_eq_false, if_false, Bool.not_true,
      Bool.or_false, Bool.false_eq_true]

theorem data_iff {e : Exchange} (h : e.handler = some .data) :
    e.Answered 354 ↔ e.session.lastCommand ≠ .data := by
  obtain ⟨hmode, hdispatch⟩ := handler_eq_some.mp h
  have hrun : e.session.onReceive e.refusals e.disk = e.session.processData e.disk := by
    rw [onReceive_command hmode, processCommand, hdispatch]
  rw [Answered, (returned hrun).1, processData]
  split
  · rename_i hlast
    exact ⟨fun _ => hlast, fun _ => rfl⟩
  · rename_i hlast
    exact ⟨by simp [sendResponse], fun hne => absurd hne hlast⟩

theorem effect (e : Exchange) : e.Effect := by
  cases hmode : e.session.receiveMessage with
  | true =>
    have hrun : e.session.onReceive e.refusals e.disk =
        e.session.processMessage e.refusals e.disk := by rw [onReceive, hmode, if_pos rfl]
    obtain ⟨hstarted, hkept⟩ := processMessage_envelope e.refusals e.session e.disk
    rw [← (returned hrun).1, ← (returned hrun).2] at *
    exact .text (by rw [handler, hmode, if_pos rfl]) hmode hstarted hkept
  | false =>
    obtain ⟨hstarted, hafter⟩ := returned (onReceive_command hmode)
    have hhandler : e.handler = some (dispatch e.session.recvBuffer.bytes) :=
      handler_eq_some.mpr ⟨hmode, rfl⟩
    unfold processCommand at hstarted hafter
    generalize dispatch e.session.recvBuffer.bytes = handler at hhandler hstarted hafter
    cases handler with
    | helo =>
      rcases processHelo_envelope e.refusals e.session e.disk with ⟨h250, hreset⟩ | ⟨h451, hcleared⟩
      · exact .helo ⟨hhandler, hstarted.trans h250⟩ (by rw [hafter, hreset])
      · exact .heloRefused ⟨hhandler, hstarted.trans h451⟩ (by rw [hafter, hcleared])
    | data =>
      by_cases hlast : e.session.lastCommand = .data
      · have hsame : e.session.processData e.disk = (e.session, e.disk, []) := by
          simp [processData, hlast]
        exact .dataAgain hhandler hlast hmode (by rw [hstarted, hsame]) (by rw [hafter, hsame])
      · have hdata : e.session.processData e.disk =
            ({ e.session with receiveMessage := true, lastCommand := .data }, e.disk,
              sendResponse 354) := by simp [processData, hlast]
        exact .data ⟨hhandler, by rw [Answered, hstarted, hdata]⟩ (by rw [hafter, hdata]; rfl)
    | rset =>
      exact .rset ⟨hhandler, hstarted⟩ (congrArg envelope hafter)
    | vrfy =>
      exact .vrfy hhandler hstarted (congrArg envelope hafter)
    | noop =>
      exact .reply ⟨hhandler, hstarted⟩ (by simp) (by simp) (congrArg envelope hafter)
    | quit =>
      exact .reply ⟨hhandler, hstarted⟩ (by simp) (by simp) (congrArg envelope hafter)
    | mailFrom =>
      rcases processMailFrom_cases e.session e.disk with ⟨code, hcode, heq⟩ | ⟨-, haddress, heq⟩
      · exact .reply ⟨hhandler, by rw [Answered, hstarted, heq]⟩ (by simp) (fun _ => hcode)
          (by rw [hafter, heq])
      · exact .mailFrom ⟨hhandler, by rw [Answered, hstarted, heq]⟩ haddress
          (by rw [hafter, heq]; rfl)
    | rcptTo =>
      rcases processRcptTo_cases e.refusals e.session e.disk with
        ⟨code, hcode, heq⟩ | ⟨-, -, -, user, domain, hsplit, -, heq⟩
      · exact .reply ⟨hhandler, by rw [Answered, hstarted, heq]⟩ (by simp) (fun _ => hcode)
          (by rw [hafter, heq])
      · have hanswered : e.Answered 250 := by rw [Answered, hstarted, heq]
        exact .rcptTo ⟨hhandler, hanswered⟩ ((rcptTo_iff hhandler).mp hanswered)
          (by rw [hafter, heq, recipient, mailbox, hsplit]; rfl)
    | reply code =>
      exact .reply ⟨hhandler, hstarted⟩ (by simp) (by simp) (congrArg envelope hafter)

end Exchange

namespace Run

variable {id : UInt32} {buffer : Buffer} {d : Disk} {s : State} {record : List Exchange}
  {Inv : Envelope → List Exchange → Prop}

theorem invariant (hstart : Inv .start [])
    (hstep : ∀ record e, Inv e.session.envelope record → Inv e.after.envelope (record ++ [e]))
    (hrun : Run id buffer d s record) : Inv s.session.envelope record := by
  have hall := @Transition.invariant _ (Recorded Step note)
    (fun p => Inv p.1.session.envelope p.2) ?_ (State.start id buffer d, []) (s, record) hstart hrun
  · exact hall
  rintro ⟨s, record⟩ _ hinv ⟨hst⟩
  cases hst with
  | @received chunk r => exact hstep _ ⟨s.session.fill chunk, s.disk, r, chunk⟩ hinv
  | sent _ =>
    unfold State.onSent
    split <;> simpa [note] using hinv
  | failed _ => simpa [note, State.onFailed] using hinv

theorem entry {before after : List Exchange} {e : Exchange}
    (hrun : Run id buffer d s (before ++ e :: after)) :
    ∃ t, Run id buffer d t before ∧ IsRead e.chunk ∧ .receive ∈ t.pending ∧
      e.session = t.session.fill e.chunk ∧ e.disk = t.disk := by
  obtain ⟨t, event, u, hbefore, hst, hnote⟩ := Recorded.entry hrun
  cases hst with
  | received hpending hread =>
    obtain rfl := Option.some.inj hnote
    exact ⟨t, hbefore, hread, hpending, rfl, rfl⟩
  | sent _ => cases hnote
  | failed _ => cases hnote

/-- An invariant holds at every read, of the envelope that the handler finds. -/
theorem along (hstart : Inv .start [])
    (hstep : ∀ record e, Inv e.session.envelope record → Inv e.after.envelope (record ++ [e]))
    (hrun : Run id buffer d s record) :
    Along (fun before e => Inv e.session.envelope before) record := by
  rintro before e after rfl
  obtain ⟨t, hbefore, -, -, hsession, -⟩ := hrun.entry
  rw [hsession]
  exact invariant hstart hstep hbefore

/-- An invariant of the whole session holds at every read, when filling the buffer keeps it. -/
theorem sessionAlong (Inv : SMTPSession → List Exchange → Prop)
    (hstart : Inv (State.start id buffer d).session [])
    (hfill : ∀ s record chunk, Inv s record → Inv (s.fill chunk) record)
    (hstep : ∀ record e, Inv e.session record → Inv e.after (record ++ [e]))
    (hrun : Run id buffer d s record) : Along (fun before e => Inv e.session before) record := by
  rintro before e after rfl
  obtain ⟨t, hbefore, -, -, hsession, -⟩ := hrun.entry
  have hall := @Transition.invariant _ (Recorded Step note)
    (fun p => Inv p.1.session p.2) ?_ (State.start id buffer d, []) (t, before) hstart hbefore
  · rw [hsession]
    exact hfill _ _ _ hall
  rintro ⟨s, record⟩ _ hinv ⟨hst⟩
  cases hst with
  | @received chunk r =>
    exact hstep _ ⟨s.session.fill chunk, s.disk, r, chunk⟩ (hfill _ _ _ hinv)
  | sent _ =>
    unfold State.onSent
    split <;> simpa [note] using hinv
  | failed _ => simpa [note, State.onFailed] using hinv

end Run

def hear (p : State × List Exchange) (chunk : Bytes) : State × List Exchange :=
  ((p.1.onReceived chunk {}).settle, p.2 ++ [⟨p.1.session.fill chunk, p.1.disk, {}, chunk⟩])

def Heard : State × List Exchange → List Bytes → Prop
  | _, [] => True
  | p, chunk :: chunks => (p.1.pending = [.receive] ∧ IsRead chunk) ∧ Heard (hear p chunk) chunks

instance Heard.decide : (p : State × List Exchange) → (chunks : List Bytes) →
    Decidable (Heard p chunks)
  | _, [] => .isTrue trivial
  | p, chunk :: chunks =>
    have := Heard.decide (hear p chunk) chunks
    inferInstanceAs (Decidable ((_ ∧ _) ∧ Heard (hear p chunk) chunks))

theorem settle_recorded (s : State) (record : List Exchange) :
    ReflTransGen (Recorded Step note) (s, record) (s.settle, record) := by
  rcases s.settle_cases with ⟨code, hsent⟩ | hsame
  · have hst : Recorded Step note (s, record) (s.settle, record ++ []) := .step hsent
    rw [List.append_nil] at hst
    exact .single hst
  · rw [hsame]

def conversation (s : State) (chunks : List Bytes) : State × List Exchange :=
  chunks.foldl hear (s.settle, [])

theorem conversation_run {id : UInt32} {buffer : Buffer} {d : Disk} {chunks : List Bytes}
    (h : Heard ((State.start id buffer d).settle, []) chunks) :
    Run id buffer d (conversation (.start id buffer d) chunks).1
      (conversation (.start id buffer d) chunks).2 := by
  have hall : ∀ (chunks : List Bytes) (p : State × List Exchange), Heard p chunks →
      ReflTransGen (Recorded Step note) p (chunks.foldl hear p) := by
    intro chunks
    induction chunks with
    | nil => exact fun _ _ => .refl
    | cons chunk chunks ih =>
      rintro p ⟨⟨hpending, hread⟩, hrest⟩
      have hst : Step p.1 (.received chunk {}) (p.1.onReceived chunk {}) :=
        .received (by simp [hpending]) hread
      have hreceived : Recorded Step note p (p.1.onReceived chunk {}, (hear p chunk).2) := .step hst
      exact (ReflTransGen.head hreceived (settle_recorded _ _)).trans (ih _ hrest)
  exact (settle_recorded _ _).trans (hall chunks _ h)

def nextRead (p : State × List Exchange) (chunk : Bytes) : Exchange :=
  ⟨p.1.session.fill chunk, p.1.disk, {}, chunk⟩

theorem conversation_next {id : UInt32} {buffer : Buffer} {d : Disk} {chunks : List Bytes}
    {chunk : Bytes} (h : Heard ((State.start id buffer d).settle, []) (chunks ++ [chunk])) :
    Run id buffer d (conversation (.start id buffer d) (chunks ++ [chunk])).1
      ((conversation (.start id buffer d) chunks).2 ++
        [nextRead (conversation (.start id buffer d) chunks) chunk]) := by
  have hrecord : (conversation (.start id buffer d) (chunks ++ [chunk])).2 =
      (conversation (.start id buffer d) chunks).2 ++
        [nextRead (conversation (.start id buffer d) chunks) chunk] := by
    rw [conversation, List.foldl_append]
    rfl
  rw [← hrecord]
  exact conversation_run h

end Smtp
end NetworkProtocols
