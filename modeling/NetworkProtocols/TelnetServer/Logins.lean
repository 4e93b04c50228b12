import NetworkProtocols.Lib.Transition
import NetworkProtocols.TelnetServer.Operations

/-!
# Nobody logs in

The message that is compared with the name of the user ends with the read that ended it, so it
has a carriage return or a dot in it and is never the name. Every session remains a guest, and
its first message removes it.
-/

namespace NetworkProtocols
namespace TelnetServer

open Bytes Server Transition

/-- Every session is a guest, and those that sent a message are not in the set. -/
structure Barred (s : Server) : Prop where
  numbered : Numbered s
  guest : ∀ id, (s.session id).authStatus = .guest
  removed : ∀ m ∈ s.messages, m.1 < s.connections ∧ m.1 ∉ s.sessions

/-- No message is added, no session, and none that is there is authenticated. -/
structure Silent (s t : Server) : Prop where
  connections : t.connections = s.connections
  sessions : t.sessions ⊆ s.sessions
  messages : t.messages = s.messages
  authStatus : ∀ id, (t.session id).authStatus = (s.session id).authStatus

variable {s t u : Server} {id sz : ℕ}

theorem Silent.trans (h : Silent s t) (h' : Silent t u) : Silent s u where
  connections := h'.connections.trans h.connections
  sessions := h'.sessions.trans h.sessions
  messages := h'.messages.trans h.messages
  authStatus id := (h'.authStatus id).trans (h.authStatus id)

theorem silent_begin (operation : Operation) : Silent s (s.begin id operation) :=
  ⟨rfl, Finset.Subset.refl _, rfl, fun _ => rfl⟩

theorem silent_finish (operation : Operation) : Silent s (s.finish id operation) :=
  ⟨rfl, Finset.Subset.refl _, rfl, fun _ => rfl⟩

theorem silent_removeClient : Silent s (s.removeClient id) :=
  ⟨rfl, Finset.erase_subset id s.sessions, rfl, fun _ => rfl⟩

theorem silent_update {f : Session → Session}
    (hf : ∀ session, (f session).authStatus = session.authStatus) : Silent s (s.update id f) := by
  refine ⟨rfl, Finset.Subset.refl _, rfl, fun other => ?_⟩
  by_cases heq : other = id
  · rw [heq, update_session, hf]
  · rw [update_others f heq]

theorem Barred.silent (hs : Barred s) (hn : Numbered t) (h : Silent s t) : Barred t := by
  refine ⟨hn, fun id => (h.authStatus id).trans (hs.guest id), fun m hm => ?_⟩
  rw [h.messages] at hm
  rw [h.connections]
  exact ⟨(hs.removed m hm).1, fun hin => (hs.removed m hm).2 (h.sessions hin)⟩

theorem first_mem_front {buffer : RecvBuffer} (hsz : sz ≠ 0) : buffer 0 ∈ buffer.front sz := by
  have hpos : 0 < min sz recvBufferSize := Nat.lt_min.mpr ⟨Nat.pos_of_ne_zero hsz, by decide⟩
  exact List.mem_ofFn.mpr ⟨⟨0, hpos⟩, rfl⟩

theorem message_ne_user {buffer : RecvBuffer} {receivedData : Bytes} (hsz : sz ≠ 0)
    (hends : endsMessage buffer receivedData = true) :
    receivedData ++ buffer.front sz ≠ chars "testuser" := by
  intro heq
  have hmem : buffer 0 ∈ chars "testuser" := by
    rw [← heq]
    exact List.mem_append_right _ (first_mem_front hsz)
  have hfirst : buffer 0 = 0x2E ∨ buffer 0 = 0x0D := by
    simp only [endsMessage, Bool.or_eq_true, Bool.and_eq_true, beq_iff_eq] at hends
    rcases hends with ⟨⟨hdot, -⟩, -⟩ | ⟨hreturn, -⟩
    · exact .inl hdot
    · exact .inr hreturn
  rcases hfirst with h | h
  · rw [h] at hmem
    exact absurd hmem (by decide)
  · rw [h] at hmem
    exact absurd hmem (by decide)

theorem onMessageReceived_refused {session : Session} {message : Bytes}
    (hguest : session.authStatus = .guest) (hne : message ≠ chars "testuser") :
    onMessageReceived session message = { authStatus := .guest, removes := true } := by
  simp [onMessageReceived, logIn, hguest, hne]

theorem Barred.message (hs : Barred s) (hid : id < s.connections) {message : Bytes}
    (hne : message ≠ chars "testuser") (hn : Numbered (s.onMessage onMessageReceived id message)) :
    Barred (s.onMessage onMessageReceived id message) := by
  have hrefused := onMessageReceived_refused (hs.guest id) hne
  refine ⟨hn, fun other => ?_, fun m hm => ?_⟩
  · by_cases heq : other = id
    · rw [heq, onMessage_session, hrefused]
    · rw [onMessage_others message heq, hs.guest]
  · have hconnections : (s.onMessage onMessageReceived id message).connections = s.connections :=
      (touches_onMessage message).connections
    rw [onMessage_messages] at hm
    rw [onMessage_sessions, hrefused, hconnections]
    rcases List.mem_append.mp hm with hm | hm
    · exact ⟨(hs.removed m hm).1, fun hin => (hs.removed m hm).2 (Finset.mem_of_mem_erase hin)⟩
    · rw [List.mem_singleton.mp hm]
      exact ⟨hid, Finset.notMem_erase id s.sessions⟩

theorem Barred.received (hs : Barred s) (hid : id < s.connections)
    (h : Received onMessageReceived s id sz t) (hn : Numbered t) : Barred t := by
  cases h with
  | closed _ => exact hs.silent hn silent_removeClient
  | command _ _ => exact hs.silent hn (silent_begin _)
  | message hsz _ hends =>
    have hmessage := hs.message hid (message_ne_user hsz hends)
      (hs.numbered.touches (touches_onMessage _) hid)
    exact hmessage.silent hn (silent_update fun _ => rfl)
  | backspaceEmpty _ _ _ _ _ => exact hs.silent hn (silent_begin _)
  | backspace _ _ _ _ _ =>
    have hupdate : Silent s (s.update id Session.removeLastReceivedCharacter) :=
      silent_update fun _ => rfl
    exact hs.silent hn (hupdate.trans (silent_begin _))
  | delete _ _ _ _ => exact hs.silent hn (silent_begin _)
  | text _ _ _ _ _ =>
    have hupdate : Silent s (s.update id fun session =>
        { session with receivedData := session.receivedData ++ s.recvBuffer.front sz }) :=
      silent_update fun _ => rfl
    exact hs.silent hn ((hupdate.trans (silent_begin _)).trans (silent_begin _))

theorem Barred.connect (hs : Barred s) (hn : Numbered s.handleConnection) :
    Barred s.handleConnection := by
  refine ⟨hn, fun other => ?_, fun m hm => ?_⟩
  · by_cases heq : other = s.connections
    · rw [heq, handleConnection_new]
    · rw [handleConnection_others heq, hs.guest]
  · obtain ⟨hlt, hnot⟩ := hs.removed m hm
    refine ⟨Nat.lt_succ_of_lt hlt, fun hin => ?_⟩
    rcases Finset.mem_insert.mp hin with heq | hin
    · exact Nat.lt_irrefl _ (heq ▸ hlt)
    · exact hnot hin

theorem Barred.step {e : Event} (hs : Barred s) (hst : Step onMessageReceived s e t) :
    Barred t := by
  have hn := hs.numbered.step hst
  have hlt : ∀ {id : ℕ} {operation : Operation}, operation ∈ s.operations id →
      id < s.connections := fun hop => hs.numbered.operations _ (List.ne_nil_of_mem hop)
  cases hst with
  | connected => exact hs.connect hn
  | written _ => exact hs.silent hn ((silent_finish _).trans (silent_begin _))
  | writeFailed _ => exact hs.silent hn ⟨rfl, Finset.Subset.refl _, rfl, fun _ => rfl⟩
  | arrived _ _ => exact hs.silent hn ⟨rfl, Finset.Subset.refl _, rfl, fun _ => rfl⟩
  | @received id sz hop =>
    have hfinish : Barred (s.finish id (.arrived sz)) :=
      hs.silent (hs.numbered.touches (touches_finish _) (hlt hop)) (silent_finish _)
    exact hfinish.received (hlt hop) (received_cases ..) hn
  | readFailed _ => exact hs.silent hn ⟨rfl, Finset.Subset.refl _, rfl, fun _ => rfl⟩
  | removed _ => exact hs.silent hn silent_removeClient

/-- In every state of every run all sessions are guests, and a session of which a message was
received is not in the set any more. -/
theorem nobody_logs_in (buffer : RecvBuffer) (run : List (Event × Server))
    (hrun : Trace (Step onMessageReceived) { recvBuffer := buffer } run) :
    ∀ p ∈ run, (∀ id, (p.2.session id).authStatus = .guest) ∧
      ∀ m ∈ p.2.messages, m.1 ∉ p.2.sessions := by
  have hstart : Barred { recvBuffer := buffer } :=
    ⟨⟨fun _ h => absurd h (Finset.notMem_empty _), fun _ h => absurd rfl h,
      fun _ h => absurd h (Finset.notMem_empty _)⟩, fun _ => rfl, fun _ h => nomatch h⟩
  intro p hp
  have hbarred := hrun.invariant (fun _ _ _ hs hst => hs.step hst) hstart p hp
  exact ⟨hbarred.guest, fun m hm => (hbarred.removed m hm).2⟩

def Server.arrive (data : Bytes) (s : Server) : Server :=
  { (s.finish 0 .read).begin 0 (.arrived data.length) with recvBuffer := s.recvBuffer.fill data }

def Server.handle (data : Bytes) (s : Server) : Server :=
  ((s.arrive data).finish 0 (.arrived data.length)).received onMessageReceived 0 data.length

/-- A client connects, types the name of the user and ends the line. -/
def typedName : List (Event × Server) :=
  let typed := oneSession.handle (chars "testuser")
  [(.connected, handleConnection {}), (.written 0, oneSession),
    (.arrived 0 (chars "testuser"), oneSession.arrive (chars "testuser")), (.received 0 8, typed),
    (.arrived 0 [CR, LF], typed.arrive [CR, LF]), (.received 0 2, typed.handle [CR, LF])]

theorem typedName_run : Trace (Step onMessageReceived) {} typedName := by
  have hread : .read ∈ oneSession.operations 0 := by decide
  have hagain : .read ∈ (oneSession.handle (chars "testuser")).operations 0 := by decide +kernel
  have harrived : ∀ (s : Server) (data : Bytes),
      .arrived data.length ∈ (s.arrive data).operations 0 := fun s data => by
    rw [Server.arrive, begin_operations]
    exact List.mem_append_right _ (List.mem_singleton_self _)
  refine .cons .connected (.cons (.written (by decide)) (.cons (.arrived hread (by decide)) (.cons
    (.received (harrived _ _)) (.cons (.arrived hagain (by decide)) (.cons
    (.received (harrived _ _)) .nil)))))

theorem nobody_logs_in_typed_name :
    (typedName.getLast?.map fun p => p.2.messages) = some [(0, chars "testuser\r\n")] ∧
    ∀ p ∈ typedName, (∀ id, (p.2.session id).authStatus = .guest) ∧
      ∀ m ∈ p.2.messages, m.1 ∉ p.2.sessions :=
  ⟨by decide +kernel, nobody_logs_in (fun _ => 0) _ typedName_run⟩

end TelnetServer
end NetworkProtocols
