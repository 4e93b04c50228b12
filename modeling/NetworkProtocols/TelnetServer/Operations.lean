import NetworkProtocols.Lib.Transition
import NetworkProtocols.TelnetServer.Server

/-!
# The operations of a session

A handler of a session in the set should leave it with one operation: a read, or a write whose
handler starts a read. The handlers decide that one branch at a time, and only those of a read
that ends a message or is echoed, and those of an error, do otherwise.
-/

namespace NetworkProtocols
namespace TelnetServer

open Bytes Transition Server

/-- Each session of the set has one operation, and none that is gone is in the set. -/
structure OneOperation (s : Server) : Prop where
  one : ∀ id ∈ s.sessions, (s.operations id).length = 1
  gone : ∀ id ∈ s.gone, id ∉ s.sessions

/-- The sessions still to be made have nothing yet. -/
structure Numbered (s : Server) : Prop where
  sessions : ∀ id ∈ s.sessions, id < s.connections
  operations : ∀ id, s.operations id ≠ [] → id < s.connections
  gone : ∀ id ∈ s.gone, id < s.connections

/-- The handler of a read starts one operation, or removes the session. -/
def Rearms (onMessageReceived : OnMessageReceivedCB) (s : Server) (id sz : ℕ) : Prop :=
  sz ≠ 0 → charValue (s.recvBuffer 0) < 0xF0 →
    (endsMessage s.recvBuffer (s.session id).receivedData = true →
      (onMessageReceived (s.session id)
        ((s.session id).receivedData ++ s.recvBuffer.front sz)).removes = true) ∧
    (endsMessage s.recvBuffer (s.session id).receivedData = false →
      s.recvBuffer 0 = 0x08 ∨ s.recvBuffer 0 = 0x7F)

instance (onMessageReceived : OnMessageReceivedCB) (s : Server) (id sz : ℕ) :
    Decidable (Rearms onMessageReceived s id sz) :=
  inferInstanceAs (Decidable (_ → _ → (_ → _) ∧ (_ → _)))

/-- The event is no error of a session in the set, and no read that is echoed or ends a message
of one that stays. -/
def Fine (onMessageReceived : OnMessageReceivedCB) (s : Server) : Event → Prop
  | .writeFailed id | .readFailed id => id ∉ s.sessions
  | .received id sz => id ∈ s.sessions → Rearms onMessageReceived s id sz
  | _ => True

instance (onMessageReceived : OnMessageReceivedCB) (s : Server) :
    (e : Event) → Decidable (Fine onMessageReceived s e)
  | .writeFailed _ | .readFailed _ => inferInstanceAs (Decidable (¬ _))
  | .received _ _ => inferInstanceAs (Decidable (_ → _))
  | .connected | .written _ | .arrived _ _ | .removed _ => .isTrue trivial

structure Touches (id : ℕ) (s t : Server) : Prop where
  connections : t.connections = s.connections
  sessions : ∀ other ≠ id, other ∈ t.sessions ↔ other ∈ s.sessions
  operations : ∀ other ≠ id, t.operations other = s.operations other
  gone : ∀ other ≠ id, other ∈ t.gone ↔ other ∈ s.gone

section Touches

variable {onMessageReceived : OnMessageReceivedCB} {s t u : Server} {id : ℕ}

theorem Touches.trans (h : Touches id s t) (h' : Touches id t u) : Touches id s u where
  connections := h'.connections.trans h.connections
  sessions other hne := (h'.sessions other hne).trans (h.sessions other hne)
  operations other hne := (h'.operations other hne).trans (h.operations other hne)
  gone other hne := (h'.gone other hne).trans (h.gone other hne)

theorem touches_update (f : Session → Session) : Touches id s (s.update id f) :=
  ⟨rfl, fun _ _ => Iff.rfl, fun _ _ => rfl, fun _ _ => Iff.rfl⟩

theorem touches_begin (operation : Operation) : Touches id s (s.begin id operation) :=
  ⟨rfl, fun _ _ => Iff.rfl, fun _ hne => begin_others _ hne, fun _ _ => Iff.rfl⟩

theorem touches_finish (operation : Operation) : Touches id s (s.finish id operation) :=
  ⟨rfl, fun _ _ => Iff.rfl, fun _ hne => finish_others _ hne, fun _ _ => Iff.rfl⟩

theorem touches_fail (operation : Operation) :
    Touches id s { s.finish id operation with gone := insert id s.gone } :=
  ⟨rfl, fun _ _ => Iff.rfl, (touches_finish operation).operations, fun _ hne => by simp [hne]⟩

theorem touches_removeClient : Touches id s (s.removeClient id) :=
  ⟨rfl, fun _ hne => by simp [removeClient, hne], fun _ _ => rfl,
    fun _ hne => by simp [removeClient, hne]⟩

theorem touches_onMessage (message : Bytes) :
    Touches id s (s.onMessage onMessageReceived id message) := by
  have hcalled : Touches id s { s with messages := s.messages ++ [(id, message)] } :=
    ⟨rfl, fun _ _ => Iff.rfl, fun _ _ => rfl, fun _ _ => Iff.rfl⟩
  unfold onMessage
  dsimp only
  split
  · exact (hcalled.trans (touches_update _)).trans touches_removeClient
  · exact hcalled.trans (touches_update _)

theorem Received.touches {sz : ℕ} (h : Received onMessageReceived s id sz t) : Touches id s t := by
  cases h with
  | closed _ => exact touches_removeClient
  | command _ _ => exact touches_begin _
  | message _ _ _ => exact (touches_onMessage _).trans (touches_update _)
  | backspaceEmpty _ _ _ _ _ => exact touches_begin _
  | backspace _ _ _ _ _ => exact (touches_update _).trans (touches_begin _)
  | delete _ _ _ _ => exact touches_begin _
  | text _ _ _ _ _ => exact ((touches_update _).trans (touches_begin _)).trans (touches_begin _)

theorem Numbered.touches (hs : Numbered s) (h : Touches id s t) (hid : id < s.connections) :
    Numbered t := by
  have hlt : ∀ {P : Prop} {other : ℕ}, (other ≠ id → P → other < s.connections) → P →
      other < t.connections := by
    intro P other hother hP
    rw [h.connections]
    by_cases heq : other = id
    · rwa [heq]
    · exact hother heq hP
  refine ⟨fun other => hlt fun hne hin => ?_, fun other => hlt fun hne hin => ?_,
    fun other => hlt fun hne hin => ?_⟩
  · exact hs.sessions other ((h.sessions other hne).mp hin)
  · rw [h.operations other hne] at hin
    exact hs.operations other hin
  · exact hs.gone other ((h.gone other hne).mp hin)

theorem OneOperation.iff_at (hs : OneOperation s) (h : Touches id s t) :
    OneOperation t ↔ (id ∈ t.sessions → (t.operations id).length = 1 ∧ id ∉ t.gone) := by
  constructor
  · intro ht hid
    exact ⟨ht.one id hid, fun hgone => ht.gone id hgone hid⟩
  · intro hid
    refine ⟨fun other hother => ?_, fun other hother hin => ?_⟩
    · by_cases heq : other = id
      · rw [heq] at hother ⊢
        exact (hid hother).1
      · rw [h.operations other heq]
        exact hs.one other ((h.sessions other heq).mp hother)
    · by_cases heq : other = id
      · rw [heq] at hother hin
        exact (hid hin).2 hother
      · exact hs.gone other ((h.gone other heq).mp hother) ((h.sessions other heq).mp hin)

end Touches

section Handlers

variable {onMessageReceived : OnMessageReceivedCB} {s t : Server} {id : ℕ}

theorem OneOperation.finish (hs : OneOperation s) (hid : id ∈ s.sessions) {operation : Operation}
    (hop : operation ∈ s.operations id) : (s.finish id operation).operations id = [] := by
  rw [finish_operations, ← List.length_eq_zero_iff, List.length_erase_of_mem hop, hs.one id hid]

theorem OneOperation.continue (hs : OneOperation s) {operation : Operation}
    (hop : operation ∈ s.operations id) (next : Operation) :
    OneOperation ((s.finish id operation).begin id next) := by
  rw [hs.iff_at ((touches_finish operation).trans (touches_begin next))]
  intro hid
  rw [begin_operations, hs.finish hid hop]
  exact ⟨rfl, fun hgone => hs.gone id hgone hid⟩

theorem OneOperation.fail_iff (hs : OneOperation s) {operation : Operation} :
    OneOperation { s.finish id operation with gone := insert id s.gone } ↔ id ∉ s.sessions := by
  rw [hs.iff_at (touches_fail operation)]
  constructor
  · exact fun h hid => (h hid).2 (Finset.mem_insert_self id s.gone)
  · exact fun h hid => absurd hid h

theorem Received.notMem {sz : ℕ} (h : Received onMessageReceived s id sz t)
    (hid : id ∉ s.sessions) : id ∉ t.sessions := by
  cases h with
  | closed _ => exact Finset.notMem_erase id s.sessions
  | message _ _ _ =>
    change id ∉ (s.onMessage onMessageReceived id _).sessions
    rw [onMessage_sessions]
    split
    · exact Finset.notMem_erase id s.sessions
    · exact hid
  | command _ _ => exact hid
  | backspaceEmpty _ _ _ _ _ => exact hid
  | backspace _ _ _ _ _ => exact hid
  | delete _ _ _ _ => exact hid
  | text _ _ _ _ _ => exact hid

theorem rearms_message {sz : ℕ} (hsz : sz ≠ 0) (hchar : charValue (s.recvBuffer 0) < 0xF0)
    (hends : endsMessage s.recvBuffer (s.session id).receivedData = true) :
    Rearms onMessageReceived s id sz ↔ (onMessageReceived (s.session id)
      ((s.session id).receivedData ++ s.recvBuffer.front sz)).removes = true := by
  simp [Rearms, hsz, hchar, hends]

theorem rearms_inside {sz : ℕ} (hsz : sz ≠ 0) (hchar : charValue (s.recvBuffer 0) < 0xF0)
    (hends : endsMessage s.recvBuffer (s.session id).receivedData = false) :
    Rearms onMessageReceived s id sz ↔ s.recvBuffer 0 = 0x08 ∨ s.recvBuffer 0 = 0x7F := by
  simp [Rearms, hsz, hchar, hends]

/-- Behind the end of a message nothing is read, so that the session has to leave. -/
theorem onMessage_rearms_iff (hid : id ∈ s.sessions) (hnone : s.operations id = [])
    (message : Bytes) :
    (id ∈ (s.onMessage onMessageReceived id message).sessions →
      ((s.onMessage onMessageReceived id message).operations id).length = 1 ∧
        id ∉ (s.onMessage onMessageReceived id message).gone) ↔
      (onMessageReceived (s.session id) message).removes = true := by
  rw [onMessage_sessions, onMessage_operations, hnone]
  split
  · rename_i hremoves
    exact iff_of_true (fun hin => absurd hin (Finset.notMem_erase id s.sessions)) hremoves
  · rename_i hremoves
    exact iff_of_false (fun hstays => absurd (hstays hid).1 (by decide)) hremoves

/-- The handler of a read that is the only operation. -/
theorem Received.rearms_iff {sz : ℕ} (h : Received onMessageReceived s id sz t)
    (hid : id ∈ s.sessions) (hgone : id ∉ s.gone) (hnone : s.operations id = []) :
    (id ∈ t.sessions → (t.operations id).length = 1 ∧ id ∉ t.gone) ↔
      Rearms onMessageReceived s id sz := by
  have hone : ∀ {u : Server} {operation : Operation}, u.operations id = [] →
      ((u.begin id operation).operations id).length = 1 := by
    intro u operation hu
    rw [begin_operations, hu]
    rfl
  cases h with
  | closed hsz =>
    exact iff_of_true (fun hin => absurd hin (Finset.notMem_erase id s.sessions))
      fun hne => absurd hsz hne
  | command _ hchar =>
    exact iff_of_true (fun _ => ⟨hone hnone, hgone⟩) fun _ hlt => absurd hlt hchar
  | message hsz hchar hends =>
    rw [rearms_message hsz hchar hends]
    exact onMessage_rearms_iff hid hnone _
  | backspaceEmpty hsz hchar hends hback _ =>
    rw [rearms_inside hsz hchar hends]
    exact iff_of_true (fun _ => ⟨hone hnone, hgone⟩) (.inl hback)
  | backspace hsz hchar hends hback _ =>
    rw [rearms_inside hsz hchar hends]
    exact iff_of_true (fun _ => ⟨hone hnone, hgone⟩) (.inl hback)
  | delete hsz hchar hends hdelete =>
    rw [rearms_inside hsz hchar hends]
    exact iff_of_true (fun _ => ⟨hone hnone, hgone⟩) (.inr hdelete)
  | text hsz hchar hends hback hdelete =>
    rw [rearms_inside hsz hchar hends]
    refine iff_of_false (fun htwo => ?_) (not_or.mpr ⟨hback, hdelete⟩)
    -- the echo is written beside the read
    have hlength := (htwo hid).1
    rw [receiveAsync, begin_operations, sendBytesToClient, begin_operations] at hlength
    simp at hlength

theorem Numbered.connect (hs : Numbered s) : Numbered s.handleConnection := by
  refine ⟨fun other hin => ?_, fun other hin => ?_, fun other hin => ?_⟩
  · rcases Finset.mem_insert.mp hin with rfl | hin
    · exact Nat.lt_succ_self _
    · exact Nat.lt_succ_of_lt (hs.sessions other hin)
  · by_cases heq : other = s.connections
    · rw [heq]
      exact Nat.lt_succ_self _
    · refine Nat.lt_succ_of_lt (hs.operations other fun hnone => hin ?_)
      exact (begin_others _ heq).trans hnone
  · exact Nat.lt_succ_of_lt (hs.gone other hin)

/-- A new session starts with the write of the greeting. -/
theorem OneOperation.connect (hs : OneOperation s) (hn : Numbered s) :
    OneOperation s.handleConnection := by
  have hnone : s.operations s.connections = [] := by
    by_contra hne
    exact Nat.lt_irrefl _ (hn.operations _ hne)
  refine ⟨fun other hin => ?_, fun other hgone hin => ?_⟩
  · by_cases heq : other = s.connections
    · rw [heq]
      unfold handleConnection
      dsimp only [sendBytesToClient]
      rw [begin_operations, hnone]
      rfl
    · have hold : other ∈ s.sessions := (Finset.mem_insert.mp hin).resolve_left heq
      have hsame : s.handleConnection.operations other = s.operations other :=
        begin_others _ heq
      rw [hsame]
      exact hs.one other hold
  · rcases Finset.mem_insert.mp hin with rfl | hold
    · exact Nat.lt_irrefl _ (hn.gone _ hgone)
    · exact hs.gone other hgone hold

variable {e : Event}

theorem Numbered.step (hs : Numbered s) (hst : Step onMessageReceived s e t) : Numbered t := by
  have hlt : ∀ {id : ℕ} {operation : Operation}, operation ∈ s.operations id →
      id < s.connections := fun hop => hs.operations _ (List.ne_nil_of_mem hop)
  cases hst with
  | connected => exact hs.connect
  | written hop => exact hs.touches ((touches_finish _).trans (touches_begin _)) (hlt hop)
  | writeFailed hop => exact hs.touches (touches_fail _) (hlt hop)
  | @arrived id data hop _ =>
    have htouches : Touches id s ((s.finish id .read).begin id (.arrived data.length)) :=
      (touches_finish _).trans (touches_begin _)
    exact hs.touches ⟨rfl, htouches.sessions, htouches.operations, htouches.gone⟩ (hlt hop)
  | received hop =>
    exact hs.touches ((touches_finish _).trans (received_cases ..).touches) (hlt hop)
  | readFailed hop => exact hs.touches (touches_fail _) (hlt hop)
  | removed hid => exact hs.touches touches_removeClient hid

theorem OneOperation.step_iff (hn : Numbered s) (hs : OneOperation s)
    (hst : Step onMessageReceived s e t) : OneOperation t ↔ Fine onMessageReceived s e := by
  cases hst with
  | connected => exact iff_of_true (hs.connect hn) trivial
  | written hop => exact iff_of_true (hs.continue hop .read) trivial
  | writeFailed _ => exact hs.fail_iff
  | @arrived id data hop _ =>
    have hnext := hs.continue hop (.arrived data.length)
    exact iff_of_true ⟨hnext.one, hnext.gone⟩ trivial
  | @received id sz hop =>
    have hreceived := received_cases onMessageReceived (s.finish id (.arrived sz)) id sz
    rw [hs.iff_at ((touches_finish (.arrived sz)).trans hreceived.touches)]
    by_cases hid : id ∈ s.sessions
    · have hrearms := hreceived.rearms_iff hid (fun hgone => hs.gone id hgone hid)
        (hs.finish hid hop)
      exact hrearms.trans ⟨fun h _ => h, fun h => h hid⟩
    · exact iff_of_true (fun hin => absurd hin (hreceived.notMem hid)) fun hin => absurd hin hid
  | readFailed _ => exact hs.fail_iff
  | @removed id _ =>
    rw [hs.iff_at touches_removeClient]
    exact iff_of_true (fun hin => absurd hin (Finset.notMem_erase id s.sessions)) trivial

end Handlers

/-- In a run each session of the set has one operation behind every event, and none that is gone
is in the set, exactly when no event is an error of a session in the set, or a read of one that
is echoed or ends a message without the session being removed. -/
theorem one_operation_iff (onMessageReceived : OnMessageReceivedCB) (buffer : RecvBuffer)
    {run : List (Event × Server)}
    (hrun : Trace (Step onMessageReceived) { recvBuffer := buffer } run) :
    (∀ p ∈ run, OneOperation p.2) ↔
      Steps (Fine onMessageReceived) { recvBuffer := buffer } run := by
  have hnumbered : Numbered { recvBuffer := buffer } :=
    ⟨fun _ h => absurd h (Finset.notMem_empty _), fun _ h => absurd rfl h,
      fun _ h => absurd h (Finset.notMem_empty _)⟩
  have hstart : OneOperation { recvBuffer := buffer } :=
    ⟨fun _ h => absurd h (Finset.notMem_empty _), fun _ h => absurd h (Finset.notMem_empty _)⟩
  exact hrun.steps_iff Numbered OneOperation (Fine onMessageReceived)
    (fun _ _ _ hn hst => hn.step hst) (fun _ _ _ hn hs hst => hs.step_iff hn hst) hnumbered hstart

def oneSession : Server := ((handleConnection {}).finish 0 (.write greeting)).receiveAsync 0

def oneByte (b : Byte) : Server :=
  { (oneSession.finish 0 .read).begin 0 (.arrived 1) with
    recvBuffer := oneSession.recvBuffer.fill [b] }

def oneKey (b : Byte) : List (Event × Server) :=
  [(.connected, handleConnection {}), (.written 0, oneSession), (.arrived 0 [b], oneByte b),
    (.received 0 1, ((oneByte b).finish 0 (.arrived 1)).received onMessageReceived 0 1)]

theorem oneKey_run (b : Byte) : Trace (Step onMessageReceived) {} (oneKey b) := by
  have hread : .read ∈ oneSession.operations 0 := by decide
  refine .cons .connected (.cons (.written (by decide)) (.cons (.arrived hread ?_) (.cons
    (.received (List.mem_append_right _ (List.mem_singleton_self _))) .nil)))
  exact show 1 ≤ recvBufferSize by decide

/-- A backspace on an empty line leaves one read. -/
theorem one_operation_backspace : (oneKey 0x08).length = 4 ∧ ∀ p ∈ oneKey 0x08, OneOperation p.2 :=
  ⟨rfl, (one_operation_iff onMessageReceived (fun _ => 0) (oneKey_run 0x08)).mpr
    (by decide +kernel)⟩

/-- A letter leaves a write and a read, and the handler of an error leaves the session in the set
with nothing. -/
theorem letter_two_operations : Trace (Step onMessageReceived) {} (oneKey 97) ∧
    (((oneByte 97).finish 0 (.arrived 1)).received onMessageReceived 0 1).operations 0 =
      [.write [97], .read] ∧
    ¬ (∀ p ∈ oneKey 97, OneOperation p.2) ∧
    ¬ OneOperation { oneSession.finish 0 .read with gone := insert 0 oneSession.gone } := by
  have hkey : (((oneByte 97).finish 0 (.arrived 1)).received onMessageReceived 0 1).operations 0 =
      [.write [97], .read] := by
    decide +kernel
  refine ⟨oneKey_run 97, hkey, fun h => ?_, fun h => ?_⟩
  · have hone := (h _ (List.mem_cons_of_mem _ (List.mem_cons_of_mem _ (List.mem_cons_of_mem _
      (List.mem_singleton_self _))))).one 0 (by decide +kernel)
    rw [hkey] at hone
    exact absurd hone (by decide)
  · exact absurd (h.one 0 (by decide +kernel)) (by decide +kernel)

end TelnetServer
end NetworkProtocols
