import NetworkProtocols.TelnetServer.EditedLine
import NetworkProtocols.TelnetServer.Operations

/-!
# Commands among the input

A byte from 0xF0 on starts a Telnet command. The handler of a read means to drop it, but the
elements of the buffer are signed, and none of them is 0xF0 or more.
-/

namespace NetworkProtocols
namespace TelnetServer

open Bytes Transition Server

def CommandChunk (chunk : Bytes) : Prop := ∃ b ∈ chunk.head?, 0xF0 ≤ b

/-- A command, or plain characters. -/
def Uniform (chunk : Bytes) : Prop := (∀ b ∈ chunk, 0xF0 ≤ b) ∨ ∀ b ∈ chunk, b < 0x80

/-- The chunks that a run received. -/
def chunks (run : List (Event × Server)) : List Bytes :=
  run.filterMap fun p => match p.1 with
    | .arrived _ chunk => some chunk
    | _ => none

/-- The writes under way to a session. -/
def Server.writes (s : Server) (id : ℕ) : List Bytes :=
  (s.operations id).filterMap fun operation => match operation with
    | .write bytes => some bytes
    | _ => none

/-- The handler of a read that finds a command writes nothing. -/
def Unechoed (onMessageReceived : OnMessageReceivedCB) (s : Server) : Event → Prop
  | .received id sz => sz ≠ 0 → 0xF0 ≤ s.recvBuffer 0 →
      ((s.finish id (.arrived sz)).received onMessageReceived id sz).writes id = s.writes id
  | _ => True

/-- No received data has a byte of a command chunk, and none of these is echoed. -/
structure KeepsCommandsOut (onMessageReceived : OnMessageReceivedCB) (s : Server)
    (run : List (Event × Server)) : Prop where
  data : ∀ p ∈ run, ∀ id, ∀ b ∈ (p.2.session id).receivedData, ∀ chunk ∈ chunks run,
    CommandChunk chunk → b ∉ chunk
  echo : Steps (Unechoed onMessageReceived) s run

/-- The handler takes its bytes for text: they end no message, and the first is neither a
backspace nor a delete. -/
def IsText (s : Server) (id sz : ℕ) : Prop :=
  sz ≠ 0 ∧ endsMessage s.recvBuffer (s.session id).receivedData = false ∧
    s.recvBuffer 0 ≠ 0x08 ∧ s.recvBuffer 0 ≠ 0x7F

instance (s : Server) (id sz : ℕ) : Decidable (IsText s id sz) :=
  inferInstanceAs (Decidable (_ ∧ _ ∧ _ ∧ _))

def FindsText (s : Server) : Event → Prop
  | .received id sz => IsText s id sz → ∀ b ∈ s.recvBuffer.front sz, b < 0xF0
  | _ => True

instance (s : Server) : (e : Event) → Decidable (FindsText s e)
  | .received _ _ => inferInstanceAs (Decidable (_ → _))
  | .connected | .written _ | .writeFailed _ | .arrived _ _ | .readFailed _ | .removed _ =>
    .isTrue trivial

/-- The handler of a read comes directly behind it. -/
def AtOnce : List Event → Prop
  | [] => True
  | .arrived id chunk :: rest => rest.head? = some (.received id chunk.length) ∧ AtOnce rest
  | _ :: rest => AtOnce rest

/-- What the handler of a read leaves. -/
structure Handled (s : Server) (id sz : ℕ) (t : Server) : Prop where
  recvBuffer : t.recvBuffer = s.recvBuffer
  arrived : ∀ other n, .arrived n ∈ t.operations other ↔ .arrived n ∈ s.operations other
  others : ∀ other ≠ id, (t.session other).receivedData = (s.session other).receivedData
  text : IsText s id sz →
    (t.session id).receivedData = (s.session id).receivedData ++ s.recvBuffer.front sz
  echo : IsText s id sz → ∃ bytes, t.writes id = s.writes id ++ [bytes]
  rest : ¬ IsText s id sz → (t.session id).receivedData <+: (s.session id).receivedData

section Handlers

variable {onMessageReceived : OnMessageReceivedCB} {s t : Server} {id sz : ℕ}

theorem arrived_begin {operation : Operation} {other n : ℕ} (hne : operation ≠ .arrived n) :
    .arrived n ∈ (s.begin id operation).operations other ↔ .arrived n ∈ s.operations other := by
  by_cases heq : other = id
  · subst heq
    rw [begin_operations, List.mem_append, List.mem_singleton, or_iff_left (Ne.symm hne)]
  · rw [begin_others _ heq]

theorem arrived_receiveAsync {other n : ℕ} :
    .arrived n ∈ (s.receiveAsync id).operations other ↔ .arrived n ∈ s.operations other :=
  arrived_begin (by simp)

theorem arrived_send {bytes : Bytes} {other n : ℕ} :
    .arrived n ∈ (s.sendBytesToClient id bytes).operations other ↔
      .arrived n ∈ s.operations other :=
  arrived_begin (by simp)

theorem arrived_finish {operation : Operation} {other n : ℕ}
    (hne : other = id → operation ≠ .arrived n) :
    .arrived n ∈ (s.finish id operation).operations other ↔ .arrived n ∈ s.operations other := by
  by_cases heq : other = id
  · subst heq
    rw [finish_operations, List.mem_erase_of_ne (hne rfl).symm]
  · rw [finish_others _ heq]

theorem arrived_of_finish {operation : Operation} {other n : ℕ}
    (h : .arrived n ∈ (s.finish id operation).operations other) :
    .arrived n ∈ s.operations other := by
  by_cases heq : other = id
  · subst heq
    rw [finish_operations] at h
    exact List.mem_of_mem_erase h
  · exact (arrived_finish fun h => absurd h heq).mp h

theorem writes_write (bytes : Bytes) :
    (s.begin id (.write bytes)).writes id = s.writes id ++ [bytes] := by
  rw [writes, begin_operations, List.filterMap_append]
  rfl

theorem writes_read : (s.begin id .read).writes id = s.writes id := by
  rw [writes, begin_operations, List.filterMap_append]
  exact List.append_nil _

theorem Handled.of_not_text (hnot : ¬ IsText s id sz) (hbuffer : t.recvBuffer = s.recvBuffer)
    (harrived : ∀ other n, .arrived n ∈ t.operations other ↔ .arrived n ∈ s.operations other)
    (hothers : ∀ other ≠ id, t.session other = s.session other)
    (hpart : (t.session id).receivedData <+: (s.session id).receivedData) :
    Handled s id sz t where
  recvBuffer := hbuffer
  arrived := harrived
  others other hne := congrArg Session.receivedData (hothers other hne)
  text htext := absurd htext hnot
  echo htext := absurd htext hnot
  rest _ := hpart

theorem Handled.of_receiveAsync (hnot : ¬ IsText s id sz) : Handled s id sz (s.receiveAsync id) :=
  .of_not_text hnot rfl (fun _ _ => arrived_receiveAsync) (fun _ _ => rfl) (List.prefix_refl _)

theorem Received.handled (h : Received onMessageReceived s id sz t) : Handled s id sz t := by
  cases h with
  | closed hsz =>
    exact .of_not_text (fun htext => htext.1 hsz) rfl (fun _ _ => Iff.rfl) (fun _ _ => rfl)
      (List.prefix_refl _)
  | command _ hchar => exact absurd (charValue_lt _) hchar
  | message _ _ hends =>
    refine .of_not_text (fun htext => ?_) (onMessage_recvBuffer _) (fun other n => ?_)
      (fun other hne => ?_) ?_
    · rw [htext.2.1] at hends
      exact Bool.false_ne_true hends
    · rw [Server.update, onMessage_operations]
    · rw [update_others _ hne, onMessage_others _ hne]
    · rw [update_session]
      exact List.nil_prefix
  | backspaceEmpty _ _ _ hback _ => exact .of_receiveAsync fun htext => htext.2.2.1 hback
  | backspace _ _ _ hback _ =>
    refine .of_not_text (fun htext => htext.2.2.1 hback) rfl (fun _ _ => arrived_send)
      (fun other hne => update_others _ hne) ?_
    change ((s.update id Session.removeLastReceivedCharacter).session id).receivedData <+: _
    rw [update_session]
    exact List.dropLast_prefix _
  | delete _ _ _ hdelete => exact .of_receiveAsync fun htext => htext.2.2.2 hdelete
  | text hsz _ hends hback hdelete =>
    have htext : IsText s id sz := ⟨hsz, hends, hback, hdelete⟩
    let typed : Session → Session := fun session =>
      { session with receivedData := session.receivedData ++ s.recvBuffer.front sz }
    have hself : (s.update id typed).session id = typed (s.session id) := update_session _
    have hother : ∀ other ≠ id, (s.update id typed).session other = s.session other :=
      fun other hne => update_others typed hne
    exact ⟨rfl, fun _ _ => arrived_receiveAsync.trans arrived_send,
      fun other hne => congrArg Session.receivedData (hother other hne),
      fun _ => congrArg Session.receivedData hself,
      fun _ => ⟨_, writes_read.trans (writes_write _)⟩, fun hnot => absurd htext hnot⟩

end Handlers

def Clean (s : Server) : Prop := ∀ id, ∀ b ∈ (s.session id).receivedData, b < 0xF0

/-- All that is received, or will be by a read that filled the buffer, has the property. -/
structure Sourced (P : Byte → Prop) (s : Server) : Prop where
  data : ∀ id, ∀ b ∈ (s.session id).receivedData, P b
  buffer : ∀ id sz, .arrived sz ∈ s.operations id → ∀ i : Fin recvBufferSize, i.1 < sz →
    P (s.recvBuffer i)

section Runs

variable {onMessageReceived : OnMessageReceivedCB} {s t : Server} {e : Event} {P : Byte → Prop}

theorem mem_front {buffer : RecvBuffer} {sz : ℕ} {b : Byte} :
    b ∈ buffer.front sz ↔ ∃ i : Fin recvBufferSize, i.1 < sz ∧ buffer i = b := by
  rw [RecvBuffer.front, List.mem_ofFn]
  constructor
  · rintro ⟨i, rfl⟩
    obtain ⟨hsz, hsize⟩ := Nat.lt_min.mp i.2
    exact ⟨⟨i.1, hsize⟩, hsz, rfl⟩
  · rintro ⟨i, hi, rfl⟩
    exact ⟨⟨i.1, Nat.lt_min.mpr ⟨hi, i.2⟩⟩, rfl⟩

theorem handleConnection_data (id : ℕ) :
    (s.handleConnection.session id).receivedData <+: (s.session id).receivedData := by
  by_cases heq : id = s.connections
  · rw [heq, handleConnection_new]
    exact List.nil_prefix
  · rw [handleConnection_others heq]

theorem Clean.step_iff (hs : Clean s) (hst : Step onMessageReceived s e t) :
    Clean t ↔ FindsText s e := by
  cases hst with
  | connected =>
    exact iff_of_true (fun id b hb => hs id b ((handleConnection_data id).subset hb)) trivial
  | @received id sz _ =>
    have hhandled : Handled (s.finish id (.arrived sz)) id sz _ :=
      (received_cases onMessageReceived _ id sz).handled
    generalize (s.finish id (.arrived sz)).received onMessageReceived id sz = t at hhandled
    by_cases htext : IsText s id sz
    · have hdata : (t.session id).receivedData =
          (s.session id).receivedData ++ s.recvBuffer.front sz := hhandled.text htext
      constructor
      · exact fun ht _ b hb => ht id b (hdata ▸ List.mem_append_right _ hb)
      · intro hfront other b hb
        by_cases heq : other = id
        · subst heq
          rw [hdata, List.mem_append] at hb
          rcases hb with hold | hnew
          · exact hs other b hold
          · exact hfront htext b hnew
        · rw [hhandled.others other heq] at hb
          exact hs other b hb
    · refine iff_of_true (fun other b hb => ?_) fun h => absurd h htext
      by_cases heq : other = id
      · subst heq
        exact hs other b ((hhandled.rest htext).subset hb)
      · rw [hhandled.others other heq] at hb
        exact hs other b hb
  | written _ => exact iff_of_true hs trivial
  | writeFailed _ => exact iff_of_true hs trivial
  | arrived _ _ => exact iff_of_true hs trivial
  | readFailed _ => exact iff_of_true hs trivial
  | removed _ => exact iff_of_true hs trivial

theorem Sourced.step (hs : Sourced P s) (hst : Step onMessageReceived s e t)
    (hchunk : ∀ id chunk, e = .arrived id chunk → ∀ b ∈ chunk, P b) : Sourced P t := by
  cases hst with
  | connected =>
    refine ⟨fun id b hb => hs.data id b ((handleConnection_data id).subset hb), ?_⟩
    exact fun id sz hop => hs.buffer id sz (arrived_send.mp hop)
  | written _ =>
    refine ⟨hs.data, fun id sz hop => hs.buffer id sz ?_⟩
    exact arrived_of_finish (arrived_receiveAsync.mp hop)
  | writeFailed _ => exact ⟨hs.data, fun id sz hop => hs.buffer id sz (arrived_of_finish hop)⟩
  | readFailed _ => exact ⟨hs.data, fun id sz hop => hs.buffer id sz (arrived_of_finish hop)⟩
  | removed _ => exact ⟨hs.data, hs.buffer⟩
  | @arrived id chunk hop hle =>
    refine ⟨hs.data, fun other sz hother i hi => ?_⟩
    change P (chunk[i.1]?.getD (s.recvBuffer i))
    by_cases hin : i.1 < chunk.length
    · rw [List.getElem?_eq_getElem hin, Option.getD_some]
      exact hchunk id chunk rfl _ (List.getElem_mem hin)
    · rw [List.getElem?_eq_none (Nat.le_of_not_lt hin), Option.getD_none]
      -- the byte is left of a longer chunk, which its handler has yet to see
      have hlonger : Operation.arrived chunk.length ≠ .arrived sz := by
        intro heq
        rw [Operation.arrived.inj heq] at hin
        exact hin hi
      exact hs.buffer other sz (arrived_of_finish ((arrived_begin hlonger).mp hother)) i hi
  | @received id sz hop =>
    have hhandled : Handled (s.finish id (.arrived sz)) id sz _ :=
      (received_cases onMessageReceived _ id sz).handled
    generalize (s.finish id (.arrived sz)).received onMessageReceived id sz = t at hhandled
    refine ⟨fun other b hb => ?_, fun other n hother i hi => ?_⟩
    · by_cases heq : other = id
      · subst heq
        by_cases htext : IsText s other sz
        · rw [hhandled.text htext, List.mem_append] at hb
          rcases hb with hold | hnew
          · exact hs.data other b hold
          · obtain ⟨i, hi, rfl⟩ := mem_front.mp hnew
            exact hs.buffer other sz hop i hi
        · exact hs.data other b ((hhandled.rest htext).subset hb)
      · rw [hhandled.others other heq] at hb
        exact hs.data other b hb
    · rw [hhandled.recvBuffer]
      exact hs.buffer other n (arrived_of_finish ((hhandled.arrived other n).mp hother)) i hi

theorem Sourced.run {run : List (Event × Server)} (hs : Sourced P s)
    (hrun : Trace (Step onMessageReceived) s run) (hP : ∀ chunk ∈ chunks run, ∀ b ∈ chunk, P b) :
    ∀ p ∈ run, Sourced P p.2 := by
  induction hrun with
  | nil => exact fun p hp => absurd hp List.not_mem_nil
  | @cons s e t rest hst _ ih =>
    have hsub : ∀ chunk ∈ chunks rest, chunk ∈ chunks ((e, t) :: rest) := by
      intro chunk hmem
      obtain ⟨p, hp, hchunk⟩ := List.mem_filterMap.mp hmem
      exact List.mem_filterMap.mpr ⟨p, List.mem_cons_of_mem _ hp, hchunk⟩
    have ht : Sourced P t := by
      refine hs.step hst ?_
      rintro id chunk rfl
      exact hP chunk (List.mem_filterMap.mpr ⟨_, List.mem_cons_self, rfl⟩)
    exact List.forall_mem_cons.mpr ⟨ht, ih ht fun chunk hmem => hP chunk (hsub chunk hmem)⟩

theorem isText_of_command {id sz : ℕ} (hsz : sz ≠ 0) (hcommand : 0xF0 ≤ s.recvBuffer 0) :
    IsText s id sz := by
  have hne : ∀ c : Byte, c < 0xF0 → s.recvBuffer 0 ≠ c := by
    rintro c hc heq
    rw [heq] at hcommand
    exact absurd hc (UInt8.not_lt.mpr hcommand)
  have hends : endsMessage s.recvBuffer (s.session id).receivedData = false := by
    simp [endsMessage, hne 0x2E (by decide), hne 0x0D (by decide)]
  exact ⟨hsz, hends, hne 0x08 (by decide), hne 0x7F (by decide)⟩

theorem FindsText.first_lt {id sz : ℕ} (h : FindsText s (.received id sz)) (hsz : sz ≠ 0) :
    s.recvBuffer 0 < 0xF0 := by
  by_contra hlow
  have htext : IsText s id sz := isText_of_command hsz (UInt8.not_lt.mp hlow)
  exact hlow (h htext _ (mem_front.mpr ⟨0, Nat.pos_of_ne_zero hsz, rfl⟩))

theorem FindsText.unechoed (h : FindsText s e) : Unechoed onMessageReceived s e := by
  cases e with
  | received id sz =>
    exact fun hsz hcommand => absurd (FindsText.first_lt h hsz) (UInt8.not_lt.mpr hcommand)
  | connected => exact trivial
  | written _ => exact trivial
  | writeFailed _ => exact trivial
  | arrived _ _ => exact trivial
  | readFailed _ => exact trivial
  | removed _ => exact trivial

end Runs

theorem mem_command {chunk : Bytes} (h : Uniform chunk) {b : Byte} (hb : b ∈ chunk) :
    0xF0 ≤ b ↔ CommandChunk chunk := by
  obtain ⟨c, rest, rfl⟩ := List.exists_cons_of_ne_nil (List.ne_nil_of_mem hb)
  rcases h with hcommand | hplain
  · exact iff_of_true (hcommand b hb) ⟨c, rfl, hcommand c List.mem_cons_self⟩
  · have hlow : ∀ x ∈ c :: rest, ¬ 0xF0 ≤ x := by
      intro x hx hle
      have hlt := UInt8.lt_of_lt_of_le (hplain x hx) (show (0x80 : Byte) ≤ 0xF0 by decide)
      exact absurd hlt (UInt8.not_lt.mpr hle)
    refine iff_of_false (hlow b hb) ?_
    rintro ⟨x, hx, hle⟩
    obtain rfl := Option.some.inj hx
    exact hlow c List.mem_cons_self hle

section Chunks

variable {onMessageReceived : OnMessageReceivedCB} {buffer : RecvBuffer}
  {run : List (Event × Server)} (hrun : Trace (Step onMessageReceived) { recvBuffer := buffer } run)
  (hchunks : ∀ chunk ∈ chunks run, Uniform chunk)

include hrun

theorem clean_iff_steps : (∀ p ∈ run, Clean p.2) ↔ Steps FindsText { recvBuffer := buffer } run :=
  hrun.steps_iff (fun _ => True) Clean FindsText (fun _ _ _ _ _ => trivial)
    (fun _ _ _ _ hs hst => hs.step_iff hst) trivial fun _ _ hb => absurd hb List.not_mem_nil

theorem sourced_chunks : ∀ p ∈ run, Sourced (fun b => ∃ chunk ∈ chunks run, b ∈ chunk) p.2 :=
  Sourced.run ⟨fun _ _ hb => absurd hb List.not_mem_nil,
    fun _ _ hop => absurd hop List.not_mem_nil⟩ hrun fun chunk hmem _ hb => ⟨chunk, hmem, hb⟩

include hchunks

theorem keepsCommandsOut_iff_clean :
    KeepsCommandsOut onMessageReceived { recvBuffer := buffer } run ↔ ∀ p ∈ run, Clean p.2 := by
  constructor
  · rintro ⟨hdata, -⟩ p hp id b hb
    obtain ⟨chunk, hmem, hin⟩ := (sourced_chunks hrun p hp).data id b hb
    by_contra hlow
    have hcommand := (mem_command (hchunks chunk hmem) hin).mp (UInt8.not_lt.mp hlow)
    exact hdata p hp id b hb chunk hmem hcommand hin
  · intro hall
    refine ⟨fun p hp id b hb chunk hmem hcommand hin => ?_, ?_⟩
    · have hle := (mem_command (hchunks chunk hmem) hin).mpr hcommand
      exact absurd (hall p hp id b hb) (UInt8.not_lt.mpr hle)
    · exact ((clean_iff_steps hrun).mp hall).mono fun _ _ => FindsText.unechoed

theorem clean_of_plain (hplain : ∀ chunk ∈ chunks run, ¬ CommandChunk chunk) :
    ∀ p ∈ run, Clean p.2 := by
  intro p hp id b hb
  obtain ⟨chunk, hmem, hin⟩ := (sourced_chunks hrun p hp).data id b hb
  by_contra hlow
  exact hplain chunk hmem ((mem_command (hchunks chunk hmem) hin).mp (UInt8.not_lt.mp hlow))

end Chunks

/-- A command is found by the handler that comes directly behind it. -/
theorem plain_of_steps {onMessageReceived : OnMessageReceivedCB} {s : Server}
    {run : List (Event × Server)} (hrun : Trace (Step onMessageReceived) s run)
    (honce : AtOnce (run.map Prod.fst)) (hfinds : Steps FindsText s run) :
    ∀ chunk ∈ chunks run, ¬ CommandChunk chunk := by
  induction hrun with
  | nil => exact fun chunk hmem => absurd hmem List.not_mem_nil
  | @cons s e t rest hst hrest ih =>
    cases hst with
    | @arrived id chunk hop hle =>
      obtain ⟨hnext, honce⟩ := honce
      refine List.forall_mem_cons.mpr ⟨?_, ih honce hfinds.2⟩
      rintro ⟨b, hb, hcommand⟩
      obtain ⟨c, tail, rfl⟩ := List.exists_cons_of_ne_nil (l := chunk) (by rintro rfl; cases hb)
      obtain rfl := Option.some.inj hb
      cases hrest with
      | nil => cases hnext
      | cons hst' _ =>
        obtain rfl := Option.some.inj hnext
        have hfirst := FindsText.first_lt hfinds.2.1 (Nat.succ_ne_zero tail.length)
        exact absurd hfirst (UInt8.not_lt.mpr hcommand)
    | connected => exact ih honce hfinds.2
    | written _ => exact ih honce hfinds.2
    | writeFailed _ => exact ih honce hfinds.2
    | received _ => exact ih honce hfinds.2
    | readFailed _ => exact ih honce hfinds.2
    | removed _ => exact ih honce hfinds.2

/-- Commands stay out of the input of a run exactly when no handler finds a byte of one in what
it takes for text. Where each handler comes directly behind its read, that is when no command
is received. -/
theorem commands_out_iff (onMessageReceived : OnMessageReceivedCB) (buffer : RecvBuffer)
    {run : List (Event × Server)}
    (hrun : Trace (Step onMessageReceived) { recvBuffer := buffer } run)
    (hchunks : ∀ chunk ∈ chunks run, Uniform chunk) :
    (KeepsCommandsOut onMessageReceived { recvBuffer := buffer } run ↔
      Steps FindsText { recvBuffer := buffer } run) ∧
    (AtOnce (run.map Prod.fst) →
      (KeepsCommandsOut onMessageReceived { recvBuffer := buffer } run ↔
        ∀ chunk ∈ chunks run, ¬ CommandChunk chunk)) := by
  have hclean := keepsCommandsOut_iff_clean hrun hchunks
  have hsteps := clean_iff_steps hrun
  refine ⟨hclean.trans hsteps, fun honce => hclean.trans ⟨fun hall => ?_, fun hplain => ?_⟩⟩
  · exact plain_of_steps hrun honce (hsteps.mp hall)
  · exact clean_of_plain hrun hchunks hplain

def oneArrival (chunk : Bytes) : Server :=
  { (oneSession.finish 0 .read).begin 0 (.arrived chunk.length) with
    recvBuffer := oneSession.recvBuffer.fill chunk }

/-- A client connects and sends one chunk. -/
def oneChunk (chunk : Bytes) : List (Event × Server) :=
  [(.connected, handleConnection {}), (.written 0, oneSession),
    (.arrived 0 chunk, oneArrival chunk), (.received 0 chunk.length,
      ((oneArrival chunk).finish 0 (.arrived chunk.length)).received onMessageReceived 0
        chunk.length)]

theorem oneChunk_run {chunk : Bytes} (h : chunk.length ≤ recvBufferSize) :
    Trace (Step onMessageReceived) {} (oneChunk chunk) := by
  have hread : .read ∈ oneSession.operations 0 := by decide
  have harrived : .arrived chunk.length ∈ (oneArrival chunk).operations 0 :=
    List.mem_append_right _ (List.mem_singleton_self _)
  exact .cons .connected (.cons (.written (by decide)) (.cons (.arrived hread h) (.cons
    (.received harrived) .nil)))

/-- A letter is no command. -/
theorem commands_out_letter : KeepsCommandsOut onMessageReceived {} (oneChunk [97]) ∧
    ∀ chunk ∈ chunks (oneChunk [97]), ¬ CommandChunk chunk := by
  have hchunks : ∀ chunk ∈ chunks (oneChunk [97]), Uniform chunk :=
    List.forall_mem_singleton.mpr (.inr (List.forall_mem_singleton.mpr (by decide)))
  obtain ⟨hsteps, honce⟩ := commands_out_iff onMessageReceived (fun _ => 0)
    (oneChunk_run (show [(97 : Byte)].length ≤ recvBufferSize by decide)) hchunks
  have hout : KeepsCommandsOut onMessageReceived {} (oneChunk [97]) :=
    hsteps.mpr (by decide +kernel)
  exact ⟨hout, (honce ⟨rfl, trivial⟩).mp hout⟩

/-- IAC DO is received as if it was typed, and echoed. -/
theorem command_is_input :
    Trace (Step onMessageReceived) {} (oneChunk [0xFF, 0xFD]) ∧
    (∀ chunk ∈ chunks (oneChunk [0xFF, 0xFD]), Uniform chunk ∧ CommandChunk chunk) ∧
    (∃ p ∈ oneChunk [0xFF, 0xFD], (p.2.session 0).receivedData = [0xFF, 0xFD] ∧
      p.2.writes 0 = [[0xFF]]) ∧
    ¬ KeepsCommandsOut onMessageReceived {} (oneChunk [0xFF, 0xFD]) := by
  have hrun := oneChunk_run (show [(0xFF : Byte), 0xFD].length ≤ recvBufferSize by decide)
  have hcommand : CommandChunk [0xFF, 0xFD] := ⟨0xFF, rfl, by decide⟩
  have huniform : Uniform [0xFF, 0xFD] := .inl (by simp)
  let last := oneArrival [0xFF, 0xFD] |>.finish 0 (.arrived 2) |>.received onMessageReceived 0 2
  have hlast : (.received 0 2, last) ∈ oneChunk [0xFF, 0xFD] :=
    List.mem_cons_of_mem _ (List.mem_cons_of_mem _ (List.mem_cons_of_mem _ List.mem_cons_self))
  have hdata : (last.session 0).receivedData = [0xFF, 0xFD] ∧ last.writes 0 = [[0xFF]] := by
    decide +kernel
  refine ⟨hrun, List.forall_mem_singleton.mpr ⟨huniform, hcommand⟩, ⟨_, hlast, hdata⟩, ?_⟩
  intro hout
  refine hout.data _ hlast 0 0xFF ?_ [0xFF, 0xFD] List.mem_cons_self hcommand List.mem_cons_self
  rw [hdata.1]
  exact List.mem_cons_self

end TelnetServer
end NetworkProtocols
