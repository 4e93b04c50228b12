import NetworkProtocols.Smtp.Connection
import NetworkProtocols.Smtp.Dispatch

/-!
# The cuts of the byte stream

A client sends a stream of bytes, and the session reads it in pieces. The scanner looks at
one piece and at what earlier pieces left in the buffer, so apart from the empty stream and
a single blank the replies depend on the cuts.
-/

namespace NetworkProtocols
namespace Smtp

open Bytes Relation SMTPSession

/-- The reply codes and the last state of a session whose reads hand over the chunks, as far
as it reads on. -/
def feed (r : Refusals) (s : State) : List Bytes → List UInt16 × State
  | [] => (s.due, s.settle)
  | chunk :: chunks =>
    if s.settle.pending = [.receive] then
      let fed := feed r (s.settle.onReceived chunk r) chunks
      (s.due ++ fed.1, fed.2)
    else (s.due, s.settle)

def Cuts (stream : Bytes) (chunks : List Bytes) : Prop :=
  chunks.flatten = stream ∧ ∀ chunk ∈ chunks, IsRead chunk

instance (stream : Bytes) (chunks : List Bytes) : Decidable (Cuts stream chunks) :=
  inferInstanceAs (Decidable (_ ∧ ∀ chunk ∈ chunks, IsRead chunk))

def outcome (fed : List UInt16 × State) : List UInt16 × Disk × Bool :=
  (fed.1, fed.2.disk, fed.2.session.receiveMessage)

def Insensitive (id : UInt32) (d : Disk) (r : Refusals) (stream : Bytes) : Prop :=
  ∀ (b b' : Buffer) (chunks chunks' : List Bytes), Cuts stream chunks → Cuts stream chunks' →
    outcome (feed r (.start id b d) chunks) = outcome (feed r (.start id b' d) chunks')

section Runs

variable {r : Refusals} {s : State} {chunks : List Bytes}

theorem settle_steps (s : State) : ReflTransGen (fun s t => ∃ e, Step s e t) s s.settle := by
  rcases s.settle_cases with ⟨code, hsent⟩ | hsame
  · exact .single ⟨.sent code, hsent⟩
  · rw [hsame]

theorem feed_steps (h : ∀ chunk ∈ chunks, IsRead chunk) :
    ReflTransGen (fun s t => ∃ e, Step s e t) s (feed r s chunks).2 := by
  induction chunks generalizing s with
  | nil => exact settle_steps s
  | cons chunk chunks ih =>
    obtain ⟨hread, hrest⟩ := List.forall_mem_cons.mp h
    rw [feed]
    split
    · rename_i hpending
      have hreceived : ∃ e, Step s.settle e (s.settle.onReceived chunk r) :=
        ⟨.received chunk r, .received (by simp [hpending]) hread⟩
      exact ((settle_steps s).tail hreceived).trans (ih hrest)
    · exact settle_steps s

theorem due_length (s : State) : s.due.length ≤ 1 := by
  unfold State.due
  split <;> simp

theorem feed_length_le (r : Refusals) (s : State) (chunks : List Bytes) :
    (feed r s chunks).1.length ≤ chunks.length + 1 := by
  induction chunks generalizing s with
  | nil => exact due_length s
  | cons chunk chunks ih =>
    have hdue := due_length s
    rw [feed]
    split
    · have hrest := ih (s.settle.onReceived chunk r)
      rw [List.length_append, List.length_cons]
      omega
    · exact hdue.trans (Nat.le_add_left 1 _)

end Runs

theorem dispatch_blank {b : Byte} (rest : Bytes) (h : isBlank b = true) :
    dispatch (b :: rest) = if b = space then .mailFrom else .reply 500 :=
  dispatch_word (w := []) nofun h (by decide)

theorem dispatch_full {buffer : Bytes} (hlen : buffer.length = commandBufferSize)
    (h : ∀ b ∈ buffer, isBlank b = false) : dispatch buffer = .reply 500 := by
  have hnext : nextBlank buffer 0 = commandBufferSize := by
    rw [nextBlank, List.drop_zero, List.take_of_length_le (by omega),
      List.findIdx_eq_length.mpr h, hlen, Nat.zero_add]
  unfold dispatch
  simp only [hnext, if_true]

theorem dispatch_second {b : Byte} (rest : Bytes) (h : isBlank b = false) :
    dispatch (b :: space :: rest) = .mailFrom ∨ dispatch (b :: space :: rest) = .rcptTo ∨
      dispatch (b :: space :: rest) = .reply 502 := by
  have hw : ∀ x ∈ [b], isBlank x = false := List.forall_mem_singleton.mpr h
  have hword : dispatch (b :: space :: rest) = ofFirstWord [b] :=
    dispatch_word hw (b := space) rfl (show 1 < commandBufferSize by decide)
  rw [hword, ofFirstWord]
  split
  · exact .inl rfl
  · split
    · exact .inr (.inl rfl)
    · exact .inr (.inr rfl)

def Fresh (s : SMTPSession) : Prop := s.receiveMessage = false ∧ s.lastCommand = .undefined

theorem onReceive_fresh {s : SMTPSession} (h : Fresh s) (r : Refusals) (d : Disk) {code : UInt16}
    (hcode : (dispatch s.recvBuffer.bytes = .mailFrom ∧ code = 503) ∨
      (dispatch s.recvBuffer.bytes = .rcptTo ∧ code = 501) ∨
      dispatch s.recvBuffer.bytes = .reply code) :
    s.onReceive r d = (s, d, sendResponse code) := by
  rw [onReceive, h.1, if_neg Bool.false_ne_true, processCommand]
  rcases hcode with ⟨hdispatch, rfl⟩ | ⟨hdispatch, rfl⟩ | hdispatch
  · rw [hdispatch]
    simp [processMailFrom, h.2]
  · rw [hdispatch]
    simp [processRcptTo, h.2]
  · rw [hdispatch]

/-- A stage of a dialogue in which no command was recognised: the buffer behind its first
byte has no blank, and a reply other than 221 is being sent. -/
structure Idle (s : State) : Prop where
  fresh : Fresh s.session
  quiet : ∀ b ∈ s.session.recvBuffer.bytes.drop 1, isBlank b = false
  reply : ∃ code, code ≠ 221 ∧ s.pending = sendResponse code

theorem settle_reply {s : State} {code : UInt16} (h : s.pending = sendResponse code)
    (hcode : code ≠ 221) : s.due = [code] ∧ s.settle = { s with pending := [.receive] } := by
  constructor
  · rw [State.due, h]
    rfl
  · rw [State.settle, h]
    simp [sendResponse, State.onSent, hcode, h]

theorem onReceived_fresh {s : State} {chunk : Bytes} {code answer : UInt16} (h : Fresh s.session)
    (r : Refusals) (hpending : s.pending = sendResponse code) (hcode : code ≠ 221)
    (hanswer : (dispatch (s.session.recvBuffer.fill chunk).bytes = .mailFrom ∧ answer = 503) ∨
      (dispatch (s.session.recvBuffer.fill chunk).bytes = .rcptTo ∧ answer = 501) ∨
      dispatch (s.session.recvBuffer.fill chunk).bytes = .reply answer) :
    s.settle.onReceived chunk r =
      { s with session := s.session.fill chunk, pending := sendResponse answer } := by
  have hfresh : Fresh (s.session.fill chunk) := h
  rw [(settle_reply hpending hcode).2, State.onReceived, onReceive_fresh hfresh r s.disk hanswer]
  rfl

/-- A single byte gets a reply, and the session is as idle as before. -/
theorem Idle.read {s : State} (h : Idle s) (r : Refusals) (b : Byte) :
    Idle (s.settle.onReceived [b] r) := by
  obtain ⟨code, hcode, hpending⟩ := h.reply
  have hbytes : (s.session.recvBuffer.fill [b]).bytes = b :: s.session.recvBuffer.bytes.drop 1 :=
    Buffer.fill_bytes (show 1 ≤ recvBufferSize by decide)
  have hsize : (b :: s.session.recvBuffer.bytes.drop 1).length = commandBufferSize := by
    rw [← hbytes]
    exact (s.session.recvBuffer.fill [b]).size
  obtain ⟨answer, hanswer, hread⟩ : ∃ answer, answer ≠ 221 ∧ s.settle.onReceived [b] r =
      { s with session := s.session.fill [b], pending := sendResponse answer } := by
    cases hb : isBlank b with
    | true =>
      have hdispatch := dispatch_blank (s.session.recvBuffer.bytes.drop 1) hb
      rw [← hbytes] at hdispatch
      by_cases hspace : b = space
      · rw [if_pos hspace] at hdispatch
        exact ⟨503, by decide, onReceived_fresh h.fresh r hpending hcode (.inl ⟨hdispatch, rfl⟩)⟩
      · rw [if_neg hspace] at hdispatch
        exact ⟨500, by decide, onReceived_fresh h.fresh r hpending hcode (.inr (.inr hdispatch))⟩
    | false =>
      have hdispatch := dispatch_full hsize (List.forall_mem_cons.mpr ⟨hb, h.quiet⟩)
      rw [← hbytes] at hdispatch
      exact ⟨500, by decide, onReceived_fresh h.fresh r hpending hcode (.inr (.inr hdispatch))⟩
  rw [hread]
  refine ⟨h.fresh, ?_, answer, hanswer, rfl⟩
  intro c hc
  have hdrop : (s.session.recvBuffer.fill [b]).bytes.drop 1 =
      s.session.recvBuffer.bytes.drop 1 := by
    rw [hbytes]
    rfl
  exact h.quiet c (hdrop ▸ hc)

theorem Idle.feed_length {s : State} (h : Idle s) (r : Refusals) (stream : Bytes) :
    (feed r s (stream.map ([·]))).1.length = stream.length + 1 := by
  induction stream generalizing s with
  | nil =>
    obtain ⟨code, hcode, hpending⟩ := h.reply
    rw [List.map_nil, feed, (settle_reply hpending hcode).1]
    rfl
  | cons b stream ih =>
    obtain ⟨code, hcode, hpending⟩ := h.reply
    obtain ⟨hdue, hsettle⟩ := settle_reply hpending hcode
    have hrest := ih (h.read r b)
    rw [List.map_cons, feed, if_pos (by rw [hsettle]), hdue]
    simp only [List.length_append, List.length_cons, List.length_nil, hrest]
    omega

theorem cuts_nil {chunks : List Bytes} (h : Cuts [] chunks) : chunks = [] := by
  obtain ⟨hflat, hread⟩ := h
  cases chunks with
  | nil => rfl
  | cons chunk chunks =>
    have hlen := (hread chunk List.mem_cons_self).1
    rw [List.flatten_cons, List.append_eq_nil_iff] at hflat
    rw [hflat.1] at hlen
    exact absurd hlen (by decide)

theorem cuts_singleton {b : Byte} {chunks : List Bytes} (h : Cuts [b] chunks) : chunks = [[b]] := by
  obtain ⟨hflat, hread⟩ := h
  cases chunks with
  | nil => cases hflat
  | cons chunk chunks =>
    have hlen := (hread chunk List.mem_cons_self).1
    cases chunk with
    | nil => exact absurd hlen (by decide)
    | cons c chunk =>
      rw [List.flatten_cons, List.cons_append, List.cons.injEq, List.append_eq_nil_iff] at hflat
      obtain ⟨rfl, rfl, hrest⟩ := hflat
      rw [cuts_nil ⟨hrest, fun _ hmem => hread _ (List.mem_cons_of_mem _ hmem)⟩]

theorem cuts_map (stream : Bytes) : Cuts stream (stream.map ([·])) := by
  constructor
  · rw [← List.flatMap_def, List.flatMap_singleton']
  · intro chunk hmem
    obtain ⟨b, -, rfl⟩ := List.mem_map.mp hmem
    exact ⟨Nat.le_refl 1, show 1 ≤ recvBufferSize by decide⟩

theorem start_idle (id : UInt32) (d : Disk) : Idle (.start id (.full 120) d) where
  fresh := ⟨rfl, rfl⟩
  quiet b hb := by
    rw [List.eq_of_mem_replicate (List.mem_of_mem_drop hb)]
    rfl
  reply := ⟨220, by decide, rfl⟩

theorem feed_answer {id : UInt32} {buffer : Buffer} {d : Disk} {chunk : Bytes} {answer : UInt16}
    (r : Refusals) (hne : answer ≠ 221)
    (hanswer : (dispatch (buffer.fill chunk).bytes = .mailFrom ∧ answer = 503) ∨
      (dispatch (buffer.fill chunk).bytes = .rcptTo ∧ answer = 501) ∨
      dispatch (buffer.fill chunk).bytes = .reply answer) :
    outcome (feed r (.start id buffer d) [chunk]) = ([220, answer], d, false) := by
  have hfresh : Fresh (State.start id buffer d).session := ⟨rfl, rfl⟩
  have hgreeting : (State.start id buffer d).pending = sendResponse 220 := rfl
  have hread := onReceived_fresh hfresh r hgreeting (by decide) hanswer
  obtain ⟨hdue, hsettle⟩ := settle_reply hgreeting (by decide)
  have hpending : ((State.start id buffer d).settle.onReceived chunk r).pending =
      sendResponse answer := by rw [hread]
  obtain ⟨hdue', hsettle'⟩ := settle_reply hpending hne
  rw [feed, if_pos (by rw [hsettle]), feed, hdue, hdue', hsettle', hread]
  rfl

theorem sensitive_of_two (id : UInt32) (d : Disk) (r : Refusals) (a b : Byte) (stream : Bytes) :
    ¬ Insensitive id d r (a :: b :: stream) := by
  intro h
  have hcuts : Cuts (a :: b :: stream) ([a, b] :: stream.map ([·])) := by
    obtain ⟨hflat, hread⟩ := cuts_map stream
    refine ⟨by rw [List.flatten_cons, hflat]; rfl, List.forall_mem_cons.mpr ⟨?_, hread⟩⟩
    exact ⟨show 1 ≤ 2 by decide, show 2 ≤ recvBufferSize by decide⟩
  have heq := congrArg Prod.fst
    (h (.full 120) (.full 120) _ _ (cuts_map (a :: b :: stream)) hcuts)
  have hapart := (start_idle id d).feed_length r (a :: b :: stream)
  have htogether := feed_length_le r (.start id (.full 120) d) ([a, b] :: stream.map ([·]))
  simp only [outcome] at heq
  rw [heq] at hapart
  simp only [List.length_cons, List.length_map] at hapart htogether
  omega

/-- A byte that is no blank gets another reply when a blank is left behind it. -/
theorem sensitive_of_byte (id : UInt32) (d : Disk) (r : Refusals) {b : Byte}
    (hb : isBlank b = false) : ¬ Insensitive id d r [b] := by
  intro h
  have hbytes : ∀ c, ((Buffer.full c).fill [b]).bytes = b :: List.replicate 511 c := fun c =>
    Buffer.fill_bytes (show 1 ≤ recvBufferSize by decide)
  have hfull : outcome (feed r (.start id (.full 120) d) [[b]]) = ([220, 500], d, false) := by
    refine feed_answer r (by decide) (.inr (.inr ?_))
    rw [hbytes]
    refine dispatch_full ?_ (List.forall_mem_cons.mpr ⟨hb, fun c hc => ?_⟩)
    · rw [List.length_cons, List.length_replicate]
      rfl
    · rw [List.eq_of_mem_replicate hc]
      rfl
  obtain ⟨answer, hne, hstale⟩ : ∃ answer, answer ≠ 500 ∧
      outcome (feed r (.start id (.full space) d) [[b]]) = ([220, answer], d, false) := by
    have hspace := hbytes space
    rw [show List.replicate 511 space = space :: List.replicate 510 space from rfl] at hspace
    rcases dispatch_second (List.replicate 510 space) hb with hd | hd | hd
    · exact ⟨503, by decide, feed_answer r (by decide) (.inl ⟨hspace ▸ hd, rfl⟩)⟩
    · exact ⟨501, by decide, feed_answer r (by decide) (.inr (.inl ⟨hspace ▸ hd, rfl⟩))⟩
    · exact ⟨502, by decide, feed_answer r (by decide) (.inr (.inr (hspace ▸ hd)))⟩
  have heq := h (.full 120) (.full space) [[b]] [[b]] (cuts_map [b]) (cuts_map [b])
  rw [hfull, hstale] at heq
  exact hne (by simpa using heq.symm)

theorem feed_blank (id : UInt32) (d : Disk) (r : Refusals) {b : Byte} (hb : isBlank b = true) :
    ∃ answer, ∀ buffer : Buffer,
      outcome (feed r (.start id buffer d) [[b]]) = ([220, answer], d, false) := by
  have hbytes : ∀ buffer : Buffer, (buffer.fill [b]).bytes = b :: buffer.bytes.drop 1 :=
    fun _ => Buffer.fill_bytes (show 1 ≤ recvBufferSize by decide)
  by_cases hspace : b = space
  · refine ⟨503, fun buffer => feed_answer r (by decide) (.inl ⟨?_, rfl⟩)⟩
    rw [hbytes, dispatch_blank _ hb, if_pos hspace]
  · refine ⟨500, fun buffer => feed_answer r (by decide) (.inr (.inr ?_))⟩
    rw [hbytes, dispatch_blank _ hb, if_neg hspace]

/-- The replies, the files and the mode are the same for all cuts and all buffers exactly for
the empty stream and for a single blank. -/
theorem insensitive_iff (id : UInt32) (d : Disk) (r : Refusals) (stream : Bytes) :
    Insensitive id d r stream ↔ stream = [] ∨ ∃ b, isBlank b = true ∧ stream = [b] := by
  constructor
  · intro h
    match stream with
    | [] => exact .inl rfl
    | [b] =>
      cases hb : isBlank b with
      | true => exact .inr ⟨b, hb, rfl⟩
      | false => exact absurd h (sensitive_of_byte id d r hb)
    | a :: b :: stream => exact absurd h (sensitive_of_two id d r a b stream)
  · rintro (rfl | ⟨b, hb, rfl⟩) buffer buffer' chunks chunks' hcuts hcuts'
    · rw [cuts_nil hcuts, cuts_nil hcuts']
      rfl
    · obtain ⟨answer, hanswer⟩ := feed_blank id d r hb
      rw [cuts_singleton hcuts, cuts_singleton hcuts', hanswer, hanswer]

/-- A disk without files and directories. -/
def bareDisk : Disk where
  files := { Naming.verbatim with content := fun _ => none }
  isDirectory _ := false
  apart _ _ := rfl

/-- NOOP gets one reply in one piece, and two others in two. -/
theorem noop_in_two : ¬ Insensitive 1 bareDisk {} (chars "NOOP\r\n") := by
  intro h
  have heq := congrArg Prod.fst (h (.full 0) (.full 0) [chars "NOOP\r\n"]
    [chars "NO", chars "OP\r\n"] (by decide) (by decide))
  have hwhole : (feed {} (.start 1 (.full 0) bareDisk) [chars "NOOP\r\n"]).1 = [220, 250] := by
    decide +kernel
  have hcut : (feed {} (.start 1 (.full 0) bareDisk) [chars "NO", chars "OP\r\n"]).1 =
      [220, 500, 500] := by
    decide +kernel
  simp only [outcome, hwhole, hcut] at heq
  exact absurd heq (by decide)

end Smtp
end NetworkProtocols
