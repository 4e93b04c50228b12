import NetworkProtocols.Lib.Transition
import NetworkProtocols.Tftp.Footprint
import NetworkProtocols.Tftp.Transfer

/-!
# What the server sends

A datagram is answered by at most one, which goes back to where it came from. It is a block of
at most 512 bytes, an ACK, or an ERROR without a text, and never a request.
-/

namespace NetworkProtocols
namespace Tftp
namespace Answers

open TFTPServer Transition

/-- The kinds of datagrams that the server builds. -/
inductive Reply : Datagram → Prop
  | block (w : UInt16) {bytes : Bytes} : bytes.length ≤ 512 → Reply (dataMessage w bytes)
  | acknowledge (w : UInt16) : Reply (ackMessage w)
  | error (code : ErrorCode) : Reply (errorMessage code [])

/-- Nothing was sent, or one reply to this endpoint. -/
def AtMostReply (ep : Endpoint) (sent : List Packet) : Prop :=
  sent = [] ∨ ∃ d, sent = [(ep, d)] ∧ Reply d

theorem Reply.length_le {d : Datagram} (h : Reply d) : d.length ≤ bufferSize := by
  cases h with
  | block w hb =>
    rw [dataMessage_length, bufferSize]
    omega
  | acknowledge w => exact Nat.le_of_ble_eq_true rfl
  | error code => cases code <;> exact Nat.le_of_ble_eq_true rfl

variable {fs : FileSystem} {o : Outcomes} {data : Buffer} {n : ℕ} {ep : Endpoint}

theorem atMostReply_send (s : TFTPSession) (o : Outcomes) {d : Datagram} (hd : Reply d) :
    AtMostReply s.ep (s.send o d) := by
  unfold TFTPSession.send
  split
  · exact .inr ⟨d, rfl, hd⟩
  · exact .inl rfl

/-- A block has at most 512 bytes in whatever state the stream is. -/
theorem fillNetascii_length_le (fs : FileSystem) (inFile : IfStream) (lineFeed : Bool) (buf : Bytes)
    (hbuf : buf.length ≤ 512) (hfeed : lineFeed = true → buf = []) :
    (fillNetascii fs inFile lineFeed buf).2.2.length ≤ 512 := by
  have hroom : ∀ {lineFeed : Bool} {buf : Bytes}, buf.length < 512 → (lineFeed = true → buf = []) →
      (if lineFeed = true then buf ++ [LF] else buf).length < 512 := by
    intro lineFeed buf hlt hfeed
    rw [append_lineFeed]
    exact room_lineFeed hlt hfeed
  fun_induction fillNetascii fs inFile lineFeed buf with
  | case1 inFile lineFeed buf hlt buf₁ inFile₁ hpeek => exact (hroom hlt hfeed).le
  | case2 inFile lineFeed buf hlt buf₁ inFile₁ buf₂ hfull hpeek => exact hfull.le
  | case3 inFile lineFeed buf hlt buf₁ inFile₁ buf₂ hnotfull y hpeek ih =>
    have hbuf₁ : buf₁.length < 512 := hroom hlt hfeed
    have hbuf₂ : buf₂.length = buf₁.length + 1 := List.length_append
    refine ih ?_ (by simp)
    rw [List.length_append, List.length_singleton]
    omega
  | case4 inFile lineFeed buf hlt buf₁ inFile₁ x hpeek hx y ih =>
    have hbuf₁ : buf₁.length < 512 := hroom hlt hfeed
    refine ih ?_ (by simp)
    rw [List.length_append, List.length_singleton]
    omega
  | case5 inFile lineFeed buf hfull => exact hbuf

theorem nextPayload_length_le (fs : FileSystem) (mode : TransferMode) (inFile : IfStream)
    (lineFeed : Bool) : (nextPayload fs mode inFile lineFeed).2.2.length ≤ 512 := by
  cases mode with
  | binary => exact IfStream.read_length_le fs inFile 512
  | ascii => exact fillNetascii_length_le fs inFile lineFeed [] (Nat.zero_le _) fun _ => rfl

theorem atMostReply_error (s : TFTPSession) (o : Outcomes) (code : ErrorCode) :
    AtMostReply s.ep (s.sendErrorMessage o code []) :=
  atMostReply_send s o (.error code)

theorem atMostReply_of_error {sent : List Packet} (h : AtMostError ep sent) :
    AtMostReply ep sent := by
  rcases h with rfl | ⟨code, rfl⟩
  · exact .inl rfl
  · exact .inr ⟨_, rfl, .error code⟩

theorem atMostReply_sendBlockOfData (s : TFTPSessionRead) (fs : FileSystem) (o : Outcomes) :
    AtMostReply s.ep (s.sendBlockOfData fs o).2 :=
  atMostReply_send s.toTFTPSession o (.block _ (nextPayload_length_le _ _ _ _))

theorem atMostReply_openAndSend (s : TFTPSessionRead) (fs : FileSystem) (o : Outcomes)
    (name : Bytes) : AtMostReply s.ep (s.openAndSend fs o name).2 := by
  unfold TFTPSessionRead.openAndSend
  dsimp only
  split
  · exact atMostReply_error s.toTFTPSession o .fileNotFound
  · exact atMostReply_sendBlockOfData { s with inFile := s.inFile.openFile fs name o.openOk } fs o

theorem atMostReply_read {s : TFTPSessionRead} {r : TFTPSessionRead × List Packet}
    (h : s.onDataReceived fs o data n = some r) : AtMostReply s.ep r.2 ∧ r.1.ep = s.ep := by
  cases TFTPSessionRead.branch_of_received h with
  | @request name mode _ _ =>
    exact ⟨atMostReply_openAndSend { s with state := .active, transferMode := mode } fs o name,
      (TFTPSessionRead.openAndSend_ep _ fs o name).1⟩
  | malformed => exact ⟨.inl rfl, rfl⟩
  | next _ _ _ => exact ⟨atMostReply_sendBlockOfData s fs o, rfl⟩
  | finish _ _ _ => exact ⟨.inl rfl, rfl⟩
  | mismatch _ _ => exact ⟨atMostReply_error s.toTFTPSession o .unknownTransferId, rfl⟩
  | ignored => exact ⟨.inl rfl, rfl⟩

theorem atMostReply_storeAndAcknowledge (s : TFTPSessionWrite) (fs : FileSystem) (o : Outcomes)
    (bytes : Bytes) :
    AtMostReply s.ep (s.storeAndAcknowledge fs o bytes).2.2 ∧
      (s.storeAndAcknowledge fs o bytes).1.ep = s.ep := by
  rw [TFTPSessionWrite.storeAndAcknowledge_eq]
  refine ⟨atMostReply_send s.toTFTPSession o (.acknowledge _), ?_⟩
  dsimp only
  split <;> rfl

theorem atMostReply_checkAndOpen (s : TFTPSessionWrite) (fs : FileSystem) (o : Outcomes)
    (name : Bytes) :
    AtMostReply s.ep (s.checkAndOpen fs o name).2.2 ∧ (s.checkAndOpen fs o name).1.ep = s.ep := by
  by_cases hpass : TFTPSessionWrite.ChecksPass fs o name
  · rw [TFTPSessionWrite.checkAndOpen_pass hpass]
    exact ⟨atMostReply_send s.toTFTPSession o (.acknowledge _), rfl⟩
  · rw [TFTPSessionWrite.checkAndOpen_refuse hpass]
    exact ⟨atMostReply_of_error (TFTPSessionWrite.atMostError_refusal s o _), rfl⟩

theorem atMostReply_write {s : TFTPSessionWrite} {r : TFTPSessionWrite × FileSystem × List Packet}
    (h : s.onDataReceived fs o data n = some r) : AtMostReply s.ep r.2.2 ∧ r.1.ep = s.ep := by
  cases TFTPSessionWrite.branch_of_received h with
  | @request name mode _ _ =>
    exact atMostReply_checkAndOpen { s with state := .active, transferMode := mode } fs o name
  | malformed => exact ⟨.inl rfl, rfl⟩
  | @block bytes _ _ _ =>
    exact atMostReply_storeAndAcknowledge { s with blockCounter := s.blockCounter + 1 } fs o bytes
  | mismatch _ _ => exact ⟨atMostReply_error s.toTFTPSession o .unknownTransferId, rfl⟩
  | ignored => exact ⟨.inl rfl, rfl⟩

theorem atMostReply_session {s t : Session} {f : FileSystem} {sent : List Packet}
    (h : s.onDataReceived fs o data n = some (t, f, sent)) :
    AtMostReply s.base.ep sent ∧ t.base.ep = s.base.ep := by
  cases s with
  | read s =>
    obtain ⟨r, hr, heq⟩ := Option.map_eq_some_iff.mp h
    cases heq
    exact atMostReply_read hr
  | write s =>
    obtain ⟨r, hr, heq⟩ := Option.map_eq_some_iff.mp h
    cases heq
    exact atMostReply_write hr

def AtHome (session : Option Session) (ep : Endpoint) : Prop :=
  ∀ s, session = some s → s.base.ep = ep

theorem handle_reply {session t : Option Session} {f : FileSystem} {sent : List Packet}
    (hhome : AtHome session ep) (h : handle session fs ep o data n = some (t, f, sent)) :
    AtMostReply ep sent ∧ AtHome t ep := by
  unfold handle at h
  cases session with
  | some s =>
    obtain ⟨⟨s', f', sent'⟩, hr, heq⟩ := Option.map_eq_some_iff.mp h
    cases heq
    obtain ⟨hreply, hep⟩ := atMostReply_session hr
    rw [hhome s rfl] at hreply hep
    refine ⟨hreply, fun u hu => ?_⟩
    split at hu
    · cases hu
    · cases hu
      exact hep
  | none =>
    dsimp only at h
    split at h
    · rename_i s hnew
      obtain ⟨⟨s', f', sent'⟩, hr, heq⟩ := Option.map_eq_some_iff.mp h
      cases heq
      obtain ⟨hreply, hep⟩ := atMostReply_session hr
      rw [(owns_newSession (fun _ => True) hnew).1] at hreply hep
      exact ⟨hreply, fun u hu => by cases hu; exact hep⟩
    · cases h
      exact ⟨atMostReply_error { ep := ep } o .illegalOperation, fun u hu => nomatch hu⟩

def Home (srv : TFTPServer) : Prop := ∀ ep, AtHome (srv.sessions ep) ep

def sender : Completion → Option Endpoint
  | .failed => none
  | .received remoteEndpoint _ _ => some remoteEndpoint

theorem receive_reply {srv srv' : TFTPServer} {c : Completion} {sent : List Packet}
    (hhome : Home srv) (h : srv.receive c = some (srv', sent)) :
    Home srv' ∧ (∀ p ∈ sent, Reply p.2) ∧
      List.Sublist (sent.map Prod.fst) (sender c).toList := by
  cases c with
  | failed =>
    cases h
    exact ⟨hhome, by simp, by simp⟩
  | received ep d o =>
    rw [receive_eq_handle] at h
    obtain ⟨⟨t, f, sent'⟩, hr, heq⟩ := Option.map_eq_some_iff.mp h
    cases heq
    obtain ⟨hreply, ht⟩ := handle_reply (hhome ep) hr
    refine ⟨fun ep' => ?_, ?_⟩
    · by_cases hep : ep' = ep
      · subst hep
        simpa using ht
      · simpa [Function.update_of_ne hep] using hhome ep'
    · rcases hreply with rfl | ⟨d', rfl, hd'⟩
      · simp
      · exact ⟨fun p hp => by rw [List.mem_singleton.mp hp]; exact hd', by simp [sender]⟩

theorem run_reply {srv srv' : TFTPServer} {es : List Completion} {sent : List Packet}
    (hhome : Home srv) (h : run receive srv es = some (srv', sent)) :
    List.Sublist (sent.map Prod.fst) (es.filterMap sender) ∧ ∀ p ∈ sent, Reply p.2 := by
  induction es generalizing srv sent with
  | nil =>
    cases h
    simp
  | cons c es ih =>
    obtain ⟨t, out, rest, ht, hu, rfl⟩ := run_cons_inv h
    obtain ⟨hhome', hreply, hsub⟩ := receive_reply hhome ht
    obtain ⟨hsub', hreply'⟩ := ih hhome' hu
    refine ⟨?_, fun p hp => (List.mem_append.mp hp).elim (hreply p) (hreply' p)⟩
    have hcons : (c :: es).filterMap sender = (sender c).toList ++ es.filterMap sender := by
      cases hc : sender c <;> simp [hc]
    rw [List.map_append, hcons]
    exact hsub.append hsub'

/-- The receivers of what the server sends are, in order, among the senders of what it receives,
so it sends nobody more datagrams than it got from there; and each is a block, an ACK or an
ERROR of at most 516 bytes. -/
theorem answers_sublist (files : FileSystem) (es : List Completion) (s : TFTPServer)
    (sent : List Packet) (h : run receive (.init files) es = some (s, sent)) :
    List.Sublist (sent.map Prod.fst) (es.filterMap sender) ∧
      ∀ p ∈ sent, Reply p.2 ∧ p.2.length ≤ bufferSize := by
  have hhome : Home (.init files) := fun ep s h => nomatch h
  obtain ⟨hsub, hreply⟩ := run_reply hhome h
  exact ⟨hsub, fun p hp => ⟨hreply p hp, (hreply p hp).length_le⟩⟩

theorem answers_sublist_two_clients :
    ∃ s sent, run receive (.init (.single [97] [1, 2, 3]))
        [.received ⟨0, 0⟩ (requestMessage .rrq [97] .binary) {},
          .received ⟨1, 1⟩ (ackMessage 7) {}] = some (s, sent) ∧
      List.Sublist (sent.map Prod.fst) [⟨0, 0⟩, ⟨1, 1⟩] := by
  refine ⟨_, _, rfl, ?_⟩
  exact (answers_sublist (.single [97] [1, 2, 3])
    [.received ⟨0, 0⟩ (requestMessage .rrq [97] .binary) {},
      .received ⟨1, 1⟩ (ackMessage 7) {}] _ _ rfl).1

end Answers
end Tftp
end NetworkProtocols
