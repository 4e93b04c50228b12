import NetworkProtocols.Tftp.OwnBytes

/-!
# A refused request

`receive` stores the session of a first request before its handler looks at the request,
and erases it only when it is finished. A request that is refused leaves its session
behind, and this session takes the datagrams that follow.
-/

namespace NetworkProtocols
namespace Tftp
namespace Refusal

open TFTPServer TFTPSessionWrite

/-- The datagram is a request that the server does not accept. -/
inductive Refused (srv : TFTPServer) (d : Datagram) (o : Outcomes) : Prop
  | malformed {type : MessageType} : type = .rrq ∨ type = .wrq →
      (srv.recvBuffer.fill d).word 0 = type.code →
      ((srv.recvBuffer.fill d).request = some .noFilename ∨
        (srv.recvBuffer.fill d).request = some .invalidMode) → Refused srv d o
  | notFound {name : Bytes} {mode : TransferMode} : srv.Requests .rrq d name mode →
      (o.openOk = false ∨ srv.files.lookup name = none) → Refused srv d o
  | checkFails {name : Bytes} {mode : TransferMode} : srv.Requests .wrq d name mode →
      ¬ ChecksPass srv.files o name → Refused srv d o

def HandledAlike (srv srv' : TFTPServer) (ep : Endpoint) : Prop :=
  ∀ d o, (srv'.receive (.received ep d o)).map Prod.snd =
    (srv.receive (.received ep d o)).map Prod.snd

/-- No session of the endpoint remains, and what follows is handled as if the datagram
had never arrived. -/
def LeavesNothing (srv : TFTPServer) (ep : Endpoint) (d : Datagram) (o : Outcomes) : Prop :=
  ∃ srv' sent, srv.receive (.received ep d o) = some (srv', sent) ∧
    srv'.sessions ep = none ∧ HandledAlike srv srv' ep

variable {srv : TFTPServer} {ep : Endpoint} {d : Datagram} {o : Outcomes}

theorem Refused.reads (h : Refused srv d o) :
    ReadsRequest none ((srv.recvBuffer.fill d).word 0) ∧
      ∃ q, (srv.recvBuffer.fill d).request = some q := by
  cases h with
  | malformed htype hw hreq =>
    refine ⟨?_, hreq.elim (fun h => ⟨_, h⟩) (fun h => ⟨_, h⟩)⟩
    rw [hw]
    exact htype.imp (congrArg _) (congrArg _)
  | notFound hd _ => exact ⟨.inl hd.1, _, hd.2⟩
  | checkFails hd _ => exact ⟨.inr hd.1, _, hd.2⟩

theorem receive_first_request (hs : srv.sessions ep = none)
    (hread : ReadsRequest none ((srv.recvBuffer.fill d).word 0)) {q : Request}
    (hreq : (srv.recvBuffer.fill d).request = some q) (o : Outcomes) :
    ∃ srv' sent session, srv.receive (.received ep d o) = some (srv', sent) ∧
      srv'.sessions ep = some session := by
  rcases hread with hw | hw
  · obtain ⟨r, hr⟩ := TFTPSessionRead.determined_request srv.files o { ep := ep } q
    have hgo := receive_new (o := o) hs (by rw [hw]; rfl)
      (Session.onDataReceived_read (hr _ (min d.length bufferSize) ⟨hw, hreq⟩))
    exact ⟨_, _, _, hgo, Function.update_self ..⟩
  · obtain ⟨r, hr⟩ := TFTPSessionWrite.determined_request srv.files o { ep := ep } q
    have hgo := receive_new (o := o) hs (by rw [hw]; rfl)
      (Session.onDataReceived_write (hr _ (min d.length bufferSize) ⟨hw, hreq⟩))
    exact ⟨_, _, _, hgo, Function.update_self ..⟩

def unknown : Datagram := Bytes.wordBytes MessageType.oack.code

theorem word_zero_unknown (b : Buffer) : (b.fill unknown).word 0 = MessageType.oack.code :=
  b.word_fill_wordBytes MessageType.oack.code

theorem receive_unknown_stored {session : Session} (hs : srv.sessions ep = some session) :
    (srv.receive (.received ep unknown o)).map Prod.snd = some [] := by
  have hw := word_zero_unknown srv.recvBuffer
  cases session with
  | read s =>
    rw [receive_stored hs (Session.onDataReceived_read (TFTPSessionRead.onDataReceived_other
      (by rw [hw]; decide) (by rw [hw]; decide)))]
    rfl
  | write s =>
    rw [receive_stored hs (Session.onDataReceived_write (TFTPSessionWrite.onDataReceived_other
      (by rw [hw]; decide) (by rw [hw]; decide)))]
    rfl

theorem receive_unknown_none (hs : srv.sessions ep = none) :
    (srv.receive (.received ep unknown {})).map Prod.snd =
      some [(ep, errorMessage .illegalOperation [])] := by
  rw [receive_illegal hs (by rw [word_zero_unknown]; rfl)]
  rfl

theorem not_handledAlike {srv' : TFTPServer} {session : Session} (hs : srv.sessions ep = none)
    (hs' : srv'.sessions ep = some session) : ¬ HandledAlike srv srv' ep := by
  intro h
  have hsame := h unknown {}
  rw [receive_unknown_stored hs', receive_unknown_none hs] at hsame
  cases hsame

/-- Every refused first request leaves a session, and the server no longer answers the
endpoint as it would have done. -/
theorem refused_request_remains (hs : srv.sessions ep = none) (h : Refused srv d o) :
    ∃ srv' sent, srv.receive (.received ep d o) = some (srv', sent) ∧
      srv'.sessions ep ≠ none ∧ ¬ HandledAlike srv srv' ep := by
  obtain ⟨hread, q, hreq⟩ := h.reads
  obtain ⟨srv', sent, session, hgo, hs'⟩ := receive_first_request hs hread hreq o
  exact ⟨srv', sent, hgo, by rw [hs']; simp, not_handledAlike hs hs'⟩

theorem refused_missing_file :
    Refused (.init (.single [97] [])) (requestMessage .rrq [98] .binary) {} :=
  .notFound (requests_requestMessage _ .rrq .binary ⟨by decide, by decide, by decide⟩)
    (.inr (by decide))

theorem refused_request_remains_missing_file :
    ∃ srv' sent,
      (TFTPServer.init (.single [97] [])).receive
        (.received ⟨0, 0⟩ (requestMessage .rrq [98] .binary) {}) = some (srv', sent) ∧
      srv'.sessions ⟨0, 0⟩ ≠ none ∧ ¬ HandledAlike (.init (.single [97] [])) srv' ⟨0, 0⟩ :=
  refused_request_remains rfl refused_missing_file

/-- The session of a read request for a file that does not exist remains. -/
theorem missing_file_leaves_session :
    Refused (.init (.single [97] [])) (requestMessage .rrq [98] .binary) {} ∧
    ¬ LeavesNothing (.init (.single [97] [])) ⟨0, 0⟩ (requestMessage .rrq [98] .binary) {} := by
  refine ⟨refused_missing_file, ?_⟩
  rintro ⟨srv', sent, hgo, hnone, -⟩
  obtain ⟨hread, q, hreq⟩ := refused_missing_file.reads
  obtain ⟨srv₁, sent₁, session, hgo₁, hsome⟩ := receive_first_request rfl hread hreq {}
  rw [hgo₁] at hgo
  cases hgo
  rw [hnone] at hsome
  cases hsome

end Refusal
end Tftp
end NetworkProtocols
