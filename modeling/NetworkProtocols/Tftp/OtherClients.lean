import NetworkProtocols.Tftp.FileSafety
import NetworkProtocols.Tftp.Footprint
import NetworkProtocols.Tftp.Network
import NetworkProtocols.Tftp.ReadSession
import NetworkProtocols.Tftp.WriteSession

/-!
# What other clients can do to a transfer

Datagrams of other endpoints leave the session of an endpoint, the file that it reads and the
file that it writes as they are, whatever they hold. They may leave anything in the receive
buffer.
-/

namespace NetworkProtocols
namespace Tftp
namespace OtherClients

open FileSystem FileSafety TFTPServer

/-- The server receives something from another endpoint, or a receive fails. It grants no request
for a file that exists, and `Allowed` restricts what it may receive. -/
def Serves (ep : Endpoint) (Allowed : TFTPServer → Datagram → Prop) (s t : Option TFTPServer) :
    Prop :=
  ∃ server server' c packets, s = some server ∧ t = some server' ∧
    server.receive c = some (server', packets) ∧
    ∀ remote d o, c = .received remote d o →
      remote ≠ ep ∧ server.GrantsNew d o ∧ Allowed server d

theorem Serves.grantedNew {ep : Endpoint} {server : TFTPServer} {c : Completion}
    {Allowed : TFTPServer → Datagram → Prop}
    (h : ∀ remote d o, c = .received remote d o →
      remote ≠ ep ∧ server.GrantsNew d o ∧ Allowed server d) : GrantedNew server c := by
  cases c with
  | failed => trivial
  | received remote d o => exact (h remote d o rfl).2.1

variable {srv srv' : TFTPServer} {ep remote : Endpoint} {d : Datagram} {o : Outcomes}
variable {sent : List Packet} {own : Path → Prop} {p : Path} {bytes : Bytes}

theorem sessions_of_ne (h : srv.receive (.received remote d o) = some (srv', sent))
    (hne : remote ≠ ep) : srv'.sessions ep = srv.sessions ep := by
  obtain ⟨_, session, -, -, hsessions⟩ := receive_effect h
  rw [hsessions, Function.update_of_ne hne.symm]

theorem receive_owns (hs : Owns own ep (srv.sessions ep))
    (hask : AsksWithin own srv.files (srv.recvBuffer.fill d))
    (h : srv.receive (.received ep d o) = some (srv', sent)) : Owns own ep (srv'.sessions ep) := by
  rw [receive_eq_handle] at h
  obtain ⟨⟨t, f, sent'⟩, hr, heq⟩ := Option.map_eq_some_iff.mp h
  cases heq
  obtain ⟨f', -, -, -, howns, -⟩ := handle_agrees (.refl own srv.files) hs hask (.refl _ _) hr
  simpa only [Function.update_self] using howns

theorem receive_sealed (hp : srv.store.Sealed p bytes) {c : Completion}
    (h : srv.receive c = some (srv', sent)) (hgrants : GrantedNew srv c) :
    srv'.store.Sealed p bytes :=
  (receive_evolves hgrants h).isSealed hp

theorem receive_naming {c : Completion} (h : srv.receive c = some (srv', sent)) :
    srv'.files.toNaming = srv.files.toNaming := by
  cases c with
  | failed =>
    cases h
    rfl
  | received ep d o => exact (receive_creates h).1

theorem receive_valid (hs : srv.store.Valid) {c : Completion}
    (h : srv.receive c = some (srv', sent)) (hgrants : GrantedNew srv c) : srv'.store.Valid :=
  (receive_evolves hgrants h).valid hs

theorem upload_of_ne (h : srv.receive (.received remote d o) = some (srv', sent))
    (hgrants : srv.GrantsNew d o) (hs : srv.store.Valid) (hne : remote ≠ ep)
    (hp : srv.store.writer ep = some p) :
    srv'.store.writer ep = some p ∧ srv'.files.content p = srv.files.content p :=
  AppendStore.frame (receive_steps hgrants h) hs hne.symm hp

theorem serving_agree {fs fs' : FileSystem} {mode : TransferMode} {file : Bytes} {k : ℕ}
    {s : TFTPSessionRead} (hagree : AgreeOn own fs fs') (hin : s.inFile.In own)
    (h : s.Serving fs mode file k) : s.Serving fs' mode file k := by
  have hunread : s.inFile.unread fs' = s.inFile.unread fs :=
    (IfStream.unread_agree hagree hin).symm
  refine ⟨h.mode_eq, h.counter, ?_, ?_, h.le_payloads, h.complete⟩
  · rw [← h.rest]
    unfold pending
    rw [hunread]
  · exact h.readable.imp_right fun hnil => hunread.trans hnil

theorem asksWithin_ack (own : Path → Prop) (fs : FileSystem) (b : Buffer) (w : UInt16) :
    AsksWithin own fs (b.fill (ackMessage w)) := by
  intro hw
  rw [b.word_zero_ackMessage] at hw
  rcases hw with hw | hw <;> cases hw

theorem asksWithin_request {own : Path → Prop} {fs : FileSystem} (b : Buffer) (type : MessageType)
    {name : Bytes} (mode : TransferMode) (hname : ValidName name) (hown : own (fs.denotes name)) :
    AsksWithin own fs (b.fill (requestMessage type name mode)) := by
  intro _ name' mode' hreq
  rw [b.request_requestMessage type mode hname] at hreq
  cases hreq
  exact hown

end OtherClients
end Tftp
end NetworkProtocols
