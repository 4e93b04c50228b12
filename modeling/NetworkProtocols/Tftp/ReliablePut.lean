import NetworkProtocols.Tftp.ClientLoop
import NetworkProtocols.Tftp.Network
import NetworkProtocols.Tftp.WriteSession

/-!
# PUT over a reliable network

The run of an upload, again in lock step. The server acknowledges the request with
number zero, so the ACK of block `k` finds the call with exactly `k` blocks sent and the
server with exactly `k` blocks stored.
-/

namespace NetworkProtocols
namespace Tftp
namespace ReliablePut

open Channel Transition

/-- The server may send and open, and none of its file-system queries fails or refuses. -/
def Granted (o : Outcomes) : Prop :=
  o.sendOk = true ∧ o.openOk = true ∧ o.currentPathErr = false ∧ o.existsErr = false ∧
    o.statusErr = false ∧ o.othersWrite = true

theorem granted_default : Granted {} := ⟨rfl, rfl, rfl, rfl, rfl, rfl⟩

theorem Granted.checksPass {o : Outcomes} (h : Granted o) {fs : FileSystem} {name : Bytes}
    (hnone : fs.lookup (fs.filePath name) = none) : TFTPSessionWrite.ChecksPass fs o name := by
  obtain ⟨-, -, hp, he, hs, hw⟩ := h
  exact ⟨hp, he, hnone, hs, hw⟩

abbrev Step (ep : Endpoint) :=
  Fifo (clientReaction PutFile.turn fun o => o.sendOk = true) (serverReaction ep fun _ _ => Granted)

/-- The server after it stored `k` blocks; the session is gone after the last one. -/
def Acknowledged (ep : Endpoint) (mode : TransferMode) (name file : Bytes) (k : ℕ)
    (srv : TFTPServer) : Prop :=
  srv.files.lookup name = some (stored mode file k) ∧
    if k = payloads mode file then srv.sessions ep = none
    else srv.Uploading ep mode (srv.files.denotes name) k (stored mode file k)

/-- The states of the run, numbered by the steps that remain: the request, then ACK and
DATA of each block, and the ACK of the last block. -/
inductive Stage (ep : Endpoint) (mode : TransferMode) (name file : Bytes) :
    ℕ → Net (Call PutFile) (Option TFTPServer) Datagram → Prop
  | request {p : PutFile} {srv : TFTPServer} {n m : ℕ} : m = 2 * payloads mode file + 2 →
      p.Sending mode file 0 → srv.sessions ep = none →
      srv.files.lookup (srv.files.filePath name) = none →
      Stage ep mode name file m ⟨.waiting p, some srv, [], [requestMessage .wrq name mode], n⟩
  | ack {p : PutFile} {srv : TFTPServer} {k n m : ℕ} : k ≤ payloads mode file →
      m = 2 * (payloads mode file - k) + 1 → p.Sending mode file k →
      Acknowledged ep mode name file k srv →
      Stage ep mode name file m ⟨.waiting p, some srv, [ackMessage (UInt16.ofNat k)], [], n⟩
  | data {p : PutFile} {srv : TFTPServer} {k n m : ℕ} : k < payloads mode file →
      m = 2 * (payloads mode file - k) → p.Sending mode file (k + 1) →
      Acknowledged ep mode name file k srv →
      Stage ep mode name file m ⟨.waiting p, some srv, [],
        [dataMessage (UInt16.ofNat (k + 1)) (payload mode file k)], n⟩
  | last {c : TFTPClient} {srv : TFTPServer} {n : ℕ} :
      Acknowledged ep mode name file (payloads mode file) srv →
      Stage ep mode name file 0 ⟨.returned true c, some srv, [], [], n⟩

variable {ep : Endpoint} {mode : TransferMode} {name file : Bytes} {srv : TFTPServer}
variable {o : Outcomes} {k : ℕ}

theorem acknowledged_request (mode : TransferMode) (file : Bytes) (hname : ValidName name)
    (hnone : srv.sessions ep = none)
    (hfree : srv.files.lookup (srv.files.filePath name) = none) (ho : Granted o) :
    ∃ srv', srv.receive (.received ep (requestMessage .wrq name mode) o) =
        some (srv', [(ep, ackMessage 0)]) ∧ Acknowledged ep mode name file 0 srv' := by
  obtain ⟨srv', hr, hup, hfiles⟩ :=
    (TFTPServer.unopened_of_none hnone).receive_granted
      (srv.requests_requestMessage .wrq mode hname)
      (ho.checksPass hfree) ho.2.1
  have hden : srv'.files.denotes = srv.files.denotes := by rw [hfiles]; rfl
  rw [← hden] at hup
  have hfirst : ¬ 0 = payloads mode file := (Blocks.count_pos _).ne
  refine ⟨srv', by rw [hr, ho.1]; rfl, ?_, ?_⟩
  · obtain ⟨_, -, -, -, -, -, -, hc⟩ := hup
    simpa [FileSystem.lookup] using hc
  · rw [if_neg hfirst, stored_zero]
    exact hup

theorem Acknowledged.data (h : Acknowledged ep mode name file k srv)
    (hk : k < payloads mode file) (hsend : o.sendOk = true) :
    ∃ srv', srv.receive (.received ep
          (dataMessage (UInt16.ofNat (k + 1)) (payload mode file k)) o) =
        some (srv', [(ep, ackMessage (UInt16.ofNat (k + 1)))]) ∧
      Acknowledged ep mode name file (k + 1) srv' := by
  obtain ⟨-, hup⟩ := h
  rw [if_neg hk.ne] at hup
  obtain ⟨srv', hr, hfiles, hcontent, hnext⟩ :=
    hup.receive_expected (payload_length_le mode file k) o
  rw [← stored_succ] at hcontent hnext
  have hden : srv'.files.denotes = srv.files.denotes := by rw [hfiles]; rfl
  refine ⟨srv', by rw [hr, hsend]; rfl, ?_, ?_⟩
  · rw [FileSystem.lookup, hden, hcontent]
  · simpa only [hsend, true_and, payload_short_iff hk, hden] using hnext

section

variable (hname : ValidName name)

include hname in
theorem Stage.next {n : ℕ} {s : Net (Call PutFile) (Option TFTPServer) Datagram}
    (h : Stage ep mode name file (n + 1) s) : ∃ t, Step ep s t := by
  generalize hm : n + 1 = m at h
  cases h with
  | request _ _ hnone hfree =>
    obtain ⟨srv', hr, -⟩ := acknowledged_request mode file hname hnone hfree
      granted_default
    exact ⟨_, .right (serverReaction_of_receive granted_default hr)⟩
  | ack hk _ hp _ =>
    rcases Nat.lt_or_eq_of_le hk with hlt | heq
    · obtain ⟨p', -, ht⟩ := (hp.turn_next (o := {}) hlt).2 rfl
      exact ⟨_, .left ⟨_, {}, rfl, rfl, ht⟩⟩
    · exact ⟨_, .left ⟨_, {}, rfl, rfl, hp.turn_last heq⟩⟩
  | data hk _ _ hs =>
    obtain ⟨srv', hr, -⟩ := hs.data hk (o := {}) rfl
    exact ⟨_, .right (serverReaction_of_receive granted_default hr)⟩
  | last _ => omega

include hname in
/-- Every step leads to the stage with one step less. -/
theorem Stage.step {n : ℕ} {s t : Net (Call PutFile) (Option TFTPServer) Datagram}
    (h : Stage ep mode name file (n + 1) s) (hst : Step ep s t) :
    Stage ep mode name file n t := by
  generalize hm : n + 1 = m at h
  cases h with
  | @request p srv _ _ hcount hp hnone hfree =>
    obtain ⟨_, _, hr, rfl⟩ := hst.only_right
    obtain ⟨o, ho, hgo⟩ := serverReaction_received hr
    obtain ⟨srv', hrec, hs⟩ := acknowledged_request mode file hname hnone hfree ho
    obtain ⟨rfl, rfl⟩ := hgo _ _ hrec
    rw [sentTo_singleton]
    exact .ack (k := 0) (Nat.zero_le _) (by omega) hp hs
  | @ack p srv k _ _ hk hcount hp hs =>
    obtain ⟨_, _, ⟨_, o, hcall, hsend, ht⟩, rfl⟩ := hst.only_left
    obtain rfl := Call.waiting.inj hcall
    rcases Nat.lt_or_eq_of_le hk with hlt | heq
    · obtain ⟨p', hp', ht'⟩ := (hp.turn_next hlt).2 hsend
      rw [ht'] at ht
      obtain ⟨rfl, rfl⟩ := Prod.mk.inj ht
      exact .data hlt (by omega) hp' hs
    · rw [hp.turn_last heq] at ht
      obtain ⟨rfl, rfl⟩ := Prod.mk.inj ht
      have hn : n = 0 := by omega
      subst hn
      exact .last (heq ▸ hs)
  | @data p srv k _ _ hk hcount hp hs =>
    obtain ⟨_, _, hr, rfl⟩ := hst.only_right
    obtain ⟨o, ho, hgo⟩ := serverReaction_received hr
    obtain ⟨srv', hrec, hs'⟩ := hs.data hk ho.1
    obtain ⟨rfl, rfl⟩ := hgo _ _ hrec
    rw [sentTo_singleton]
    exact .ack hk (by omega) hp hs'
  | last _ => omega

end

/-- A PUT run ends, with success, with the decoded file stored on the server and with the
session erased. -/
theorem putFile_ends (ep : Endpoint) (srv : TFTPServer) (c : TFTPClient) (o : ClientOutcomes)
    (src name file : Bytes) (hname : ValidName name)
    (hsrc : c.files.lookup src = some file)
    (hfree : srv.files.lookup (srv.files.filePath name) = none)
    (hnone : srv.sessions ep = none) (hopen : o.openOk = true) (hsend : o.sendOk = true) :
    Ends (Step ep)
      (fun s => ∃ c' srv', s.left = .returned true c' ∧ s.right = some srv' ∧
        srv'.files.lookup name = some (decode c.transferMode file) ∧ srv'.sessions ep = none ∧
        s.toLeft = [] ∧ s.toRight = [])
      (start (c.putFile o src name) srv) := by
  obtain ⟨p, hp, hcall⟩ := c.putFile_sending name hsrc hopen hsend
  rw [hcall]
  refine Ends.countdown (Stage ep c.transferMode name file) ?_ ?_ ?_ _ _
    (.request rfl hp hnone hfree)
  · exact fun n s hs => hs.next hname
  · exact fun n s t hs hst => hs.step hname hst
  · intro s hs
    generalize hm : 0 = m at hs
    cases hs with
    | last hs =>
      obtain ⟨hfile, hnone'⟩ := hs
      rw [stored_all] at hfile
      rw [if_pos rfl] at hnone'
      exact ⟨fun t => Fifo.idle, _, _, rfl, rfl, hfile, hnone', rfl, rfl⟩
    | request hcount => omega
    | ack hk hcount => omega
    | data hk hcount => omega

theorem putFile_ends_three_bytes :
    Ends (Step ⟨0, 0⟩)
      (fun s => ∃ c' srv', s.left = .returned true c' ∧ s.right = some srv' ∧
        srv'.files.lookup [97] = some [1, 2, 3] ∧ srv'.sessions ⟨0, 0⟩ = none ∧
        s.toLeft = [] ∧ s.toRight = [])
      (start ((TFTPClient.init .binary (.single [99] [1, 2, 3])).putFile {} [99] [97])
        (.init (.single [98] []))) := by
  have hname : ValidName [97] := ⟨by decide, by decide, by decide⟩
  exact putFile_ends ⟨0, 0⟩ (.init (.single [98] [])) (.init .binary (.single [99] [1, 2, 3])) {}
    [99] [97] [1, 2, 3] hname rfl rfl rfl rfl rfl

end ReliablePut
end Tftp
end NetworkProtocols
