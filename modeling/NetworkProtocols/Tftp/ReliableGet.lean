import NetworkProtocols.Tftp.ClientLoop
import NetworkProtocols.Tftp.Network
import NetworkProtocols.Tftp.ReadSession

/-!
# GET over a reliable network

Client and server run in lock step: one datagram is in flight, and the number of steps
that remain is known from it. The counters of both sides are the block number modulo
`2 ^ 16`, so files of any length are covered.
-/

namespace NetworkProtocols
namespace Tftp
namespace ReliableGet

open Channel Transition

/-- Every datagram is delivered once and in order, every send succeeds and the server
may open the file. -/
abbrev Step (ep : Endpoint) :=
  Fifo (clientReaction GetFile.turn fun o => o.sendOk = true)
    (serverReaction ep fun _ _ o => o.sendOk = true ∧ o.openOk = true)

/-- What the call has come to when it has stored `k` blocks. -/
def Received (mode : TransferMode) (file dst : Bytes) (k : ℕ) (call : Call GetFile) : Prop :=
  ∃ g : GetFile, g.Receiving mode file dst k ∧
    call = if k = payloads mode file then .returned true g.client else .waiting g

/-- The states of the run, numbered by the steps that remain: the request, then DATA and
ACK of each block, then nothing. -/
inductive Stage (ep : Endpoint) (mode : TransferMode) (name file dst : Bytes) :
    ℕ → Net (Call GetFile) (Option TFTPServer) Datagram → Prop
  | request {g : GetFile} {srv : TFTPServer} {n m : ℕ} : m = 2 * payloads mode file + 1 →
      g.Receiving mode file dst 0 → srv.sessions ep = none → srv.files.lookup name = some file →
      Stage ep mode name file dst m
        ⟨.waiting g, some srv, [], [requestMessage .rrq name mode], n⟩
  | data {g : GetFile} {srv : TFTPServer} {k n m : ℕ} : k < payloads mode file →
      m = 2 * (payloads mode file - k) → g.Receiving mode file dst k →
      srv.Downloading ep mode file (k + 1) →
      Stage ep mode name file dst m ⟨.waiting g, some srv,
        [dataMessage (UInt16.ofNat (k + 1)) (payload mode file k)], [], n⟩
  | ack {call : Call GetFile} {srv : TFTPServer} {k n m : ℕ} : k < payloads mode file →
      m + 1 = 2 * (payloads mode file - k) → Received mode file dst (k + 1) call →
      srv.Downloading ep mode file (k + 1) →
      Stage ep mode name file dst m
        ⟨call, some srv, [], [ackMessage (UInt16.ofNat (k + 1))], n⟩
  | last {call : Call GetFile} {srv : TFTPServer} {n : ℕ} :
      Received mode file dst (payloads mode file) call → srv.sessions ep = none →
      Stage ep mode name file dst 0 ⟨call, some srv, [], [], n⟩

variable {ep : Endpoint} {mode : TransferMode} {name file dst : Bytes}

section

variable (hname : ValidName name)

include hname in
/-- A reaction is possible as long as steps remain. -/
theorem Stage.next {n : ℕ} {s : Net (Call GetFile) (Option TFTPServer) Datagram}
    (h : Stage ep mode name file dst (n + 1) s) : ∃ t, Step ep s t := by
  generalize hm : n + 1 = m at h
  cases h with
  | @request _ srv _ _ _ _ hnone hfile =>
    obtain ⟨srv', hr, -, -⟩ := (TFTPServer.unserved_of_none hnone).receive_granted
      (srv.requests_requestMessage .rrq mode hname) hfile (o := {}) rfl
    exact ⟨_, .right (serverReaction_of_receive ⟨rfl, rfl⟩ hr)⟩
  | data hk _ hg _ =>
    obtain ⟨g', -, ht⟩ := (hg.turn_data (o := {}) hk).2 rfl
    exact ⟨_, .left ⟨_, {}, rfl, rfl, ht⟩⟩
  | @ack _ srv k _ _ hk _ _ hd =>
    rcases Nat.lt_or_eq_of_le (Nat.succ_le_of_lt hk) with hlt | heq
    · obtain ⟨srv', hr, -, -⟩ := hd.ack_next hlt {}
      exact ⟨_, .right (serverReaction_of_receive ⟨rfl, rfl⟩ hr)⟩
    · obtain ⟨srv', hr, -, -⟩ := hd.ack_last heq {}
      exact ⟨_, .right (serverReaction_of_receive ⟨rfl, rfl⟩ hr)⟩
  | last _ _ => omega

include hname in
/-- Every step leads to the stage with one step less. -/
theorem Stage.step {n : ℕ} {s t : Net (Call GetFile) (Option TFTPServer) Datagram}
    (h : Stage ep mode name file dst (n + 1) s) (hst : Step ep s t) :
    Stage ep mode name file dst n t := by
  generalize hm : n + 1 = m at h
  cases h with
  | @request g srv _ _ hcount hg hnone hfile =>
    obtain ⟨_, _, hr, rfl⟩ := hst.only_right
    obtain ⟨o, ⟨hsend, hopen⟩, hgo⟩ := serverReaction_received hr
    obtain ⟨srv', hrec, hd, -⟩ :=
      (TFTPServer.unserved_of_none hnone).receive_granted
        (srv.requests_requestMessage .rrq mode hname) hfile hopen
    rw [hsend, if_pos rfl] at hrec
    obtain ⟨rfl, rfl⟩ := hgo _ _ hrec
    rw [sentTo_singleton]
    exact .data (Blocks.count_pos _) (by omega) hg hd
  | @data g srv k _ _ hk hcount hg hd =>
    obtain ⟨_, _, ⟨_, o, hcall, hsend, ht⟩, rfl⟩ := hst.only_left
    obtain rfl := Call.waiting.inj hcall
    obtain ⟨g', hg', ht'⟩ := (hg.turn_data hk).2 hsend
    rw [ht'] at ht
    obtain ⟨rfl, rfl⟩ := Prod.mk.inj ht
    exact .ack hk (by omega) ⟨g', hg', rfl⟩ hd
  | @ack call srv k _ _ hk hcount hcall hd =>
    obtain ⟨_, _, hr, rfl⟩ := hst.only_right
    obtain ⟨o, ⟨hsend, -⟩, hgo⟩ := serverReaction_received hr
    rcases Nat.lt_or_eq_of_le (Nat.succ_le_of_lt hk) with hlt | heq
    · obtain ⟨srv', hrec, hd', -⟩ := hd.ack_next hlt o
      rw [hsend, if_pos rfl] at hrec
      obtain ⟨rfl, rfl⟩ := hgo _ _ hrec
      obtain ⟨g, hg, rfl⟩ := hcall
      rw [sentTo_singleton, if_neg hlt.ne]
      exact .data hlt (by omega) hg hd'
    · obtain ⟨srv', hrec, hnone, -⟩ := hd.ack_last heq o
      obtain ⟨rfl, rfl⟩ := hgo _ _ hrec
      have hn : n = 0 := by omega
      subst hn
      exact .last (heq ▸ hcall) hnone
  | last _ _ => omega

end

/-- A GET run ends, with success, with the decoded file stored and with the session
erased: in octet mode the file as it is, in netascii mode without its carriage returns. -/
theorem getFile_ends (ep : Endpoint) (srv : TFTPServer) (c : TFTPClient) (o : ClientOutcomes)
    (name dst file : Bytes) (hname : ValidName name)
    (hfile : srv.files.lookup name = some file) (hnone : srv.sessions ep = none)
    (hopen : o.openOk = true) (hsend : o.sendOk = true) :
    Ends (Step ep)
      (fun s => ∃ c' srv', s.left = .returned true c' ∧ s.right = some srv' ∧
        c'.files.lookup dst = some (decode c.transferMode file) ∧ srv'.sessions ep = none ∧
        s.toLeft = [] ∧ s.toRight = [])
      (start (c.getFile o name dst) srv) := by
  obtain ⟨g, hg, hcall⟩ := c.getFile_receiving name dst file hopen hsend
  rw [hcall]
  refine Ends.countdown (Stage ep c.transferMode name file dst) ?_ ?_ ?_ _ _
    (.request rfl hg hnone hfile)
  · exact fun n s hs => hs.next hname
  · exact fun n s t hs hst => hs.step hname hst
  · intro s hs
    generalize hm : 0 = m at hs
    cases hs with
    | last hcall hnone' =>
      obtain ⟨g, hg, rfl⟩ := hcall
      refine ⟨fun t => Fifo.idle, g.client, _, by simp, rfl, ?_, hnone', rfl, rfl⟩
      rw [hg.content, stored_all]
    | request hcount => omega
    | data hk hcount => omega
    | ack hk hcount => omega

theorem getFile_ends_three_bytes :
    Ends (Step ⟨0, 0⟩)
      (fun s => ∃ c' srv', s.left = .returned true c' ∧ s.right = some srv' ∧
        c'.files.lookup [99] = some [1, 2, 3] ∧ srv'.sessions ⟨0, 0⟩ = none ∧
        s.toLeft = [] ∧ s.toRight = [])
      (start ((TFTPClient.init .binary (.single [98] [])).getFile {} [97] [99])
        (.init (.single [97] [1, 2, 3]))) := by
  have hname : ValidName [97] := ⟨by decide, by decide, by decide⟩
  exact getFile_ends ⟨0, 0⟩ (.init (.single [97] [1, 2, 3])) (.init .binary (.single [98] [])) {}
    [97] [99] [1, 2, 3] hname rfl rfl rfl rfl

end ReliableGet
end Tftp
end NetworkProtocols
