import NetworkProtocols.Tftp.ClientLoop
import NetworkProtocols.Tftp.Network
import NetworkProtocols.Tftp.ReadSession

/-!
# GET over an unreliable network

Every block in flight is a block of the file under its own number as long as no request
interrupts the reading of the file. A request that does makes the stream fail, and the
next block is short although the file goes on.
-/

namespace NetworkProtocols
namespace Tftp
namespace LossyGet

open Channel

abbrev Step (ep : Endpoint) (Allowed : TFTPServer → Option Datagram → Outcomes → Prop) :=
  Lossy (clientReaction GetFile.turn fun _ => True) (serverReaction ep Allowed)

def Undisturbed (ep : Endpoint) (srv : TFTPServer) (i : Option Datagram) (_ : Outcomes) : Prop :=
  ∀ d ∈ i, (srv.recvBuffer.fill d).word 0 = MessageType.rrq.code →
    ∀ s, srv.sessions ep = some (.read s) → s.inFile.unread srv.files = []

variable {ep : Endpoint} {mode : TransferMode} {name file dst : Bytes} {srv : TFTPServer}

/-- The server has not opened the file, or has sent some first blocks of it. -/
def ServerAt (ep : Endpoint) (mode : TransferMode) (name file : Bytes) (srv : TFTPServer) : Prop :=
  srv.files.lookup name = some file ∧ (srv.Unserved ep ∨ ∃ k, srv.Downloading ep mode file k)

/-- A datagram of the call: its request or an ACK of some block. -/
def FromCall (mode : TransferMode) (name file : Bytes) (d : Datagram) : Prop :=
  d = requestMessage .rrq name mode ∨
    ∃ j < payloads mode file, d = ackMessage (UInt16.ofNat (j + 1))

/-- A datagram of the server: an ERROR or some block of the file. -/
def FromServer (mode : TransferMode) (file : Bytes) (d : Datagram) : Prop :=
  IsError d ∨
    ∃ j < payloads mode file, d = dataMessage (UInt16.ofNat (j + 1)) (payload mode file j)

theorem fromServer_of_error {sent : List Packet} (h : AtMostError ep sent) :
    ∀ d ∈ sentTo ep sent, FromServer mode file d :=
  fun d hd => .inl (h.sentTo d hd)

theorem fromServer_of_block {j : ℕ} (hj : j < payloads mode file) (o : Outcomes) :
    ∀ d ∈ sentTo ep (if o.sendOk then
        [(ep, dataMessage (UInt16.ofNat (j + 1)) (payload mode file j))] else []),
      FromServer mode file d := by
  intro d hd
  cases hs : o.sendOk with
  | false => simp [hs] at hd
  | true =>
    simp only [hs, if_true, sentTo_singleton, List.mem_singleton] at hd
    exact .inr ⟨j, hj, hd⟩

def Answers (ep : Endpoint) (mode : TransferMode) (name file : Bytes) (srv : TFTPServer)
    (sent : List Packet) : Prop :=
  ServerAt ep mode name file srv ∧ ∀ d ∈ sentTo ep sent, FromServer mode file d

theorem ServerAt.receive_rrq (h : ServerAt ep mode name file srv) (hname : ValidName name)
    (hend : ∀ s, srv.sessions ep = some (.read s) → s.inFile.unread srv.files = [])
    (o : Outcomes) :
    ∃ srv' sent, srv.receive (.received ep (requestMessage .rrq name mode) o) = some (srv', sent) ∧
      Answers ep mode name file srv' sent := by
  have hd := srv.requests_requestMessage .rrq mode hname
  obtain ⟨hfile, hs | ⟨k, hs⟩⟩ := h
  · cases hopen : o.openOk with
    | true =>
      obtain ⟨srv', hr, hs', hfiles⟩ := hs.receive_granted hd hfile hopen
      exact ⟨srv', _, hr, ⟨by rw [hfiles, hfile], .inr ⟨1, hs'⟩⟩,
        fromServer_of_block (Blocks.count_pos _) o⟩
    | false =>
      obtain ⟨srv', hr, hs', hfiles⟩ := hs.receive_refused hd hopen
      exact ⟨srv', _, hr, ⟨by rw [hfiles, hfile], .inl hs'⟩,
        fromServer_of_error (atMostError_send { ep := ep } o .fileNotFound)⟩
  · obtain ⟨srv', hr, hs', hfiles⟩ := hs.receive_again hd hend o
    exact ⟨srv', _, hr, ⟨by rw [hfiles, hfile], .inr ⟨k, hs'⟩⟩,
      fromServer_of_error (atMostError_send { ep := ep } o .fileNotFound)⟩

theorem ServerAt.receive_ack (h : ServerAt ep mode name file srv) {w : UInt16} (hw : w ≠ 0)
    (o : Outcomes) :
    ∃ srv' sent, srv.receive (.received ep (ackMessage w) o) = some (srv', sent) ∧
      Answers ep mode name file srv' sent := by
  obtain ⟨hfile, hs | ⟨k, hs⟩⟩ := h
  · obtain ⟨srv', sent, hr, hs', hfiles, hsent⟩ := hs.receive_ack hw o
    exact ⟨srv', sent, hr, ⟨by rw [hfiles, hfile], .inl hs'⟩, fromServer_of_error hsent⟩
  by_cases hk : w = UInt16.ofNat k
  · have hle : k ≤ payloads mode file := by
      obtain ⟨_, -, hserve, -⟩ := hs
      exact hserve.le_payloads
    subst hk
    rcases Nat.lt_or_eq_of_le hle with hlt | heq
    · obtain ⟨srv', hr, hs', hfiles⟩ := hs.ack_next hlt o
      exact ⟨srv', _, hr, ⟨by rw [hfiles, hfile], .inr ⟨_, hs'⟩⟩, fromServer_of_block hlt o⟩
    · obtain ⟨srv', hr, hnone, hfiles⟩ := hs.ack_last heq o
      exact ⟨srv', _, hr, ⟨by rw [hfiles, hfile], .inl (TFTPServer.unserved_of_none hnone)⟩,
        by simp⟩
  · obtain ⟨srv', hr, hs', hfiles⟩ := hs.ack_unexpected hk o
    exact ⟨srv', _, hr, ⟨by rw [hfiles, hfile], .inr ⟨k, hs'⟩⟩,
      fromServer_of_error (atMostError_send { ep := ep } o .unknownTransferId)⟩

/-- The call has stored some first blocks, or all of them when it returned success. -/
inductive CallAt (mode : TransferMode) (file dst : Bytes) : Call GetFile → Prop
  | waiting {g : GetFile} {k : ℕ} : k < payloads mode file → g.Receiving mode file dst k →
      CallAt mode file dst (.waiting g)
  | failed {c : TFTPClient} : CallAt mode file dst (.returned false c)
  | succeeded {c : TFTPClient} : c.files.lookup dst = some (decode mode file) →
      CallAt mode file dst (.returned true c)

/-- What one datagram of the server does to a waiting call. -/
theorem turn_fromServer (name : Bytes) {g : GetFile} {k : ℕ} (hk : k < payloads mode file)
    (hg : g.Receiving mode file dst k) (hlen : payloads mode file < 65535) {d : Datagram}
    (hd : FromServer mode file d) (o : ClientOutcomes) :
    ∃ call out, g.turn o (some d) = (call, out) ∧ CallAt mode file dst call ∧
      ∀ d ∈ out, FromCall mode name file d := by
  rcases hd with ⟨code, rfl⟩ | ⟨j, hj, rfl⟩
  · obtain ⟨c, ht⟩ := GetFile.turn_error (g := g) (o := o) code
    exact ⟨_, _, ht, .failed, by simp⟩
  by_cases hjk : UInt16.ofNat (j + 1) = UInt16.ofNat (k + 1)
  · have hsucc : j + 1 = k + 1 := Bytes.ofNat_inj (by omega) (by omega) hjk
    obtain rfl : j = k := by omega
    cases hsend : o.sendOk with
    | false =>
      obtain ⟨c, ht⟩ := (hg.turn_data hk).1 hsend
      exact ⟨_, _, ht, .failed, by simp⟩
    | true =>
      obtain ⟨g', hg', ht⟩ := (hg.turn_data hk).2 hsend
      refine ⟨_, _, ht, ?_, fun d hd => .inr ⟨j, hk, List.mem_singleton.mp hd⟩⟩
      split
      · rename_i hlast
        refine .succeeded ?_
        rw [hg'.content, hlast, stored_all]
      · exact .waiting (by omega) hg'
  · obtain ⟨c, ht⟩ := GetFile.turn_unexpected (g := g) (o := o) (payload_length_le mode file j)
      (w := UInt16.ofNat (j + 1)) (by rwa [hg.counter, ← Bytes.ofNat_succ])
    exact ⟨_, _, ht, .failed, by simp⟩

/-- The invariant of a run. -/
structure Inv (ep : Endpoint) (mode : TransferMode) (name file dst : Bytes)
    (s : Net (Call GetFile) (Option TFTPServer) Datagram) : Prop where
  server : ∃ srv, s.right = some srv ∧ ServerAt ep mode name file srv
  call : CallAt mode file dst s.left
  toRight : ∀ d ∈ s.toRight, FromCall mode name file d
  toLeft : ∀ d ∈ s.toLeft, FromServer mode file d

theorem Inv.client_step {s : Net (Call GetFile) (Option TFTPServer) Datagram}
    (h : Inv ep mode name file dst s) (hlen : payloads mode file < 65535) {i : Option Datagram}
    {call : Call GetFile} {out : List Datagram} (hi : ∀ d ∈ i, d ∈ s.toLeft)
    (hr : clientReaction GetFile.turn (fun _ => True) s.left i call out) :
    Inv ep mode name file dst { s with left := call, toRight := s.toRight ++ out } := by
  obtain ⟨g, o, hcall, -, ht⟩ := hr
  have hc := h.call
  rw [hcall] at hc
  cases hc with
  | waiting hk hg =>
    cases i with
    | none =>
      obtain ⟨rfl, rfl⟩ := Prod.mk.inj ht
      exact ⟨h.server, .failed, by simpa using h.toRight, h.toLeft⟩
    | some d =>
      obtain ⟨_, _, ht', hcall', hout⟩ :=
        turn_fromServer name hk hg hlen (h.toLeft d (hi d rfl)) o
      rw [ht'] at ht
      obtain ⟨rfl, rfl⟩ := Prod.mk.inj ht
      refine ⟨h.server, hcall', fun e he => ?_, h.toLeft⟩
      rcases List.mem_append.mp he with he | he
      · exact h.toRight e he
      · exact hout e he

theorem Inv.server_step {s : Net (Call GetFile) (Option TFTPServer) Datagram}
    (h : Inv ep mode name file dst s) (hname : ValidName name)
    (hlen : payloads mode file < 65535) {i : Option Datagram} {right : Option TFTPServer}
    {out : List Datagram} {n : ℕ} (hi : ∀ d ∈ i, d ∈ s.toRight)
    (hr : serverReaction ep (Undisturbed ep) s.right i right out) :
    Inv ep mode name file dst
      { s with right := right, toLeft := s.toLeft ++ out, handed := n } := by
  obtain ⟨srv, hsrv, hat⟩ := h.server
  rw [hsrv] at hr
  cases i with
  | none =>
    obtain ⟨rfl, rfl⟩ := serverReaction_failed hr
    exact ⟨⟨srv, rfl, hat⟩, h.call, h.toRight, by simpa using h.toLeft⟩
  | some d =>
    obtain ⟨o, hundisturbed, hgo⟩ := serverReaction_received hr
    have hadv : ∃ srv' sent, srv.receive (.received ep d o) = some (srv', sent) ∧
        Answers ep mode name file srv' sent := by
      rcases h.toRight d (hi d rfl) with rfl | ⟨j, hj, rfl⟩
      · exact hat.receive_rrq hname
          (hundisturbed _ rfl (srv.recvBuffer.word_zero_requestMessage _ _ _)) o
      · refine hat.receive_ack (fun hzero => ?_) o
        have hnum : j + 1 = 0 := Bytes.ofNat_inj (by omega) (by omega) hzero
        omega
    obtain ⟨srv', sent, hrec, hat', hsent⟩ := hadv
    obtain ⟨rfl, rfl⟩ := hgo _ _ hrec
    refine ⟨⟨srv', rfl, hat'⟩, h.call, h.toRight, fun e he => ?_⟩
    rcases List.mem_append.mp he with he | he
    · exact h.toLeft e he
    · exact hsent e he

/-- A GET that returns success has stored the decoded file in every run in which each
request that reaches a stored download finds nothing left to read. -/
theorem getFile_safe (ep : Endpoint) (srv : TFTPServer) (c : TFTPClient) (o : ClientOutcomes)
    (name dst file : Bytes) (hname : ValidName name)
    (hfile : srv.files.lookup name = some file) (hnone : srv.sessions ep = none)
    (hlen : payloads c.transferMode file < 65535)
    (t : Net (Call GetFile) (Option TFTPServer) Datagram)
    (hrun : Relation.ReflTransGen (Step ep (Undisturbed ep)) (start (c.getFile o name dst) srv) t)
    (c' : TFTPClient) (hret : t.left = .returned true c') :
    c'.files.lookup dst = some (decode c.transferMode file) := by
  have hserver : ServerAt ep c.transferMode name file srv :=
    ⟨hfile, .inl (TFTPServer.unserved_of_none hnone)⟩
  have hstart : Inv ep c.transferMode name file dst (start (c.getFile o name dst) srv) := by
    rcases c.getFile_cases o name dst file with ⟨c₁, hcall⟩ | ⟨g, hg, hcall⟩
    · rw [hcall]
      exact ⟨⟨srv, rfl, hserver⟩, .failed, by simp [start], by simp [start]⟩
    · rw [hcall]
      exact ⟨⟨srv, rfl, hserver⟩, .waiting (Blocks.count_pos _) hg,
        fun d hd => .inl (List.mem_singleton.mp hd), by simp [start]⟩
  have hinv : Inv ep c.transferMode name file dst t := by
    refine Lossy.invariant _ ?_ ?_ hstart hrun
    · exact fun s i call out hs hi hr => hs.client_step hlen hi hr
    · exact fun s i right out hs hi hr => hs.server_step hname hlen hi hr
  have hcall := hinv.call
  rw [hret] at hcall
  cases hcall with
  | succeeded hfile' => exact hfile'

/-- A file of less than 512 bytes is got with one request. -/
theorem get_one_block (ep : Endpoint) (srv : TFTPServer) (c : TFTPClient) (dst : Bytes)
    (hname : ValidName name)
    (hfile : srv.files.lookup name = some file) (hlast : payloads c.transferMode file = 1)
    (hnone : srv.sessions ep = none) :
    ∃ t c', Relation.ReflTransGen (Step ep (Undisturbed ep)) (start (c.getFile {} name dst) srv) t ∧
      t.left = .returned true c' := by
  obtain ⟨g, hg, hcall⟩ := c.getFile_receiving (o := {}) name dst file rfl rfl
  rw [hcall]
  obtain ⟨srv₁, hr₁, -⟩ := (TFTPServer.unserved_of_none hnone).receive_granted (o := {})
    (srv.requests_requestMessage .rrq c.transferMode hname) hfile rfl
  have hfirst : Undisturbed ep srv (some (requestMessage .rrq name c.transferMode)) {} := by
    intro d _ _ s hs
    rw [hnone] at hs
    cases hs
  have h₁ := serverReaction_of_receive hfirst hr₁
  obtain ⟨g', -, ht⟩ := (hg.turn_data (o := {}) (by omega)).2 rfl
  rw [if_pos (by omega)] at ht
  refine ⟨_, _, .tail (.tail .refl (.right ?_ h₁)) (.left ?_ ⟨g, {}, rfl, trivial, ht⟩), rfl⟩
  all_goals simp

theorem getFile_safe_three_bytes :
    ∃ t c', Relation.ReflTransGen (Step ⟨0, 0⟩ (Undisturbed ⟨0, 0⟩))
        (start ((TFTPClient.init .binary (.single [98] [])).getFile {} [97] [99])
          (.init (.single [97] [1, 2, 3]))) t ∧
      t.left = .returned true c' ∧ c'.files.lookup [99] = some [1, 2, 3] := by
  have hname : ValidName [97] := ⟨by decide, by decide, by decide⟩
  obtain ⟨t, c', hrun, hret⟩ := get_one_block ⟨0, 0⟩ (.init (.single [97] [1, 2, 3]))
    (.init .binary (.single [98] [])) [99] hname rfl rfl rfl
  exact ⟨t, c', hrun, hret, getFile_safe _ _ _ _ _ _ _ hname rfl rfl (by decide) t hrun c' hret⟩

/-- An octet-mode download after `k` blocks whose stream has failed before its end. -/
def Interrupted (ep : Endpoint) (k : ℕ) (srv : TFTPServer) : Prop :=
  ∃ s : TFTPSessionRead, srv.sessions ep = some (.read s) ∧ s.ep = ep ∧ s.state = .active ∧
    s.transferMode = .binary ∧ s.blockCounter = UInt16.ofNat k ∧ s.readComplete = false ∧
    s.inFile.fail = true

theorem interrupted_of_request {k : ℕ} (h : srv.Downloading ep .binary file k)
    (hk : k < payloads .binary file) (hname : ValidName name) :
    ∃ srv', srv.receive (.received ep (requestMessage .rrq name .binary) {}) =
        some (srv', [(ep, errorMessage .fileNotFound [])]) ∧ Interrupted ep k srv' := by
  obtain ⟨s, hs, hserve, hep, hact, hopen⟩ := h
  obtain ⟨srv', hr, hs', -⟩ := TFTPServer.receive_rrq_refused (o := {}) (.inl ⟨hs, hact⟩) hep
    (srv.requests_requestMessage .rrq .binary hname) (.inl hopen)
  have hmore : s.readComplete = false := by
    have hne' : ¬ s.readComplete = true := fun hc => absurd (hserve.complete.mp hc) hk.ne
    simpa using hne'
  exact ⟨srv', hr, _, hs', hep, rfl, rfl, hserve.counter, hmore, rfl⟩

/-- The next block of an interrupted download is empty. -/
theorem Interrupted.receive_ack {k : ℕ} (h : Interrupted ep k srv) :
    ∃ srv', srv.receive (.received ep (ackMessage (UInt16.ofNat k)) {}) =
      some (srv', [(ep, dataMessage (UInt16.ofNat (k + 1)) [])]) := by
  obtain ⟨s, hs, hep, hact, hmode, hcount, hmore, hfail⟩ := h
  have hw := srv.recvBuffer.word_zero_ackMessage (UInt16.ofNat k)
  have hn := srv.recvBuffer.word_two_ackMessage (UInt16.ofNat k)
  have hne : ¬ MessageType.ack.code = MessageType.rrq.code := by decide
  have hblock : nextPayload srv.files s.transferMode s.inFile s.lineFeed =
      ({ s.inFile with fail := true }, s.lineFeed, []) := by
    simp [nextPayload, hmode, IfStream.read, IfStream.good, hfail]
  have hgo : ∃ t : TFTPSessionRead, s.onDataReceived srv.files {}
      (srv.recvBuffer.fill (ackMessage (UInt16.ofNat k)))
      (min (ackMessage (UInt16.ofNat k)).length bufferSize) =
        some (t, [(ep, dataMessage (UInt16.ofNat (k + 1)) [])]) := by
    simp only [TFTPSessionRead.onDataReceived, hw, hn, if_neg hne, if_true, hcount, ne_eq,
      not_true_eq_false, if_false, hmore, Bool.false_eq_true, TFTPSessionRead.sendBlockOfData,
      hblock, TFTPSession.send, hep, Bytes.ofNat_succ]
    exact ⟨_, rfl⟩
  obtain ⟨t, hgo⟩ := hgo
  exact ⟨_, TFTPServer.receive_stored hs (Session.onDataReceived_read hgo)⟩

theorem turn_empty {g : GetFile} {k : ℕ} (hg : g.Receiving mode file dst k) :
    ∃ c', g.turn {} (some (dataMessage (UInt16.ofNat (k + 1)) [])) =
        (.returned true c', [ackMessage (UInt16.ofNat (k + 1))]) ∧
      c'.files.lookup dst = some (stored mode file k) := by
  rw [GetFile.turn_expected (by simp) (by rw [hg.counter, Bytes.ofNat_succ])]
  unfold GetFile.storeAndAcknowledge
  simp only [TFTPClient.recv]
  rw [storePayload_open _ _ _ hg.ok hg.opened, decode_nil, FileSystem.append_nil]
  exact ⟨_, rfl, hg.content⟩

/-- A duplicated request cuts a download of more than one block after the first one, and
the call still returns success. -/
theorem truncated (ep : Endpoint) (srv : TFTPServer) (c : TFTPClient) (dst : Bytes)
    (hname : ValidName name) (hfile : srv.files.lookup name = some file)
    (hnone : srv.sessions ep = none) (hmore : 1 < payloads .binary file)
    (hmode : c.transferMode = .binary) :
    ∃ t c', Relation.ReflTransGen (Step ep fun _ _ _ => True)
        (start (c.getFile {} name dst) srv) t ∧
      t.left = .returned true c' ∧ c'.files.lookup dst = some (stored .binary file 1) := by
  obtain ⟨g₀, hg₀, hcall⟩ := c.getFile_receiving (o := {}) name dst file rfl rfl
  rw [hmode] at hg₀ hcall
  rw [hcall]
  obtain ⟨srv₁, hr₁, hd₁, hfiles₁⟩ := (TFTPServer.unserved_of_none hnone).receive_granted
    (o := {}) (srv.requests_requestMessage .rrq .binary hname) hfile rfl
  obtain ⟨srv₂, hr₂, hd₂⟩ := interrupted_of_request hd₁ hmore hname
  obtain ⟨g₁, hg₁, ht₁⟩ := (hg₀.turn_data (o := {}) (Blocks.count_pos _)).2 rfl
  obtain ⟨srv₃, hr₃⟩ := hd₂.receive_ack
  obtain ⟨c', ht₂, hc'⟩ := turn_empty hg₁
  rw [if_neg (by omega)] at ht₁
  have h₁ : serverReaction ep (fun _ _ _ => True) _ _ _ _ := serverReaction_of_receive trivial hr₁
  have h₂ : serverReaction ep (fun _ _ _ => True) _ _ _ _ := serverReaction_of_receive trivial hr₂
  have h₃ : serverReaction ep (fun _ _ _ => True) _ _ _ _ := serverReaction_of_receive trivial hr₃
  -- The request, the request again, DATA 1, ACK 1, and the empty DATA 2.
  refine ⟨_, c', .tail (.tail (.tail (.tail (.tail .refl
    (.right ?_ h₁)) (.right ?_ h₂)) (.left ?_ ⟨g₀, {}, rfl, trivial, ht₁⟩))
    (.right ?_ h₃)) (.left ?_ ⟨g₁, {}, rfl, trivial, ht₂⟩), rfl, hc'⟩
  all_goals simp

/-- A file of 513 bytes is received as its first 512 bytes. -/
theorem getFile_truncates :
    ∃ t c', Relation.ReflTransGen (Step ⟨0, 0⟩ fun _ _ _ => True)
        (start (TFTPClient.getFile (.init .binary (.single [] [])) {} [97] [98])
          (.init (.single [97] (List.replicate 513 7)))) t ∧
      t.left = .returned true c' ∧
      c'.files.lookup [98] ≠ some (List.replicate 513 7) := by
  have hname : ValidName [97] := ⟨by decide, by decide, by decide⟩
  obtain ⟨t, c', hrun, hret, hfile⟩ := truncated ⟨0, 0⟩
    (.init (.single [97] (List.replicate 513 7))) (.init .binary (.single [] [])) [98] hname rfl rfl
    (by rw [payloads, encode, Blocks.count, List.length_replicate]; decide) rfl
  refine ⟨t, c', hrun, hret, ?_⟩
  rw [hfile]
  intro h
  have hlen := congrArg List.length (Option.some.inj h)
  rw [stored, encode, decode, List.length_take, List.length_replicate] at hlen
  omega

end LossyGet
end Tftp
end NetworkProtocols
