import NetworkProtocols.Lib.Transition
import NetworkProtocols.Tftp.Handlers
import NetworkProtocols.Tftp.Transfer

/-!
# A download session sends the blocks of its file in order

The invariant `Serving` ties the counter, the stream position, the pending line feed and
`_readComplete` to the number of blocks that were sent.
-/

namespace NetworkProtocols
namespace Tftp
namespace TFTPSessionRead

open Transition

/-- The session has sent the first `k` blocks of `file`. -/
structure Serving (fs : FileSystem) (mode : TransferMode) (file : Bytes) (k : ℕ)
    (s : TFTPSessionRead) : Prop where
  mode_eq : s.transferMode = mode
  counter : s.blockCounter = UInt16.ofNat k
  rest : pending fs s.transferMode s.inFile s.lineFeed = (encode mode file).drop (512 * k)
  readable : s.inFile.Readable fs
  le_payloads : k ≤ payloads mode file
  complete : s.readComplete = true ↔ k = payloads mode file

variable {fs : FileSystem} {mode : TransferMode} {file : Bytes} {k : ℕ} {s : TFTPSessionRead}

/-- Before the last block has been sent, `sendBlockOfData` sends the next one. -/
theorem Serving.sendBlockOfData (h : Serving fs mode file k s) (hk : k < payloads mode file)
    (o : Outcomes) :
    Serving fs mode file (k + 1) (s.sendBlockOfData fs o).1 ∧
    (s.sendBlockOfData fs o).2 =
      s.send o (dataMessage (UInt16.ofNat (k + 1)) (payload mode file k)) ∧
    (s.sendBlockOfData fs o).1.ep = s.ep ∧
    (s.sendBlockOfData fs o).1.state = s.state ∧
    (s.sendBlockOfData fs o).1.inFile.file = s.inFile.file := by
  obtain ⟨hbytes, hrest, hread, hfile⟩ :=
    nextPayload_spec fs s.transferMode s.inFile s.lineFeed h.readable
  have hpay : (nextPayload fs s.transferMode s.inFile s.lineFeed).2.2 = payload mode file k := by
    rw [hbytes, h.rest]
    rfl
  have hcount : s.blockCounter + 1 = UInt16.ofNat (k + 1) := by
    rw [h.counter, Bytes.ofNat_succ]
  have hopen : s.readComplete = false := by
    have hne : ¬ s.readComplete = true := fun hc => absurd (h.complete.mp hc) hk.ne
    simpa using hne
  refine ⟨⟨h.mode_eq, hcount, ?_, hread, hk, ?_⟩, ?_, rfl, rfl, hfile⟩
  · change pending fs s.transferMode (nextPayload fs s.transferMode s.inFile s.lineFeed).1
      (nextPayload fs s.transferMode s.inFile s.lineFeed).2.1 = _
    rw [hrest, h.rest, Blocks.block_drop]
  · change (s.readComplete || decide _) = true ↔ _
    rw [hopen, Bool.false_or, decide_eq_true_eq, hpay]
    exact payload_short_iff hk
  · simp only [TFTPSessionRead.sendBlockOfData, hpay, hcount]
    rfl

/-- Nothing has been sent and no file is open, as after construction. -/
def Fresh (s : TFTPSessionRead) : Prop :=
  s.blockCounter = 0 ∧ s.readComplete = false ∧ s.lineFeed = false ∧ s.inFile.file = none

theorem Fresh.serving (h : s.Fresh) {name : Bytes} (hfile : fs.lookup name = some file)
    (hmode : s.transferMode = mode) :
    Serving fs mode file 0 { s with inFile := s.inFile.openFile fs name true } := by
  obtain ⟨hc, hr, hl, hf⟩ := h
  rw [IfStream.openFile_granted hf hfile]
  refine ⟨hmode, hc, ?_, .inl rfl, Nat.zero_le _, ?_⟩
  · have hu := IfStream.unread_opened hfile
    cases hm : s.transferMode <;> subst hmode <;> simp [pending, hu, hl, hm, encode]
  · have hp : 0 < payloads mode file := Blocks.count_pos _
    simp [hr, hp.ne]

variable {o : Outcomes} {data : Buffer} {n : ℕ}

theorem Fresh.openAndSend (h : s.Fresh) {name : Bytes} (mode : TransferMode)
    (hfile : fs.lookup name = some file) (hopen : o.openOk = true) :
    ∃ t, openAndSend { s with state := .active, transferMode := mode } fs o name =
        (t, s.send o (dataMessage (UInt16.ofNat 1) (payload mode file 0))) ∧
      Serving fs mode file 1 t ∧ t.ep = s.ep ∧ t.state = .active ∧ t.inFile.file.isSome = true := by
  have hf : s.inFile.file = none := h.2.2.2
  have hserve := Fresh.serving (s := { s with state := .active, transferMode := mode }) h hfile rfl
  obtain ⟨hnext, hsent, hep, hstate, hkeep⟩ := hserve.sendBlockOfData (Blocks.count_pos _) o
  refine ⟨_, ?_, hnext, hep, hstate, ?_⟩
  · rw [TFTPSessionRead.openAndSend]
    simp only [hopen, IfStream.openFile_granted hf hfile, Bool.false_eq_true, if_false] at hsent ⊢
    rw [← Prod.eta (TFTPSessionRead.sendBlockOfData _ _ _), hsent]
    rfl
  · rw [hkeep, IfStream.openFile_granted hf hfile]
    rfl

theorem Serving.ack_next (h : Serving fs mode file k s) (hk : k < payloads mode file)
    (hw : data.word 0 = MessageType.ack.code) (hn : data.word 2 = UInt16.ofNat k) :
    s.onDataReceived fs o data n = some (s.sendBlockOfData fs o) := by
  have hmore : s.readComplete = false := by
    have hne : ¬ s.readComplete = true := fun hc => absurd (h.complete.mp hc) hk.ne
    simpa using hne
  exact onDataReceived_ack hw (by rw [hn, h.counter]) hmore

theorem Serving.ack_last (h : Serving fs mode file k s) (hk : k = payloads mode file)
    (hw : data.word 0 = MessageType.ack.code) (hn : data.word 2 = UInt16.ofNat k) :
    s.onDataReceived fs o data n =
      some ({ s with inFile := s.inFile.close, state := .finished }, []) := by
  exact onDataReceived_last_ack hw (by rw [hn, h.counter]) (h.complete.mpr hk)

theorem Serving.close (h : Serving fs mode file k s) (hk : k = payloads mode file) :
    Serving fs mode file k { s with inFile := s.inFile.close, state := .finished } := by
  have hnil : (encode mode file).drop (512 * k) = [] :=
    Blocks.drop_count _ (by decide) (le_of_eq hk.symm)
  have hrest := h.rest
  rw [hnil] at hrest
  have hunread : s.inFile.unread fs = [] := unread_of_pending_nil hrest
  have hclosed : s.inFile.close.unread fs = [] := by
    unfold IfStream.close
    split
    · rfl
    · exact hunread
  refine ⟨h.mode_eq, h.counter, ?_, .inr hclosed, h.le_payloads, h.complete⟩
  rw [hnil, ← hrest]
  simp only [pending, hclosed, hunread]

/-- One received ACK: what the environment answers, the buffer and the number of bytes. -/
abbrev Ack := Outcomes × Buffer × ℕ

/-- An ACK of at least 4 bytes while every send succeeds; its number is free. -/
def IsAck (a : Ack) : Prop :=
  a.1.sendOk = true ∧ a.2.1.word 0 = MessageType.ack.code ∧ 4 ≤ a.2.2

def ackStep (fs : FileSystem) (s : TFTPSessionRead) (a : Ack) :
    Option (TFTPSessionRead × List Packet) :=
  s.onDataReceived fs a.1 a.2.1 a.2.2

def IsData (p : Packet) : Bool := p.2.take 2 = Bytes.wordBytes MessageType.data.code

/-- The DATA packets of the first `k` blocks. -/
def dataPackets (ep : Endpoint) (mode : TransferMode) (file : Bytes) (k : ℕ) : List Packet :=
  (List.range k).map fun i => (ep, dataMessage (UInt16.ofNat (i + 1)) (payload mode file i))

theorem dataPackets_succ (ep : Endpoint) (mode : TransferMode) (file : Bytes) (k : ℕ) :
    dataPackets ep mode file (k + 1) =
      dataPackets ep mode file k ++
        [(ep, dataMessage (UInt16.ofNat (k + 1)) (payload mode file k))] := by
  simp [dataPackets, List.range_succ]

theorem isData_dataMessage (ep : Endpoint) (w : UInt16) (bytes : Bytes) :
    IsData (ep, dataMessage w bytes) = true := by
  simp [IsData, dataMessage, Bytes.wordBytes]

theorem isData_errorMessage (ep : Endpoint) (code : ErrorCode) :
    IsData (ep, errorMessage code []) = false := by
  cases code <;> rfl

/-- What one ACK does to a serving session. -/
theorem Serving.ackStep (h : Serving fs mode file k s) {a : Ack} (ha : IsAck a) :
    (a.2.1.word 2 = UInt16.ofNat k → k < payloads mode file →
      ∃ t, TFTPSessionRead.ackStep fs s a =
          some (t, [(s.ep, dataMessage (UInt16.ofNat (k + 1)) (payload mode file k))]) ∧
        Serving fs mode file (k + 1) t ∧ t.ep = s.ep) ∧
    (a.2.1.word 2 = UInt16.ofNat k → k = payloads mode file →
      ∃ t, TFTPSessionRead.ackStep fs s a = some (t, []) ∧
        Serving fs mode file k t ∧ t.ep = s.ep ∧ t.state = .finished) ∧
    (a.2.1.word 2 ≠ UInt16.ofNat k →
      TFTPSessionRead.ackStep fs s a = some (s, [(s.ep, errorMessage .unknownTransferId [])])) := by
  obtain ⟨hsend, hw, -⟩ := ha
  refine ⟨fun hn hk => ?_, fun hn hk => ?_, fun hn => ?_⟩
  · obtain ⟨hnext, hsent, hep, -, -⟩ := h.sendBlockOfData hk a.1
    refine ⟨_, ?_, hnext, hep⟩
    rw [TFTPSessionRead.ackStep, h.ack_next hk hw hn,
      ← Prod.eta (TFTPSessionRead.sendBlockOfData _ _ _), hsent]
    simp [TFTPSession.send, hsend]
  · exact ⟨_, h.ack_last hk hw hn, h.close hk, rfl, rfl⟩
  · rw [TFTPSessionRead.ackStep, onDataReceived_other_ack hw (by rwa [h.counter])]
    simp [TFTPSession.sendErrorMessage, TFTPSession.send, hsend]

/-- Any sequence of ACKs leaves the session at some block `m`, with exactly the blocks up
to `m` sent. -/
theorem Serving.run_acks (h : Serving fs mode file k s) (acks : List Ack)
    (hacks : ∀ a ∈ acks, IsAck a) :
    ∃ t sent m, run (TFTPSessionRead.ackStep fs) s acks = some (t, sent) ∧
      Serving fs mode file m t ∧ t.ep = s.ep ∧ k ≤ m ∧
      dataPackets s.ep mode file k ++ sent.filter IsData = dataPackets s.ep mode file m := by
  induction acks generalizing s k with
  | nil => exact ⟨s, [], k, rfl, h, rfl, le_rfl, by simp⟩
  | cons a acks ih =>
    have ha := hacks a (by simp)
    have hrest : ∀ b ∈ acks, IsAck b := fun b hb => hacks b (by simp [hb])
    obtain ⟨hnext, hlast, hother⟩ := h.ackStep ha
    by_cases hn : a.2.1.word 2 = UInt16.ofNat k
    · rcases Nat.lt_or_eq_of_le h.le_payloads with hk | hk
      · obtain ⟨t, ht, hserve, hep⟩ := hnext hn hk
        obtain ⟨u, sent, m, hrun, hu, hue, hm, hdata⟩ := ih hserve hrest
        refine ⟨u, _, m, run_cons ht hrun, hu, hue.trans hep, by omega, ?_⟩
        rw [hep, dataPackets_succ] at hdata
        simpa [isData_dataMessage] using hdata
      · obtain ⟨t, ht, hserve, hep, -⟩ := hlast hn hk
        obtain ⟨u, sent, m, hrun, hu, hue, hm, hdata⟩ := ih hserve hrest
        refine ⟨u, _, m, run_cons ht hrun, hu, hue.trans hep, hm, ?_⟩
        simpa [hep] using hdata
    · obtain ⟨u, sent, m, hrun, hu, hue, hm, hdata⟩ := ih h hrest
      refine ⟨u, _, m, run_cons (hother hn) hrun, hu, hue, hm, ?_⟩
      simpa [isData_errorMessage] using hdata

/-- After a granted first request, whatever ACKs arrive, the DATA datagrams sent are the
first `k` blocks of the file, the `i`-th numbered `i` modulo `2 ^ 16`. The next ACK of
the last number sent causes exactly the next block, or finishes the session after the
short block; any other ACK causes one ERROR and leaves the session unchanged. -/
theorem download_in_order (fs : FileSystem) (s : TFTPSessionRead) (hs : s.Fresh) (o : Outcomes)
    (request : Buffer) (n : ℕ) (name file : Bytes) (mode : TransferMode)
    (hrrq : request.word 0 = MessageType.rrq.code)
    (hreq : request.request = some (.accepted name mode)) (hfile : fs.lookup name = some file)
    (hopen : o.openOk = true) (hsend : o.sendOk = true) :
    ∃ s₁ first, s.onDataReceived fs o request n = some (s₁, first) ∧
      ∀ acks : List Ack, (∀ a ∈ acks, IsAck a) →
        ∃ t sent k, run (ackStep fs) s₁ acks = some (t, sent) ∧
          1 ≤ k ∧ k ≤ payloads mode file ∧
          (first ++ sent).filter IsData = dataPackets s.ep mode file k ∧
          ∀ a, IsAck a →
            (a.2.1.word 2 = UInt16.ofNat k → k < payloads mode file →
              ∃ u, ackStep fs t a =
                some (u, [(s.ep, dataMessage (UInt16.ofNat (k + 1)) (payload mode file k))])) ∧
            (a.2.1.word 2 = UInt16.ofNat k → k = payloads mode file →
              ∃ u, ackStep fs t a = some (u, []) ∧ u.state = .finished) ∧
            (a.2.1.word 2 ≠ UInt16.ofNat k →
              ackStep fs t a = some (t, [(s.ep, errorMessage .unknownTransferId [])])) := by
  obtain ⟨s₁, hgo, hserve, hep, -, -⟩ := hs.openAndSend mode hfile hopen
  refine ⟨s₁, _, (onDataReceived_request hrrq hreq).trans (congrArg some hgo), fun acks hacks => ?_⟩
  obtain ⟨t, sent, k, hrun, ht, hte, hk, hdata⟩ := hserve.run_acks acks hacks
  refine ⟨t, sent, k, hrun, hk, ht.le_payloads, ?_, fun a ha => ?_⟩
  · have hone : dataPackets s.ep mode file 1 =
        [(s.ep, dataMessage (UInt16.ofNat 1) (payload mode file 0))] := by simp [dataPackets]
    rw [hep, hone] at hdata
    simpa [TFTPSession.send, hsend, isData_dataMessage] using hdata
  · obtain ⟨hnext, hlast, hother⟩ := ht.ackStep ha
    rw [hte, hep] at hnext hother
    refine ⟨fun hn hlt => ?_, fun hn heq => ?_, hother⟩
    · obtain ⟨u, hu, -, -⟩ := hnext hn hlt
      exact ⟨u, hu⟩
    · obtain ⟨u, hu, -, -, hfin⟩ := hlast hn heq
      exact ⟨u, hu, hfin⟩

theorem download_in_order_three_bytes :
    ∃ s₁ first,
      TFTPSessionRead.onDataReceived { ep := ⟨0, 0⟩ } (.single [97] [1, 2, 3]) {}
        (Buffer.blank.fill (requestMessage .rrq [97] .binary)) 10 = some (s₁, first) ∧
      ∀ acks : List Ack, (∀ a ∈ acks, IsAck a) →
        ∃ t sent, run (ackStep (.single [97] [1, 2, 3])) s₁ acks = some (t, sent) ∧
          (first ++ sent).filter IsData = [(⟨0, 0⟩, dataMessage 1 [1, 2, 3])] := by
  have hname : ValidName [97] := ⟨by decide, by decide, by decide⟩
  obtain ⟨s₁, first, hgo, hall⟩ := download_in_order (.single [97] [1, 2, 3]) { ep := ⟨0, 0⟩ }
    ⟨rfl, rfl, rfl, rfl⟩ {} (Buffer.blank.fill (requestMessage .rrq [97] .binary)) 10 [97] [1, 2, 3]
    .binary (Buffer.blank.word_zero_requestMessage .rrq [97] .binary)
    (Buffer.blank.request_requestMessage .rrq .binary hname) rfl rfl rfl
  refine ⟨s₁, first, hgo, fun acks hacks => ?_⟩
  obtain ⟨t, sent, k, hrun, hmin, hmax, hdata, -⟩ := hall acks hacks
  have hone : payloads .binary [1, 2, 3] = 1 := by decide
  obtain rfl : k = 1 := by omega
  exact ⟨t, sent, hrun, hdata⟩

end TFTPSessionRead

namespace TFTPServer

open TFTPSessionRead

/-- The endpoint has an active download of `file` of which `k` blocks were sent. -/
def Downloading (srv : TFTPServer) (ep : Endpoint) (mode : TransferMode) (file : Bytes) (k : ℕ) :
    Prop :=
  ∃ s : TFTPSessionRead, srv.sessions ep = some (.read s) ∧ s.Serving srv.files mode file k ∧
    s.ep = ep ∧ s.state = .active ∧ s.inFile.file.isSome = true

variable {srv : TFTPServer} {ep : Endpoint} {mode : TransferMode} {file name : Bytes} {k : ℕ}
variable {s : TFTPSessionRead} {d : Datagram}

/-- The session of the endpoint, or the one that an RRQ creates for it. -/
def readSession (srv : TFTPServer) (ep : Endpoint) (s : TFTPSessionRead) : Prop :=
  (srv.sessions ep = some (.read s) ∧ s.state = .active) ∨
    (srv.sessions ep = none ∧ s = { ep := ep })

theorem receive_rrq (hs : srv.readSession ep s) (hd : srv.Requests .rrq d name mode)
    (o : Outcomes) {s' : TFTPSessionRead} {sent : List Packet} (hact : s'.state = .active)
    (hgo : openAndSend { s with state := .active, transferMode := mode } srv.files o name =
      (s', sent)) :
    srv.receive (.received ep d o) =
      some ({ sessions := Function.update srv.sessions ep (some (.read s'))
              recvBuffer := srv.recvBuffer.fill d
              files := srv.files }, sent) := by
  obtain ⟨hw, hreq⟩ := hd
  have hdata : s.onDataReceived srv.files o _ (min d.length bufferSize) = _ :=
    onDataReceived_request hw hreq
  rw [hgo] at hdata
  rcases hs with ⟨hs, -⟩ | ⟨hnone, rfl⟩
  · rw [receive_stored hs (Session.onDataReceived_read hdata)]
    simp [Session.getState, Session.base, hact]
  · exact receive_new hnone (by rw [hw]; rfl) (Session.onDataReceived_read hdata)

theorem receive_rrq_refused (hs : srv.readSession ep s) (hep : s.ep = ep)
    (hd : srv.Requests .rrq d name mode) {o : Outcomes}
    (hfail : s.inFile.file.isSome = true ∨ o.openOk = false ∨ srv.files.lookup name = none) :
    ∃ srv', srv.receive (.received ep d o) =
        some (srv', if o.sendOk then [(ep, errorMessage .fileNotFound [])] else []) ∧
      srv'.sessions ep = some (.read { s with
        state := .active, transferMode := mode, inFile := { s.inFile with fail := true } }) ∧
      srv'.files = srv.files := by
  have hgo : openAndSend { s with state := .active, transferMode := mode } srv.files o name =
      ({ s with state := .active, transferMode := mode, inFile := { s.inFile with fail := true } },
        if o.sendOk then [(ep, errorMessage .fileNotFound [])] else []) := by
    simp only [openAndSend, IfStream.openFile_refused hfail, if_true, ← hep]
    rfl
  exact ⟨_, receive_rrq hs hd o rfl hgo, Function.update_self _ _ _, rfl⟩

/-- The endpoint has no session, or one that has not opened a file yet. -/
def Unserved (srv : TFTPServer) (ep : Endpoint) : Prop :=
  ∃ s : TFTPSessionRead, srv.readSession ep s ∧ s.ep = ep ∧ s.Fresh

theorem unserved_of_none (h : srv.sessions ep = none) : srv.Unserved ep :=
  ⟨{ ep := ep }, .inr ⟨h, rfl⟩, rfl, rfl, rfl, rfl, rfl⟩

theorem Unserved.receive_granted (h : srv.Unserved ep) (hd : srv.Requests .rrq d name mode)
    (hfile : srv.files.lookup name = some file) {o : Outcomes} (hopen : o.openOk = true) :
    ∃ srv', srv.receive (.received ep d o) =
        some (srv', if o.sendOk then [(ep, dataMessage (UInt16.ofNat 1) (payload mode file 0))]
          else []) ∧
      srv'.Downloading ep mode file 1 ∧ srv'.files = srv.files := by
  obtain ⟨s, hs, rfl, hfresh⟩ := h
  obtain ⟨t, hgo, hserve, hep, hstate, hfile'⟩ := hfresh.openAndSend mode hfile hopen
  exact ⟨_, receive_rrq hs hd o hstate hgo,
    ⟨t, Function.update_self _ _ _, hserve, hep, hstate, hfile'⟩, rfl⟩

theorem Unserved.receive_refused (h : srv.Unserved ep) (hd : srv.Requests .rrq d name mode)
    {o : Outcomes} (hopen : o.openOk = false) :
    ∃ srv', srv.receive (.received ep d o) =
        some (srv', if o.sendOk then [(ep, errorMessage .fileNotFound [])] else []) ∧
      srv'.Unserved ep ∧ srv'.files = srv.files := by
  obtain ⟨s, hs, hep, hfresh⟩ := h
  obtain ⟨srv', hr, hs', hfiles⟩ :=
    receive_rrq_refused hs hep hd (.inr (.inl hopen))
  exact ⟨srv', hr, ⟨_, .inl ⟨hs', rfl⟩, hep, hfresh⟩, hfiles⟩

theorem receive_ack_other (hs : srv.sessions ep = some (.read s)) (hep : s.ep = ep)
    (hact : s.state = .active) {w : UInt16} (hw : w ≠ s.blockCounter) (o : Outcomes) :
    srv.receive (.received ep (ackMessage w) o) =
      some ({ srv with recvBuffer := srv.recvBuffer.fill (ackMessage w) },
        if o.sendOk then [(ep, errorMessage .unknownTransferId [])] else []) := by
  have hgo : s.onDataReceived srv.files o _ (min (ackMessage w).length bufferSize) = _ :=
    onDataReceived_other_ack (srv.recvBuffer.word_zero_ackMessage w)
      (by rwa [srv.recvBuffer.word_two_ackMessage])
  have hlive : (Session.read s).getState ≠ .finished := by
    simp [Session.getState, Session.base, hact]
  rw [receive_stored hs (Session.onDataReceived_read hgo),
    if_neg hlive, ← hs, Function.update_eq_self, TFTPSession.sendErrorMessage, TFTPSession.send,
    hep]

theorem Unserved.receive_ack (h : srv.Unserved ep) {w : UInt16} (hw : w ≠ 0) (o : Outcomes) :
    ∃ srv' sent, srv.receive (.received ep (ackMessage w) o) = some (srv', sent) ∧
      srv'.Unserved ep ∧ srv'.files = srv.files ∧ AtMostError ep sent := by
  obtain ⟨s, hs, hep, hfresh⟩ := h
  rcases hs with ⟨hs, hact⟩ | ⟨hnone, rfl⟩
  · exact ⟨_, _, receive_ack_other hs hep hact (by rwa [hfresh.1]) o,
      ⟨s, .inl ⟨hs, hact⟩, hep, hfresh⟩, rfl, atMostError_send { ep := ep } o .unknownTransferId⟩
  · have hnew : newSession ep ((srv.recvBuffer.fill (ackMessage w)).word 0) = none := by
      rw [Buffer.word_zero_ackMessage]
      rfl
    exact ⟨_, _, receive_illegal hnone hnew, unserved_of_none hnone, rfl,
      atMostError_send { ep := ep } o .illegalOperation⟩

theorem Downloading.ack_next (h : srv.Downloading ep mode file k) (hk : k < payloads mode file)
    (o : Outcomes) :
    ∃ srv', srv.receive (.received ep (ackMessage (UInt16.ofNat k)) o) =
        some (srv', if o.sendOk then
            [(ep, dataMessage (UInt16.ofNat (k + 1)) (payload mode file k))]
          else []) ∧
      srv'.Downloading ep mode file (k + 1) ∧ srv'.files = srv.files := by
  obtain ⟨s, hs, hserve, hep, hstate, hfile⟩ := h
  obtain ⟨hnext, hsent, hep', hstate', hfile'⟩ := hserve.sendBlockOfData hk o
  have hgo := hserve.ack_next (o := o) (n := min (ackMessage (UInt16.ofNat k)).length bufferSize) hk
    (srv.recvBuffer.word_zero_ackMessage _) (srv.recvBuffer.word_two_ackMessage _)
  have hlive : (s.sendBlockOfData srv.files o).1.state ≠ .finished := by simp [hstate', hstate]
  rw [TFTPSession.send, hep] at hsent
  rw [← Prod.eta (s.sendBlockOfData srv.files o), hsent] at hgo
  refine ⟨_, receive_stored hs (Session.onDataReceived_read hgo), ?_, rfl⟩
  exact ⟨_, by simp [Session.getState, Session.base, hlive], hnext, hep'.trans hep,
    hstate'.trans hstate, by rwa [hfile']⟩

theorem Downloading.ack_last (h : srv.Downloading ep mode file k) (hk : k = payloads mode file)
    (o : Outcomes) :
    ∃ srv', srv.receive (.received ep (ackMessage (UInt16.ofNat k)) o) = some (srv', []) ∧
      srv'.sessions ep = none ∧ srv'.files = srv.files := by
  obtain ⟨s, hs, hserve, -, -, -⟩ := h
  have hgo := hserve.ack_last (o := o) (n := min (ackMessage (UInt16.ofNat k)).length bufferSize) hk
    (srv.recvBuffer.word_zero_ackMessage _) (srv.recvBuffer.word_two_ackMessage _)
  exact ⟨_, receive_stored hs (Session.onDataReceived_read hgo),
    by simp [Session.getState, Session.base], rfl⟩

theorem Downloading.ack_unexpected (h : srv.Downloading ep mode file k) {w : UInt16}
    (hw : w ≠ UInt16.ofNat k) (o : Outcomes) :
    ∃ srv', srv.receive (.received ep (ackMessage w) o) =
        some (srv', if o.sendOk then [(ep, errorMessage .unknownTransferId [])] else []) ∧
      srv'.Downloading ep mode file k ∧ srv'.files = srv.files := by
  obtain ⟨s, hs, hserve, hep, hstate, hfile⟩ := h
  exact ⟨_, receive_ack_other hs hep hstate (by rwa [hserve.counter]) o,
    ⟨s, hs, hserve, hep, hstate, hfile⟩, rfl⟩

theorem Downloading.receive_again (h : srv.Downloading ep mode file k)
    (hd : srv.Requests .rrq d name mode)
    (hend : ∀ s, srv.sessions ep = some (.read s) → s.inFile.unread srv.files = [])
    (o : Outcomes) :
    ∃ srv', srv.receive (.received ep d o) =
        some (srv', if o.sendOk then [(ep, errorMessage .fileNotFound [])] else []) ∧
      srv'.Downloading ep mode file k ∧ srv'.files = srv.files := by
  obtain ⟨s, hs, hserve, hep, hstate, hfile⟩ := h
  obtain ⟨srv', hr, hs', hfiles⟩ :=
    receive_rrq_refused (.inl ⟨hs, hstate⟩) hep hd (.inl hfile) (o := o)
  refine ⟨srv', hr, ⟨_, hs', ?_, hep, rfl, hfile⟩, hfiles⟩
  rw [hfiles]
  have hunread : IfStream.unread srv.files { s.inFile with fail := true } = [] := hend s hs
  have hrest := hserve.rest
  rw [hserve.mode_eq] at hrest
  exact ⟨rfl, hserve.counter, hrest, .inr hunread, hserve.le_payloads, hserve.complete⟩

end TFTPServer

end Tftp
end NetworkProtocols
