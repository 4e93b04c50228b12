import Mathlib.Data.List.DropRight
import NetworkProtocols.Tftp.LossyPut

/-!
# What an ACK says about the file

A run of one upload session is recorded: the request that passed the checks and the
blocks accepted since. When the file was opened, every block arrives in its turn and its
characters are out of the buffer of the stream before the answer is sent, each ACK finds the
recorded blocks in the file. The stream is closed, and so flushed, only behind the last ACK.
-/

namespace NetworkProtocols
namespace Tftp
namespace AcknowledgedBlock

open Channel Transition TFTPSessionWrite

/-- One call of `onDataReceived`. -/
structure Input where
  outcomes : Outcomes
  data : Buffer
  amount : ℕ
  /-- How many of the characters written to the stream the file on the disk lacks when the answer
  is sent. They wait in the buffer of the stream, or the device did not take them. -/
  lacking : ℕ

/-- A session with the files of its host and a record of its run, which the program does
not keep. -/
structure Upload where
  session : TFTPSessionWrite
  /-- The files with everything that was written to their streams. -/
  files : FileSystem
  /-- Name and mode of the last request that passed the checks. -/
  request : Option (Bytes × TransferMode) := none
  /-- Numbers and payloads of the blocks accepted since. -/
  blocks : List (UInt16 × Bytes) := []

namespace Upload

/-- The record after one input. -/
def record (u : Upload) (i : Input) : Option (Bytes × TransferMode) × List (UInt16 × Bytes) :=
  if i.data.word 0 = MessageType.wrq.code then
    match i.data.request with
    | some (.accepted name mode) =>
      if ChecksPass u.files i.outcomes name then (some (name, mode), []) else (u.request, u.blocks)
    | _ => (u.request, u.blocks)
  else if i.data.word 0 = MessageType.data.code ∧ i.data.word 2 = u.session.blockCounter + 1 then
    (u.request,
      u.blocks ++ [(i.data.word 2, (i.data.slice 4 (sizeSub i.amount 4)).getD [])])
  else (u.request, u.blocks)

def step (u : Upload) (i : Input) : Option (Upload × List Packet) :=
  (u.session.onDataReceived u.files i.outcomes i.data i.amount).map fun r =>
    ({ session := r.1, files := r.2.1, request := (u.record i).1, blocks := (u.record i).2 }, r.2.2)

/-- The accepted blocks are the blocks `1` to `w`, and the requested file, which lacks the last
`lacking` characters written to it, consists of their decoded payloads. -/
def Held (u : Upload) (lacking : ℕ) (w : UInt16) : Prop :=
  ∃ name mode, u.request = some (name, mode) ∧ w = UInt16.ofNat u.blocks.length ∧
    u.blocks.map Prod.fst = (List.range u.blocks.length).map (fun i => UInt16.ofNat (i + 1)) ∧
    (u.files.lookup name).map (fun bytes => bytes.rdrop lacking) =
      some (decode mode (u.blocks.flatMap Prod.snd))

end Upload

/-- The session is not finished, a request that passes the checks gets a file and a stream
that is free, another one fails the checks and repeats the mode of the open upload, and a block
finds the file open, carries the number after the counter and is on the disk when it is
acknowledged. -/
def Sound (s : TFTPSessionWrite) (fs : FileSystem) (i : Input) : Prop :=
  s.state ≠ .finished ∧ i.amount ≤ bufferSize ∧
  (i.data.word 0 = MessageType.wrq.code → i.data.request.isSome = true ∧
    ∀ name mode, i.data.request = some (.accepted name mode) →
      if s.outFile.file = none then ChecksPass fs i.outcomes name → i.outcomes.openOk = true
      else ¬ ChecksPass fs i.outcomes name ∧ mode = s.transferMode) ∧
  (i.data.word 0 = MessageType.data.code →
    s.outFile.file ≠ none ∧ i.data.word 2 = s.blockCounter + 1 ∧ 4 ≤ i.amount ∧
      (i.outcomes.sendOk = true → i.lacking = 0))

/-- The states of a sound run: no file is open yet, the open file holds the recorded
blocks, or the session is finished. -/
inductive Upload.Inv : Upload → Prop
  | unopened {u} : u.session.outFile.file = none → u.session.blockCounter = 0 → Inv u
  | storing {u name} : u.request = some (name, u.session.transferMode) →
      u.session.outFile = { file := some (u.files.denotes name) } →
      u.Held 0 u.session.blockCounter → Inv u
  | finished {u} : u.session.state = .finished → Inv u

namespace Upload

variable {u : Upload} {i : Input}

theorem Held.lacking_eq_zero {lacking : ℕ} {w : UInt16} (h : u.Held 0 w)
    {name : Bytes} {mode : TransferMode} (hrequest : u.request = some (name, mode))
    (hnonempty : decode mode (u.blocks.flatMap Prod.snd) ≠ []) (hheld : u.Held lacking w) :
    lacking = 0 := by
  obtain ⟨_, _, hr, -, -, hall⟩ := h
  obtain ⟨_, _, hr', -, -, hthere⟩ := hheld
  obtain ⟨rfl, rfl⟩ := Prod.mk.inj (Option.some.inj (hr.symm.trans hrequest))
  obtain ⟨rfl, rfl⟩ := Prod.mk.inj (Option.some.inj (hr'.symm.trans hrequest))
  obtain ⟨bytes, hbytes, hwhole⟩ := Option.map_eq_some_iff.mp hall
  rw [List.rdrop_zero] at hwhole
  rw [hbytes, Option.map_some, Option.some_inj, ← hwhole] at hthere
  have hlen := congrArg List.length hthere
  have hpos := List.length_pos_iff.mpr (hwhole ▸ hnonempty)
  rw [List.rdrop, List.length_take] at hlen
  omega

end Upload

/-- What the session of the endpoint is given is sound, and so is a request without one. The file is
there whether or not its characters are on the disk. -/
def SoundStep (ep : Endpoint) (srv : TFTPServer) (i : Option Datagram) (o : Outcomes) : Prop :=
  ∀ d ∈ i, ∀ s, srv.writeSession ep s →
    (srv.sessions ep = none → (srv.recvBuffer.fill d).word 0 = MessageType.wrq.code) →
    Sound s srv.files ⟨o, srv.recvBuffer.fill d, min d.length bufferSize, 0⟩

abbrev PutStep (ep : Endpoint) :=
  Lossy (clientReaction PutFile.turn fun _ => True) (serverReaction ep (SoundStep ep))

def Holding (ep : Endpoint) (mode : TransferMode) (name : Bytes) (srv : TFTPServer) : Prop :=
  (srv.files.lookup name).isSome = true ∧
    (srv.Idle ep ∨ ∃ k content, srv.Uploading ep mode (srv.files.denotes name) k content)

variable {ep : Endpoint} {mode : TransferMode} {name : Bytes} {srv : TFTPServer}

/-- In a sound step a request that passes the checks finds the stream free, and its file is there
afterwards. -/
theorem holding_of_checksPass {s : TFTPSessionWrite} (hs : srv.writeSession ep s) (hep : s.ep = ep)
    (hname : ValidName name) {o : Outcomes}
    (hsound : SoundStep ep srv (some (requestMessage .wrq name mode)) o)
    (hpass : ChecksPass srv.files o name) :
    ∃ srv' sent, srv.receive (.received ep (requestMessage .wrq name mode) o) = some (srv', sent) ∧
      Holding ep mode name srv' ∧ ∀ d ∈ sentTo ep sent, d = ackMessage s.blockCounter := by
  have hd := srv.requests_requestMessage .wrq mode hname
  obtain ⟨-, -, hwrq, -⟩ := hsound _ rfl s hs fun _ => hd.1
  have hgood := (hwrq hd.1).2 name mode hd.2
  split at hgood
  · rename_i hout
    obtain ⟨srv', hr, hup, hfiles⟩ := TFTPServer.receive_wrq_granted hs hep hout hd hpass
      (hgood hpass) s.blockCounter.toNat (by simp)
    have hden : srv'.files.denotes = srv.files.denotes := by rw [hfiles]; rfl
    rw [← hden] at hup
    refine ⟨srv', _, hr, ⟨?_, .inr ⟨_, _, hup⟩⟩, fun d hd => eq_of_mem_sentTo hd⟩
    obtain ⟨_, -, -, -, -, -, -, hcontent⟩ := hup
    rw [FileSystem.lookup, hcontent]
    rfl
  · exact absurd hpass hgood.1

/-- A request creates the file or leaves the server as it was. -/
theorem unopened_receive_wrq (h : srv.Unopened ep) (hname : ValidName name) {o : Outcomes}
    (hsound : SoundStep ep srv (some (requestMessage .wrq name mode)) o) :
    ∃ srv' sent, srv.receive (.received ep (requestMessage .wrq name mode) o) = some (srv', sent) ∧
      (srv'.Unopened ep ∧ AtMostError ep sent ∨ Holding ep mode name srv' ∧
        ∀ d ∈ sentTo ep sent, d = ackMessage 0) := by
  by_cases hpass : ChecksPass srv.files o name
  · obtain ⟨s, hs, hep, hcount, -⟩ := h
    obtain ⟨srv', sent, hr, hheld, hsent⟩ := holding_of_checksPass hs hep hname hsound hpass
    exact ⟨srv', sent, hr, .inr ⟨hheld, hcount ▸ hsent⟩⟩
  · obtain ⟨srv', sent, hr, hs', -, hsent⟩ :=
      h.receive_refused (srv.requests_requestMessage .wrq mode hname) hpass
    exact ⟨srv', sent, hr, .inl ⟨hs', hsent⟩⟩

theorem Holding.writeSession (h : Holding ep mode name srv) :
    ∃ s, srv.writeSession ep s ∧ s.ep = ep := by
  rcases h.2 with (hnone | ⟨s, hs, hep, -⟩) | ⟨_, _, s, hs, hep, -⟩
  · exact ⟨{ ep := ep }, .inr ⟨hnone, rfl⟩, rfl⟩
  · exact ⟨s, .inl hs, hep⟩
  · exact ⟨s, .inl hs, hep⟩

/-- A request that passes the checks empties the file, and a file is still there. -/
theorem Holding.receive_wrq (h : Holding ep mode name srv) (hname : ValidName name) {o : Outcomes}
    (hsound : SoundStep ep srv (some (requestMessage .wrq name mode)) o) :
    ∃ srv' sent, srv.receive (.received ep (requestMessage .wrq name mode) o) = some (srv', sent) ∧
      Holding ep mode name srv' ∧ ∀ d ∈ sentTo ep sent, IsError d ∨ ∃ w, d = ackMessage w := by
  have hd := srv.requests_requestMessage .wrq mode hname
  by_cases hpass : ChecksPass srv.files o name
  · obtain ⟨s, hs, hep⟩ := h.writeSession
    obtain ⟨srv', sent, hr, hheld, hsent⟩ := holding_of_checksPass hs hep hname hsound hpass
    exact ⟨srv', sent, hr, hheld, fun d hd => .inr ⟨_, hsent d hd⟩⟩
  obtain ⟨hfile, hs | ⟨k, content, hs⟩⟩ := h
  · obtain ⟨srv', sent, hr, hs', hfiles, hsent⟩ := hs.receive_refused hd hpass
    exact ⟨srv', sent, hr, ⟨by rw [hfiles, hfile], .inl hs'⟩, fun e he => .inl (hsent.sentTo e he)⟩
  · obtain ⟨srv', sent, hr, hs', hfiles, hsent⟩ := hs.receive_again hd hpass
    rw [← hfiles] at hs'
    exact ⟨srv', sent, hr, ⟨by rw [hfiles, hfile], .inr ⟨k, content, hs'⟩⟩,
      fun e he => .inl (hsent.sentTo e he)⟩

theorem Holding.receive_data (h : Holding ep mode name srv) {w : UInt16} {bytes : Bytes}
    (hb : bytes.length ≤ 512) (o : Outcomes) :
    ∃ srv' sent, srv.receive (.received ep (dataMessage w bytes) o) = some (srv', sent) ∧
      Holding ep mode name srv' ∧ (AtMostError ep sent ∨ sent = [(ep, ackMessage w)]) := by
  obtain ⟨hfile, hs | ⟨k, content, hs⟩⟩ := h
  · obtain ⟨srv', sent, hr, hs', hfiles, hsent⟩ := hs.receive_data hb o
    exact ⟨srv', sent, hr, ⟨by rw [hfiles, hfile], .inl hs'⟩, hsent⟩
  by_cases hw : w = UInt16.ofNat (k + 1)
  · subst hw
    obtain ⟨srv', hr, hfiles, hcontent, hnext⟩ := hs.receive_expected hb o
    have hden : srv'.files.denotes = srv.files.denotes := by rw [hfiles]; rfl
    refine ⟨srv', _, hr, ⟨?_, ?_⟩, ?_⟩
    · rw [FileSystem.lookup, hden, hcontent]
      rfl
    · split at hnext
      · exact .inl (.inl hnext)
      · exact .inr ⟨_, _, hden ▸ hnext⟩
    · cases o.sendOk with
      | false => exact .inl (.inl rfl)
      | true => exact .inr rfl
  · obtain ⟨srv', hr, hs', hfiles⟩ := hs.receive_unexpected hb hw o
    rw [← hfiles] at hs'
    exact ⟨srv', _, hr, ⟨by rw [hfiles, hfile], .inr ⟨_, _, hs'⟩⟩,
      .inl (atMostError_send { ep := ep } o .unknownTransferId)⟩

/-- A call of `putFile`; it succeeds only when the file is held. -/
inductive CallAt (mode : TransferMode) (held : Prop) : Call PutFile → Prop
  | waiting {p : PutFile} {file : Bytes} {k : ℕ} : p.Sending mode file k →
      CallAt mode held (.waiting p)
  | failed {c : TFTPClient} : CallAt mode held (.returned false c)
  | succeeded {c : TFTPClient} : held → CallAt mode held (.returned true c)

theorem CallAt.mono {held held' : Prop} (hkeep : held → held') {call : Call PutFile}
    (h : CallAt mode held call) : CallAt mode held' call := by
  cases h with
  | waiting hp => exact .waiting hp
  | failed => exact .failed
  | succeeded hheld => exact .succeeded (hkeep hheld)

/-- The invariant of a run: an ACK, a block or a success is there only once the file is. -/
structure PutInv (ep : Endpoint) (mode : TransferMode) (name : Bytes) (srv : TFTPServer)
    (s : Net (Call PutFile) (Option TFTPServer) Datagram) : Prop where
  right : s.right = some srv
  server : srv.Unopened ep ∨ Holding ep mode name srv
  call : CallAt mode (Holding ep mode name srv) s.left
  toRight : ∀ d ∈ s.toRight, d = requestMessage .wrq name mode ∨
    Holding ep mode name srv ∧ ∃ w bytes, bytes.length ≤ 512 ∧ d = dataMessage w bytes
  toLeft : ∀ d ∈ s.toLeft, IsError d ∨ Holding ep mode name srv ∧ ∃ w, d = ackMessage w

theorem PutInv.client_step {s : Net (Call PutFile) (Option TFTPServer) Datagram}
    (h : PutInv ep mode name srv s) {i : Option Datagram} {call : Call PutFile}
    {out : List Datagram} (hi : ∀ d ∈ i, d ∈ s.toLeft)
    (hr : clientReaction PutFile.turn (fun _ => True) s.left i call out) :
    PutInv ep mode name srv { s with left := call, toRight := s.toRight ++ out } := by
  obtain ⟨p, o, hcall, -, ht⟩ := hr
  have hc := h.call
  rw [hcall] at hc
  obtain ⟨file, k, hp⟩ : ∃ file k, p.Sending mode file k := by
    cases hc with
    | waiting hp => exact ⟨_, _, hp⟩
  have hquiet : ∀ c, p.turn o i = (.returned false c, []) →
      PutInv ep mode name srv { s with left := call, toRight := s.toRight ++ out } := by
    intro c hturn
    rw [hturn] at ht
    obtain ⟨rfl, rfl⟩ := Prod.mk.inj ht
    exact ⟨h.right, h.server, .failed, by simpa using h.toRight, h.toLeft⟩
  cases i with
  | none => exact hquiet p.client rfl
  | some d =>
    rcases h.toLeft d (hi d rfl) with ⟨code, rfl⟩ | ⟨hheld, w, rfl⟩
    · obtain ⟨c, hturn⟩ := PutFile.turn_error (p := p) (o := o) code
      exact hquiet c hturn
    by_cases hw : w = p.currBlockNumber
    · rw [hw, hp.counter] at ht
      rcases Nat.lt_or_eq_of_le hp.le_payloads with hlt | heq
      · cases hsend : o.sendOk with
        | false =>
          obtain ⟨c, hturn⟩ := (hp.turn_next hlt).1 hsend
          exact hquiet c (by rw [hw, hp.counter, hturn])
        | true =>
          obtain ⟨p', hp', hturn⟩ := (hp.turn_next hlt).2 hsend
          rw [hturn] at ht
          obtain ⟨rfl, rfl⟩ := Prod.mk.inj ht
          refine ⟨h.right, h.server, .waiting hp', fun d hd => ?_, h.toLeft⟩
          rcases List.mem_append.mp hd with hd | hd
          · exact h.toRight d hd
          · exact .inr ⟨hheld, _, _, payload_length_le _ _ _, List.mem_singleton.mp hd⟩
      · rw [hp.turn_last heq] at ht
        obtain ⟨rfl, rfl⟩ := Prod.mk.inj ht
        exact ⟨h.right, h.server, .succeeded hheld, by simpa using h.toRight, h.toLeft⟩
    · obtain ⟨c, hturn⟩ := PutFile.turn_unexpected (p := p) (o := o) hw
      exact hquiet c hturn

/-- What one datagram does to the server. -/
theorem PutInv.receive {s : Net (Call PutFile) (Option TFTPServer) Datagram}
    (h : PutInv ep mode name srv s) (hname : ValidName name) {d : Datagram} (hd : d ∈ s.toRight)
    {o : Outcomes} (hsound : SoundStep ep srv (some d) o) :
    ∃ srv' sent, srv.receive (.received ep d o) = some (srv', sent) ∧
      (srv'.Unopened ep ∨ Holding ep mode name srv') ∧
      (Holding ep mode name srv → Holding ep mode name srv') ∧
      ∀ d ∈ sentTo ep sent, IsError d ∨ Holding ep mode name srv' ∧ ∃ w, d = ackMessage w := by
  by_cases hheld : Holding ep mode name srv
  · have hgo : ∃ srv' sent, srv.receive (.received ep d o) = some (srv', sent) ∧
        Holding ep mode name srv' ∧ ∀ d ∈ sentTo ep sent, IsError d ∨ ∃ w, d = ackMessage w := by
      rcases h.toRight d hd with rfl | ⟨-, w, bytes, hb, rfl⟩
      · exact hheld.receive_wrq hname hsound
      · obtain ⟨srv', sent, hr, hheld', hsent⟩ := hheld.receive_data hb o
        refine ⟨srv', sent, hr, hheld', fun e he => ?_⟩
        rcases hsent with hsent | rfl
        · exact .inl (hsent.sentTo e he)
        · rw [sentTo_singleton] at he
          exact .inr ⟨w, List.mem_singleton.mp he⟩
    obtain ⟨srv', sent, hr, hheld', hsent⟩ := hgo
    refine ⟨srv', sent, hr, .inr hheld', fun _ => hheld', fun e he => ?_⟩
    exact (hsent e he).imp_right fun hack => ⟨hheld', hack⟩
  · have hs := h.server.resolve_right hheld
    obtain rfl := (h.toRight d hd).resolve_right fun hc => hheld hc.1
    obtain ⟨srv', sent, hr, ⟨hs', hsent⟩ | ⟨hheld', hsent⟩⟩ := unopened_receive_wrq hs hname hsound
    · exact ⟨srv', sent, hr, .inl hs', fun hc => absurd hc hheld,
        fun e he => .inl (hsent.sentTo e he)⟩
    · exact ⟨srv', sent, hr, .inr hheld', fun _ => hheld',
        fun e he => .inr ⟨hheld', 0, hsent e he⟩⟩

theorem PutInv.server_step {s : Net (Call PutFile) (Option TFTPServer) Datagram}
    (h : PutInv ep mode name srv s) (hname : ValidName name) {i : Option Datagram}
    {right : Option TFTPServer} {out : List Datagram} {n : ℕ} (hi : ∀ d ∈ i, d ∈ s.toRight)
    (hr : serverReaction ep (SoundStep ep) s.right i right out) :
    ∃ srv', PutInv ep mode name srv'
      { s with right := right, toLeft := s.toLeft ++ out, handed := n } := by
  rw [h.right] at hr
  cases i with
  | none =>
    obtain ⟨rfl, rfl⟩ := serverReaction_failed hr
    exact ⟨srv, rfl, h.server, h.call, h.toRight, by simpa using h.toLeft⟩
  | some d =>
    obtain ⟨o, hsound, hgo⟩ := serverReaction_received hr
    obtain ⟨srv', sent, hrec, hserver, hkeep, hsent⟩ := h.receive hname (hi d rfl) hsound
    obtain ⟨rfl, rfl⟩ := hgo _ _ hrec
    refine ⟨srv', rfl, hserver, h.call.mono hkeep, fun e he => ?_, fun e he => ?_⟩
    · exact (h.toRight e he).imp_right fun hc => ⟨hkeep hc.1, hc.2⟩
    · rcases List.mem_append.mp he with he | he
      · exact (h.toLeft e he).imp_right fun hc => ⟨hkeep hc.1, hc.2⟩
      · exact hsent e he

theorem sound_request {s : TFTPSessionWrite} {fs : FileSystem} {o : Outcomes} {data : Buffer}
    {n : ℕ} (hlive : s.state ≠ .finished) (hout : s.outFile.file = none) (hn : n ≤ bufferSize)
    (hw : data.word 0 = MessageType.wrq.code)
    (hreq : data.request = some (.accepted name mode)) (hopen : o.openOk = true) :
    Sound s fs ⟨o, data, n, 0⟩ := by
  refine ⟨hlive, hn, fun _ => ⟨by rw [hreq]; rfl, fun name mode _ => ?_⟩, fun hd => ?_⟩
  · rw [if_pos hout]
    exact fun _ => hopen
  · rw [hw] at hd
    exact absurd hd (by decide)

theorem sound_block {s : TFTPSessionWrite} {fs : FileSystem} {o : Outcomes} {data : Buffer} {n : ℕ}
    (hlive : s.state ≠ .finished) (hout : s.outFile.file ≠ none) (hmin : 4 ≤ n)
    (hmax : n ≤ bufferSize) (hw : data.word 0 = MessageType.data.code)
    (hn : data.word 2 = s.blockCounter + 1) : Sound s fs ⟨o, data, n, 0⟩ := by
  refine ⟨hlive, hmax, fun hc => ?_, fun _ => ⟨hout, hn, hmin, fun _ => rfl⟩⟩
  rw [hw] at hc
  exact absurd hc (by decide)

theorem soundStep_request (hnone : srv.sessions ep = none) (hname : ValidName name) {o : Outcomes}
    (hopen : o.openOk = true) : SoundStep ep srv (some (requestMessage .wrq name mode)) o := by
  intro d hd s hs _
  obtain rfl := Option.mem_some_iff.mp hd
  rcases hs with hs | ⟨-, rfl⟩
  · rw [hnone] at hs
    cases hs
  · have hd := srv.requests_requestMessage .wrq mode hname
    exact sound_request (by simp) rfl (Nat.min_le_right _ _) hd.1 hd.2 hopen

theorem soundStep_block {p : Path} {k : ℕ} {content bytes : Bytes}
    (h : srv.Uploading ep mode p k content) (hb : bytes.length ≤ 512) (o : Outcomes) :
    SoundStep ep srv (some (dataMessage (UInt16.ofNat (k + 1)) bytes)) o := by
  obtain ⟨t, ht, -, hact, -, hcount, hout, -⟩ := h
  intro d hd s hs _
  obtain rfl := Option.mem_some_iff.mp hd
  rcases hs with hs | ⟨hnone, -⟩
  · rw [ht] at hs
    obtain rfl := Session.write.inj (Option.some.inj hs)
    refine sound_block (by simp [hact]) (by simp [hout]) ?_ (Nat.min_le_right _ _)
      (srv.recvBuffer.word_zero_dataMessage hb) ?_
    · rw [dataMessage_length, bufferSize]
      omega
    · rw [srv.recvBuffer.word_two_dataMessage hb, hcount, Bytes.ofNat_succ]
  · rw [ht] at hnone
    cases hnone

theorem put_one_block (ep : Endpoint) (srv : TFTPServer) (c : TFTPClient) {src file : Bytes}
    (hname : ValidName name) (hsrc : c.files.lookup src = some file)
    (hlast : payloads c.transferMode file = 1)
    (hfree : srv.files.lookup (srv.files.filePath name) = none)
    (hnone : srv.sessions ep = none) :
    ∃ t c', Relation.ReflTransGen (PutStep ep) (start (c.putFile {} src name) srv) t ∧
      t.left = .returned true c' := by
  obtain ⟨t, c', hrun, -, hret⟩ := LossyPut.put_one_block ep srv c (SoundStep ep) hname hsrc hlast
    hfree hnone (soundStep_request hnone hname rfl)
    (fun srv' hup bytes hb => soundStep_block hup hb {})
  exact ⟨t, c', hrun, hret⟩

end AcknowledgedBlock
end Tftp
end NetworkProtocols
