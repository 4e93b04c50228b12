import NetworkProtocols.Tftp.Handlers
import NetworkProtocols.Tftp.Transfer

/-!
# An upload as the server runs it

The server before the first granted request, while it stores blocks, and with a session
that cannot write, and what each datagram of a client makes of it.
-/

namespace NetworkProtocols
namespace Tftp

namespace TFTPServer

open TFTPSessionWrite

variable {srv : TFTPServer} {ep : Endpoint} {s : TFTPSessionWrite} {w : UInt16} {bytes : Bytes}
variable {name : Bytes} {mode : TransferMode} {d : Datagram}

/-- The session after a block was stored; it is erased once it is finished. -/
def afterBlock (s : TFTPSessionWrite) (fs : FileSystem) (o : Outcomes) (bytes : Bytes) :
    Option Session :=
  if o.sendOk = true ∧ bytes.length < 512 then none
  else some (.write { s with
    blockCounter := s.blockCounter + 1
    outFile := (storePayload fs s.transferMode s.outFile bytes).1 })

theorem receive_data_expected (hs : srv.sessions ep = some (.write s)) (hep : s.ep = ep)
    (hact : s.state = .active) (hb : bytes.length ≤ 512) (hw : w = s.blockCounter + 1)
    (o : Outcomes) :
    srv.receive (.received ep (dataMessage w bytes) o) =
      some ({ sessions := Function.update srv.sessions ep (afterBlock s srv.files o bytes)
              recvBuffer := srv.recvBuffer.fill (dataMessage w bytes)
              files := (storePayload srv.files s.transferMode s.outFile bytes).2 },
        if o.sendOk then [(ep, ackMessage w)] else []) := by
  have hlen : (dataMessage w bytes).length ≤ bufferSize := by
    rw [dataMessage_length, bufferSize]
    omega
  have hsize : sizeSub (dataMessage w bytes).length 4 = bytes.length := by
    rw [sizeSub_of_le (by rw [dataMessage_length]; omega) hlen, dataMessage_length,
      Nat.add_sub_cancel_left]
  have hgo : s.onDataReceived srv.files o (srv.recvBuffer.fill (dataMessage w bytes))
      (dataMessage w bytes).length = _ :=
    onDataReceived_expected (srv.recvBuffer.word_zero_dataMessage hb)
      (by rw [srv.recvBuffer.word_two_dataMessage hb, hw])
      (by rw [hsize]; exact srv.recvBuffer.slice_dataMessage hb)
  rw [storeAndAcknowledge_eq] at hgo
  rw [receive_stored hs (by rw [Nat.min_eq_left hlen, Session.onDataReceived, hgo]; rfl)]
  simp only [afterBlock, sendAcknowledge, TFTPSession.send, hep, ← hw]
  split <;> simp [Session.getState, Session.base, hact]

theorem receive_data_unexpected (hs : srv.sessions ep = some (.write s)) (hep : s.ep = ep)
    (hact : s.state = .active) (hb : bytes.length ≤ 512) (hw : w ≠ s.blockCounter + 1)
    (o : Outcomes) :
    srv.receive (.received ep (dataMessage w bytes) o) =
      some ({ sessions := Function.update srv.sessions ep
                (some (.write { s with blockCounter := s.blockCounter + 1 }))
              recvBuffer := srv.recvBuffer.fill (dataMessage w bytes)
              files := srv.files },
        if o.sendOk then [(ep, errorMessage .unknownTransferId [])] else []) := by
  have hlen : (dataMessage w bytes).length ≤ bufferSize := by
    rw [dataMessage_length, bufferSize]
    omega
  have hgo : s.onDataReceived srv.files o (srv.recvBuffer.fill (dataMessage w bytes))
      (dataMessage w bytes).length = _ :=
    onDataReceived_unexpected (srv.recvBuffer.word_zero_dataMessage hb)
      (by rwa [srv.recvBuffer.word_two_dataMessage hb])
  rw [receive_stored hs (by rw [Nat.min_eq_left hlen, Session.onDataReceived, hgo]; rfl)]
  simp [Session.getState, Session.base, hact, TFTPSession.sendErrorMessage, TFTPSession.send, hep]

theorem receive_data_none (hs : srv.sessions ep = none) (hb : bytes.length ≤ 512) (o : Outcomes) :
    srv.receive (.received ep (dataMessage w bytes) o) =
      some ({ srv with recvBuffer := srv.recvBuffer.fill (dataMessage w bytes) },
        if o.sendOk then [(ep, errorMessage .illegalOperation [])] else []) := by
  have hnew : newSession ep ((srv.recvBuffer.fill (dataMessage w bytes)).word 0) = none := by
    rw [Buffer.word_zero_dataMessage _ hb]
    rfl
  rw [receive_illegal hs hnew]
  rfl

/-- The session of the endpoint, or the one that a WRQ creates for it. -/
def writeSession (srv : TFTPServer) (ep : Endpoint) (s : TFTPSessionWrite) : Prop :=
  srv.sessions ep = some (.write s) ∨ (srv.sessions ep = none ∧ s = { ep := ep })

theorem receive_wrq (hs : srv.writeSession ep s) (hd : srv.Requests .wrq d name mode) (o : Outcomes)
    {s' : TFTPSessionWrite} {fs : FileSystem} {sent : List Packet} (hact : s'.state = .active)
    (hgo : checkAndOpen { s with state := .active, transferMode := mode } srv.files o name =
      (s', fs, sent)) :
    srv.receive (.received ep d o) =
      some ({ sessions := Function.update srv.sessions ep (some (.write s'))
              recvBuffer := srv.recvBuffer.fill d
              files := fs }, sent) := by
  obtain ⟨hw, hreq⟩ := hd
  have hdata : s.onDataReceived srv.files o _ (min d.length bufferSize) = _ :=
    onDataReceived_request hw hreq
  rw [hgo] at hdata
  rcases hs with hs | ⟨hnone, rfl⟩
  · rw [receive_stored hs (Session.onDataReceived_write hdata)]
    simp [Session.getState, Session.base, hact]
  · exact receive_new hnone (by rw [hw]; rfl) (Session.onDataReceived_write hdata)

/-- The endpoint has an active upload whose counter is `k` and whose file, open and
without an error, holds `content`. -/
def Uploading (srv : TFTPServer) (ep : Endpoint) (mode : TransferMode) (p : Path) (k : ℕ)
    (content : Bytes) : Prop :=
  ∃ s : TFTPSessionWrite, srv.sessions ep = some (.write s) ∧ s.ep = ep ∧ s.state = .active ∧
    s.transferMode = mode ∧ s.blockCounter = UInt16.ofNat k ∧ s.outFile = { file := some p } ∧
    srv.files.content p = some content

variable {p : Path} {k : ℕ} {content : Bytes}

theorem receive_wrq_refused (hs : srv.writeSession ep s) (hep : s.ep = ep)
    (hd : srv.Requests .wrq d name mode) {o : Outcomes} (hfail : ¬ ChecksPass srv.files o name) :
    ∃ srv' sent, srv.receive (.received ep d o) = some (srv', sent) ∧
      srv'.sessions ep = some (.write { s with state := .active, transferMode := mode }) ∧
      srv'.files = srv.files ∧ AtMostError ep sent := by
  have hgo := checkAndOpen_refuse (s := { s with state := .active, transferMode := mode }) hfail
  exact ⟨_, _, receive_wrq hs hd o rfl hgo, Function.update_self _ _ _, rfl,
    hep ▸ atMostError_refusal _ _ _⟩

/-- The endpoint has no session, or one whose requests were all refused. -/
def Unopened (srv : TFTPServer) (ep : Endpoint) : Prop :=
  ∃ s : TFTPSessionWrite, srv.writeSession ep s ∧ s.ep = ep ∧ s.blockCounter = 0 ∧
    s.outFile.file = none

theorem unopened_of_none (h : srv.sessions ep = none) : srv.Unopened ep :=
  ⟨{ ep := ep }, .inr ⟨h, rfl⟩, rfl, rfl, rfl⟩

theorem receive_wrq_granted (hs : srv.writeSession ep s) (hep : s.ep = ep)
    (hout : s.outFile.file = none) (hd : srv.Requests .wrq d name mode) {o : Outcomes}
    (hpass : ChecksPass srv.files o name) (hopen : o.openOk = true) (k : ℕ)
    (hcount : s.blockCounter = UInt16.ofNat k) :
    ∃ srv', srv.receive (.received ep d o) =
        some (srv', if o.sendOk then [(ep, ackMessage s.blockCounter)] else []) ∧
      srv'.Uploading ep mode (srv.files.denotes name) k [] ∧
      srv'.files = srv.files.create (srv.files.denotes name) := by
  have hgo := checkAndOpen_pass (s := { s with state := .active, transferMode := mode }) hpass
  rw [hopen, OfStream.openFile_granted name hout, sendAcknowledge, TFTPSession.send] at hgo
  subst hep
  refine ⟨_, receive_wrq hs hd o rfl hgo, ?_, rfl⟩
  refine ⟨_, Function.update_self _ _ _, rfl, rfl, rfl, hcount, rfl, ?_⟩
  exact FileSystem.create_content_self _ _

theorem Unopened.receive_granted (h : srv.Unopened ep) (hd : srv.Requests .wrq d name mode)
    {o : Outcomes} (hpass : ChecksPass srv.files o name) (hopen : o.openOk = true) :
    ∃ srv', srv.receive (.received ep d o) =
        some (srv', if o.sendOk then [(ep, ackMessage 0)] else []) ∧
      srv'.Uploading ep mode (srv.files.denotes name) 0 [] ∧
      srv'.files = srv.files.create (srv.files.denotes name) := by
  obtain ⟨s, hs, hep, hcount, hout⟩ := h
  have hgo := receive_wrq_granted hs hep hout hd hpass hopen 0 hcount
  rwa [hcount] at hgo

theorem Unopened.receive_refused (h : srv.Unopened ep) (hd : srv.Requests .wrq d name mode)
    {o : Outcomes} (hfail : ¬ ChecksPass srv.files o name) :
    ∃ srv' sent, srv.receive (.received ep d o) = some (srv', sent) ∧
      srv'.Unopened ep ∧ srv'.files = srv.files ∧ AtMostError ep sent := by
  obtain ⟨s, hs, hep, hcount, hout⟩ := h
  obtain ⟨srv', sent, hr, hs', hfiles, hsent⟩ :=
    receive_wrq_refused hs hep hd hfail
  exact ⟨srv', sent, hr, ⟨_, .inl hs', hep, hcount, hout⟩, hfiles, hsent⟩

/-- The endpoint has no session, or an upload that cannot write. -/
def Idle (srv : TFTPServer) (ep : Endpoint) : Prop :=
  srv.sessions ep = none ∨ ∃ s : TFTPSessionWrite, srv.sessions ep = some (.write s) ∧
    s.ep = ep ∧ s.state = .active ∧ (s.outFile.fail = true ∨ s.outFile.file = none)

/-- The endpoint has an upload whose counter is `k` and that cannot write. -/
def Stuck (srv : TFTPServer) (ep : Endpoint) (k : ℕ) : Prop :=
  ∃ s : TFTPSessionWrite, srv.sessions ep = some (.write s) ∧ s.ep = ep ∧ s.state = .active ∧
    s.blockCounter = UInt16.ofNat k ∧ (s.outFile.fail = true ∨ s.outFile.file = none)

/-- A request whose checks pass is acknowledged although its file could not be opened. -/
theorem receive_wrq_unopenable (hs : srv.writeSession ep s) (hep : s.ep = ep)
    (hd : srv.Requests .wrq d name mode) {o : Outcomes} (hpass : ChecksPass srv.files o name)
    (hopen : s.outFile.file.isSome = true ∨ o.openOk = false) (k : ℕ)
    (hcount : s.blockCounter = UInt16.ofNat k) :
    ∃ srv', srv.receive (.received ep d o) =
        some (srv', if o.sendOk then [(ep, ackMessage s.blockCounter)] else []) ∧
      srv'.Stuck ep k ∧ srv'.files = srv.files := by
  have hgo := checkAndOpen_pass (s := { s with state := .active, transferMode := mode }) hpass
  rw [OfStream.openFile_refused hopen, sendAcknowledge, TFTPSession.send] at hgo
  subst hep
  exact ⟨_, receive_wrq hs hd o rfl hgo,
    ⟨_, Function.update_self _ _ _, rfl, rfl, hcount, .inl rfl⟩, rfl⟩

theorem Uploading.receive_granted (h : srv.Uploading ep mode p k content)
    (hd : srv.Requests .wrq d name mode) {o : Outcomes} (hpass : ChecksPass srv.files o name) :
    ∃ srv', srv.receive (.received ep d o) =
        some (srv', if o.sendOk then [(ep, ackMessage (UInt16.ofNat k))] else []) ∧
      srv'.Stuck ep k ∧ srv'.files = srv.files := by
  obtain ⟨s, hs, hep, -, -, hcount, hout, -⟩ := h
  have hgo := receive_wrq_unopenable (.inl hs) hep hd hpass (.inl (by rw [hout]; rfl)) k hcount
  rwa [hcount] at hgo

theorem Stuck.receive_expected (h : srv.Stuck ep k) (hb : bytes.length ≤ 512) (o : Outcomes) :
    ∃ srv', srv.receive (.received ep (dataMessage (UInt16.ofNat (k + 1)) bytes) o) =
        some (srv', if o.sendOk then [(ep, ackMessage (UInt16.ofNat (k + 1)))] else []) ∧
      srv'.files = srv.files ∧
      if o.sendOk = true ∧ bytes.length < 512 then srv'.sessions ep = none
      else srv'.Stuck ep (k + 1) := by
  obtain ⟨s, hs, hep, hact, hcount, hout⟩ := h
  have hw : UInt16.ofNat (k + 1) = s.blockCounter + 1 := by rw [hcount, Bytes.ofNat_succ]
  obtain ⟨hfiles, -, huseless⟩ := storePayload_useless srv.files s.transferMode s.outFile hout bytes
  refine ⟨_, receive_data_expected hs hep hact hb hw o, hfiles, ?_⟩
  split
  · rename_i hdone
    exact (Function.update_self _ _ _).trans (if_pos hdone)
  · rename_i hmore
    exact ⟨_, (Function.update_self _ _ _).trans (if_neg hmore), hep, hact, hw.symm, huseless⟩

/-- The awaited block is appended to the file. -/
theorem Uploading.receive_expected (h : srv.Uploading ep mode p k content)
    (hb : bytes.length ≤ 512) (o : Outcomes) :
    ∃ srv', srv.receive (.received ep (dataMessage (UInt16.ofNat (k + 1)) bytes) o) =
        some (srv', if o.sendOk then [(ep, ackMessage (UInt16.ofNat (k + 1)))] else []) ∧
      srv'.files = srv.files.append p (decode mode bytes) ∧
      srv'.files.content p = some (content ++ decode mode bytes) ∧
      if o.sendOk = true ∧ bytes.length < 512 then srv'.sessions ep = none
      else srv'.Uploading ep mode p (k + 1) (content ++ decode mode bytes) := by
  obtain ⟨s, hs, hep, hact, hmode, hcount, hout, hcontent⟩ := h
  have hw : UInt16.ofNat (k + 1) = s.blockCounter + 1 := by rw [hcount, Bytes.ofNat_succ]
  have hstore := storePayload_open srv.files s.transferMode s.outFile (by rw [hout])
    (by rw [hout] : s.outFile.file = some p) bytes
  have hfile : (srv.files.append p (decode mode bytes)).content p =
      some (content ++ decode mode bytes) := by simp [hcontent]
  refine ⟨_, receive_data_expected hs hep hact hb hw o, by rw [hstore, hmode], ?_, ?_⟩
  · rw [hstore, hmode]
    exact hfile
  · split
    · rename_i hshort
      simp [afterBlock, hshort]
    · rename_i hlong
      have hsess : afterBlock s srv.files o bytes = some (.write { s with
          blockCounter := s.blockCounter + 1
          outFile := (storePayload srv.files s.transferMode s.outFile bytes).1 }) := by
        rw [afterBlock, if_neg hlong]
      refine ⟨_, (Function.update_self _ _ _).trans hsess, hep, hact, hmode, hw.symm, ?_, ?_⟩
      · rw [hstore, hout]
      · rw [hstore, hmode]
        exact hfile

theorem Uploading.receive_unexpected (h : srv.Uploading ep mode p k content)
    (hb : bytes.length ≤ 512) (hw : w ≠ UInt16.ofNat (k + 1)) (o : Outcomes) :
    ∃ srv', srv.receive (.received ep (dataMessage w bytes) o) =
        some (srv', if o.sendOk then [(ep, errorMessage .unknownTransferId [])] else []) ∧
      srv'.Uploading ep mode p (k + 1) content ∧ srv'.files = srv.files := by
  obtain ⟨s, hs, hep, hact, hmode, hcount, hout, hcontent⟩ := h
  rw [Bytes.ofNat_succ, ← hcount] at hw
  refine ⟨_, receive_data_unexpected hs hep hact hb hw o, ?_, rfl⟩
  refine ⟨_, Function.update_self _ _ _, hep, hact, hmode, ?_, hout, hcontent⟩
  rw [hcount, Bytes.ofNat_succ]

theorem Uploading.receive_again (h : srv.Uploading ep mode p k content)
    (hd : srv.Requests .wrq d name mode) {o : Outcomes} (hfail : ¬ ChecksPass srv.files o name) :
    ∃ srv' sent, srv.receive (.received ep d o) = some (srv', sent) ∧
      srv'.Uploading ep mode p k content ∧ srv'.files = srv.files ∧ AtMostError ep sent := by
  obtain ⟨s, hs, hep, hact, hmode, hcount, hout, hcontent⟩ := h
  obtain ⟨srv', sent, hr, hs', hfiles, hsent⟩ :=
    receive_wrq_refused (.inl hs) hep hd hfail
  exact ⟨srv', sent, hr, ⟨_, hs', hep, rfl, rfl, hcount, hout, by rw [hfiles, hcontent]⟩, hfiles,
    hsent⟩

theorem GrantsNew.refuses {o : Outcomes} (h : srv.GrantsNew d o)
    (hd : srv.Requests .wrq d name mode) {bytes : Bytes}
    (hfile : srv.files.lookup name = some bytes) : ¬ ChecksPass srv.files o name := by
  intro hpass
  rw [h name mode hd.1 hd.2 hpass] at hfile
  cases hfile

/-- An idle session may acknowledge a block but changes no file. -/
theorem Idle.receive_data (h : srv.Idle ep) (hb : bytes.length ≤ 512) (o : Outcomes) :
    ∃ srv' sent, srv.receive (.received ep (dataMessage w bytes) o) = some (srv', sent) ∧
      srv'.Idle ep ∧ srv'.files = srv.files ∧
      (AtMostError ep sent ∨ sent = [(ep, ackMessage w)]) := by
  rcases h with hnone | ⟨s, hs, hep, hact, hout⟩
  · refine ⟨_, _, receive_data_none hnone hb o, .inl hnone, rfl, .inl ?_⟩
    exact atMostError_send { ep := ep } o .illegalOperation
  by_cases hw : w = s.blockCounter + 1
  · obtain ⟨hfiles, hclosed⟩ := storePayload_useless srv.files s.transferMode s.outFile
      hout bytes
    refine ⟨_, _, receive_data_expected hs hep hact hb hw o, ?_, hfiles, ?_⟩
    · by_cases hdone : o.sendOk = true ∧ bytes.length < 512
      · exact .inl ((Function.update_self _ _ _).trans (if_pos hdone))
      · exact .inr ⟨_, (Function.update_self _ _ _).trans (if_neg hdone), hep, hact,
          hclosed.2⟩
    · cases o.sendOk with
      | false => exact .inl (.inl rfl)
      | true => exact .inr rfl
  · refine ⟨_, _, receive_data_unexpected hs hep hact hb hw o, ?_, rfl, .inl ?_⟩
    · exact .inr ⟨_, Function.update_self _ _ _, hep, hact, hout⟩
    · exact atMostError_send { ep := ep } o .unknownTransferId

theorem Idle.receive_refused (h : srv.Idle ep) (hd : srv.Requests .wrq d name mode) {o : Outcomes}
    (hfail : ¬ ChecksPass srv.files o name) :
    ∃ srv' sent, srv.receive (.received ep d o) = some (srv', sent) ∧
      srv'.Idle ep ∧ srv'.files = srv.files ∧ AtMostError ep sent := by
  have hsession : ∃ s, srv.writeSession ep s ∧ s.ep = ep ∧
      (s.outFile.fail = true ∨ s.outFile.file = none) := by
    rcases h with hnone | ⟨s, hs, hep, -, hout⟩
    · exact ⟨{ ep := ep }, .inr ⟨hnone, rfl⟩, rfl, .inr rfl⟩
    · exact ⟨s, .inl hs, hep, hout⟩
  obtain ⟨s, hs, hep, hout⟩ := hsession
  obtain ⟨srv', sent, hr, hs', hfiles, hsent⟩ :=
    receive_wrq_refused hs hep hd hfail
  exact ⟨srv', sent, hr, .inr ⟨_, hs', hep, rfl, hout⟩, hfiles, hsent⟩

end TFTPServer

end Tftp
end NetworkProtocols
