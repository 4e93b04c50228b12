import NetworkProtocols.Tftp.Server

/-!
# The branches of the two handlers

One lemma for each way through `TFTPSessionRead::onDataReceived` and
`TFTPSessionWrite::onDataReceived`; the results about sessions are derived from these.
-/

namespace NetworkProtocols
namespace Tftp

namespace TFTPSessionRead

variable {fs : FileSystem} {o : Outcomes} {s : TFTPSessionRead} {name : Bytes}
variable {mode : TransferMode} {data : Buffer} {n : ℕ}

theorem onDataReceived_request (hw : data.word 0 = MessageType.rrq.code)
    (hreq : data.request = some (.accepted name mode)) :
    s.onDataReceived fs o data n =
      some (openAndSend { s with state := .active, transferMode := mode } fs o name) := by
  simp [onDataReceived, hw, hreq]

theorem onDataReceived_unterminated (hw : data.word 0 = MessageType.rrq.code)
    (hreq : data.request = none) : s.onDataReceived fs o data n = none := by
  simp [onDataReceived, hw, hreq]

theorem onDataReceived_malformed (hw : data.word 0 = MessageType.rrq.code)
    (hreq : data.request = some .noFilename ∨ data.request = some .invalidMode) :
    s.onDataReceived fs o data n = some ({ s with state := .active }, []) := by
  rcases hreq with hreq | hreq <;> simp [onDataReceived, hw, hreq]

theorem onDataReceived_ack (hw : data.word 0 = MessageType.ack.code)
    (hn : data.word 2 = s.blockCounter) (hmore : s.readComplete = false) :
    s.onDataReceived fs o data n = some (s.sendBlockOfData fs o) := by
  have hne : ¬ MessageType.ack.code = MessageType.rrq.code := by decide
  simp [onDataReceived, hw, hn, hne, hmore]

theorem onDataReceived_last_ack (hw : data.word 0 = MessageType.ack.code)
    (hn : data.word 2 = s.blockCounter) (hend : s.readComplete = true) :
    s.onDataReceived fs o data n =
      some ({ s with inFile := s.inFile.close, state := .finished }, []) := by
  have hne : ¬ MessageType.ack.code = MessageType.rrq.code := by decide
  simp [onDataReceived, hw, hn, hne, hend]

theorem onDataReceived_other_ack (hw : data.word 0 = MessageType.ack.code)
    (hn : data.word 2 ≠ s.blockCounter) :
    s.onDataReceived fs o data n = some (s, s.sendErrorMessage o .unknownTransferId []) := by
  have hne : ¬ MessageType.ack.code = MessageType.rrq.code := by decide
  simp [onDataReceived, hw, hn, hne]

theorem onDataReceived_other (h1 : data.word 0 ≠ MessageType.rrq.code)
    (h2 : data.word 0 ≠ MessageType.ack.code) :
    s.onDataReceived fs o data n = some (s, []) := by
  simp [onDataReceived, h1, h2]

/-- What a datagram makes of a download and what is sent, by the branch that it takes. -/
inductive Branch (s : TFTPSessionRead) (fs : FileSystem) (o : Outcomes) (data : Buffer) :
    TFTPSessionRead × List Packet → Prop
  | request {name : Bytes} {mode : TransferMode} : data.word 0 = MessageType.rrq.code →
      data.request = some (.accepted name mode) →
      Branch s fs o data (openAndSend { s with state := .active, transferMode := mode } fs o name)
  | malformed : Branch s fs o data ({ s with state := .active }, [])
  | next : data.word 0 = MessageType.ack.code → data.word 2 = s.blockCounter →
      s.readComplete = false → Branch s fs o data (s.sendBlockOfData fs o)
  | finish : data.word 0 = MessageType.ack.code → data.word 2 = s.blockCounter →
      s.readComplete = true →
      Branch s fs o data ({ s with inFile := s.inFile.close, state := .finished }, [])
  | mismatch : data.word 0 = MessageType.ack.code → data.word 2 ≠ s.blockCounter →
      Branch s fs o data (s, s.sendErrorMessage o .unknownTransferId [])
  | ignored : Branch s fs o data (s, [])

theorem branch_of_received {r : TFTPSessionRead × List Packet}
    (h : s.onDataReceived fs o data n = some r) : s.Branch fs o data r := by
  by_cases hw : data.word 0 = MessageType.rrq.code
  · cases hreq : data.request with
    | none =>
      rw [onDataReceived_unterminated hw hreq] at h
      cases h
    | some q =>
      cases q with
      | noFilename =>
        rw [onDataReceived_malformed hw (.inl hreq)] at h
        cases h
        exact .malformed
      | invalidMode =>
        rw [onDataReceived_malformed hw (.inr hreq)] at h
        cases h
        exact .malformed
      | accepted name mode =>
        rw [onDataReceived_request hw hreq] at h
        cases h
        exact .request hw hreq
  by_cases ha : data.word 0 = MessageType.ack.code
  · by_cases hn : data.word 2 = s.blockCounter
    · cases hend : s.readComplete with
      | true =>
        rw [onDataReceived_last_ack ha hn hend] at h
        cases h
        exact .finish ha hn hend
      | false =>
        rw [onDataReceived_ack ha hn hend] at h
        cases h
        exact .next ha hn hend
    · rw [onDataReceived_other_ack ha hn] at h
      cases h
      exact .mismatch ha hn
  · rw [onDataReceived_other hw ha] at h
    cases h
    exact .ignored

end TFTPSessionRead

namespace TFTPSessionWrite

/-- The checks of the WRQ branch pass: no query fails, the path that is looked up does not exist
and the current directory is writable by others. -/
def ChecksPass (fs : FileSystem) (o : Outcomes) (filename : Bytes) : Prop :=
  o.currentPathErr = false ∧ o.existsErr = false ∧ fs.lookup (fs.filePath filename) = none ∧
    o.statusErr = false ∧ o.othersWrite = true

instance (fs : FileSystem) (o : Outcomes) (filename : Bytes) :
    Decidable (ChecksPass fs o filename) := by
  unfold ChecksPass
  infer_instance

/-- A WRQ that passes the checks asks for a file that does not exist. -/
def GrantsNew (fs : FileSystem) (o : Outcomes) (data : Buffer) : Prop :=
  ∀ name mode, data.word 0 = MessageType.wrq.code → data.request = some (.accepted name mode) →
    ChecksPass fs o name → fs.lookup name = none

variable {fs : FileSystem} {o : Outcomes} {s : TFTPSessionWrite} {name : Bytes}
variable {mode : TransferMode} {data : Buffer} {n : ℕ}

theorem checkAndOpen_pass (h : ChecksPass fs o name) :
    s.checkAndOpen fs o name =
      ({ s with outFile := (s.outFile.openFile fs name o.openOk).1 },
        (s.outFile.openFile fs name o.openOk).2, s.sendAcknowledge o) := by
  obtain ⟨h1, h2, h3, h4, h5⟩ := h
  simp only [checkAndOpen, h1, h2, h3, h4, h5]
  rfl

/-- The answer to a request that a check refuses. -/
def refusal (s : TFTPSessionWrite) (o : Outcomes) (fileExists : Bool) : List Packet :=
  if o.currentPathErr || o.existsErr then []
  else if fileExists then s.sendErrorMessage o .fileAlreadyExists []
  else if o.statusErr then []
  else s.sendErrorMessage o .accessViolation []

theorem atMostError_refusal (s : TFTPSessionWrite) (o : Outcomes) (fileExists : Bool) :
    AtMostError s.ep (s.refusal o fileExists) := by
  unfold refusal
  split
  · exact .inl rfl
  split
  · exact atMostError_send _ o .fileAlreadyExists
  split
  · exact .inl rfl
  · exact atMostError_send _ o .accessViolation

theorem checkAndOpen_refuse (h : ¬ ChecksPass fs o name) :
    s.checkAndOpen fs o name = (s, fs, s.refusal o (fs.lookup (fs.filePath name)).isSome) := by
  unfold checkAndOpen refusal
  by_cases h1 : o.currentPathErr = true
  · simp [h1]
  by_cases h2 : o.existsErr = true
  · simp [h1, h2]
  by_cases h3 : (fs.lookup (fs.filePath name)).isSome = true
  · simp [h1, h2, h3]
  by_cases h4 : o.statusErr = true
  · simp [h1, h2, h3, h4]
  by_cases h5 : o.othersWrite = true
  · exact absurd ⟨by simpa using h1, by simpa using h2, by simpa using h3, by simpa using h4, h5⟩ h
  · simp [h1, h2, h3, h4, h5]

theorem onDataReceived_request (hw : data.word 0 = MessageType.wrq.code)
    (hreq : data.request = some (.accepted name mode)) :
    s.onDataReceived fs o data n =
      some (checkAndOpen { s with state := .active, transferMode := mode } fs o name) := by
  simp [onDataReceived, hw, hreq]

theorem onDataReceived_unterminated (hw : data.word 0 = MessageType.wrq.code)
    (hreq : data.request = none) : s.onDataReceived fs o data n = none := by
  simp [onDataReceived, hw, hreq]

theorem onDataReceived_malformed (hw : data.word 0 = MessageType.wrq.code)
    (hreq : data.request = some .noFilename ∨ data.request = some .invalidMode) :
    s.onDataReceived fs o data n = some ({ s with state := .active }, fs, []) := by
  rcases hreq with hreq | hreq <;> simp [onDataReceived, hw, hreq]

theorem onDataReceived_expected (hw : data.word 0 = MessageType.data.code)
    (hn : data.word 2 = s.blockCounter + 1) {bytes : Bytes}
    (hb : data.slice 4 (sizeSub n 4) = some bytes) :
    s.onDataReceived fs o data n =
      some (storeAndAcknowledge { s with blockCounter := s.blockCounter + 1 } fs o bytes) := by
  have hne : ¬ MessageType.data.code = MessageType.wrq.code := by decide
  simp [onDataReceived, hw, hn, hne, hb]

theorem onDataReceived_overrun (hw : data.word 0 = MessageType.data.code)
    (hn : data.word 2 = s.blockCounter + 1) (hb : data.slice 4 (sizeSub n 4) = none) :
    s.onDataReceived fs o data n = none := by
  have hne : ¬ MessageType.data.code = MessageType.wrq.code := by decide
  simp [onDataReceived, hw, hn, hne, hb]

theorem onDataReceived_unexpected (hw : data.word 0 = MessageType.data.code)
    (hn : data.word 2 ≠ s.blockCounter + 1) :
    s.onDataReceived fs o data n =
      some ({ s with blockCounter := s.blockCounter + 1 }, fs,
        s.sendErrorMessage o .unknownTransferId []) := by
  have hne : ¬ MessageType.data.code = MessageType.wrq.code := by decide
  simp only [onDataReceived, hw, if_neg hne, if_true, hn, ne_eq, not_false_eq_true]
  rfl

theorem onDataReceived_other (h1 : data.word 0 ≠ MessageType.wrq.code)
    (h2 : data.word 0 ≠ MessageType.data.code) :
    s.onDataReceived fs o data n = some (s, fs, []) := by
  simp [onDataReceived, h1, h2]

theorem storeAndAcknowledge_eq (fs : FileSystem) (o : Outcomes) (bytes : Bytes) :
    s.storeAndAcknowledge fs o bytes =
      (if o.sendOk = true ∧ bytes.length < 512 then
          { s with outFile := (storePayload fs s.transferMode s.outFile bytes).1.close,
                   state := .finished }
        else { s with outFile := (storePayload fs s.transferMode s.outFile bytes).1 },
        (storePayload fs s.transferMode s.outFile bytes).2, s.sendAcknowledge o) := by
  unfold storeAndAcknowledge
  cases hs : o.sendOk with
  | false => simp [sendAcknowledge, TFTPSession.send, hs]
  | true =>
    by_cases hl : bytes.length < 512
    · simp [hl, sendAcknowledge, TFTPSession.send]
    · simp [hl, sendAcknowledge, TFTPSession.send]

/-- What a datagram makes of an upload and of the files and what is sent, by the branch that it
takes. -/
inductive Branch (s : TFTPSessionWrite) (fs : FileSystem) (o : Outcomes) (data : Buffer) (n : ℕ) :
    TFTPSessionWrite × FileSystem × List Packet → Prop
  | request {name : Bytes} {mode : TransferMode} : data.word 0 = MessageType.wrq.code →
      data.request = some (.accepted name mode) → Branch s fs o data n
        (checkAndOpen { s with state := .active, transferMode := mode } fs o name)
  | malformed : Branch s fs o data n ({ s with state := .active }, fs, [])
  | block {bytes : Bytes} : data.word 0 = MessageType.data.code → data.word 2 = s.blockCounter + 1 →
      data.slice 4 (sizeSub n 4) = some bytes → Branch s fs o data n
        (storeAndAcknowledge { s with blockCounter := s.blockCounter + 1 } fs o bytes)
  | mismatch : data.word 0 = MessageType.data.code → data.word 2 ≠ s.blockCounter + 1 →
      Branch s fs o data n ({ s with blockCounter := s.blockCounter + 1 }, fs,
        s.sendErrorMessage o .unknownTransferId [])
  | ignored : Branch s fs o data n (s, fs, [])

theorem branch_of_received {r : TFTPSessionWrite × FileSystem × List Packet}
    (h : s.onDataReceived fs o data n = some r) : s.Branch fs o data n r := by
  by_cases hw : data.word 0 = MessageType.wrq.code
  · cases hreq : data.request with
    | none =>
      rw [onDataReceived_unterminated hw hreq] at h
      cases h
    | some q =>
      cases q with
      | noFilename =>
        rw [onDataReceived_malformed hw (.inl hreq)] at h
        cases h
        exact .malformed
      | invalidMode =>
        rw [onDataReceived_malformed hw (.inr hreq)] at h
        cases h
        exact .malformed
      | accepted name mode =>
        rw [onDataReceived_request hw hreq] at h
        cases h
        exact .request hw hreq
  by_cases hd : data.word 0 = MessageType.data.code
  · by_cases hn : data.word 2 = s.blockCounter + 1
    · cases hb : data.slice 4 (sizeSub n 4) with
      | none =>
        rw [onDataReceived_overrun hd hn hb] at h
        cases h
      | some bytes =>
        rw [onDataReceived_expected hd hn hb] at h
        cases h
        exact .block hd hn hb
    · rw [onDataReceived_unexpected hd hn] at h
      cases h
      exact .mismatch hd hn
  · rw [onDataReceived_other hw hd] at h
    cases h
    exact .ignored

end TFTPSessionWrite

namespace TFTPServer

/-- What a datagram does to the session of its sender and to the files. -/
def handle (session : Option Session) (fs : FileSystem) (ep : Endpoint) (o : Outcomes)
    (data : Buffer) (n : ℕ) : Option (Option Session × FileSystem × List Packet) :=
  match session with
  | some s => (s.onDataReceived fs o data n).map fun r =>
      (if r.1.getState = .finished then none else some r.1, r.2)
  | none =>
    match newSession ep (data.word 0) with
    | some s => (s.onDataReceived fs o data n).map fun r => (some r.1, r.2)
    | none => some (none, fs, sendErrorMessage ep o .illegalOperation [])

/-- `receive` changes the entry of the sender and no other. -/
theorem receive_eq_handle (srv : TFTPServer) (ep : Endpoint) (d : Datagram) (o : Outcomes) :
    srv.receive (.received ep d o) =
      (handle (srv.sessions ep) srv.files ep o (srv.recvBuffer.fill d)
        (min d.length bufferSize)).map fun r =>
          ({ sessions := Function.update srv.sessions ep r.1
             recvBuffer := srv.recvBuffer.fill d
             files := r.2.1 }, r.2.2) := by
  cases hs : srv.sessions ep with
  | some s =>
    simp only [receive, hs, dispatch, handle, Option.map_map]
    rfl
  | none =>
    cases hnew : newSession ep ((srv.recvBuffer.fill d).word 0) with
    | none =>
      have hsame : Function.update srv.sessions ep none = srv.sessions := by
        rw [← hs, Function.update_eq_self]
      rw [receive_illegal hs hnew]
      simp only [handle, hnew, Option.map_some, hsame]
    | some s =>
      cases hgo : s.onDataReceived srv.files o (srv.recvBuffer.fill d)
          (min d.length bufferSize) with
      | some r =>
        rw [receive_new hs hnew hgo]
        simp only [handle, hnew, hgo, Option.map_some]
      | none =>
        rw [receive_new_fault hs hnew hgo]
        simp only [handle, hnew, hgo, Option.map_none]

variable {s : TFTPServer} {ep : Endpoint} {d : Datagram} {o : Outcomes}

theorem receive_of_handle {r : Option Session × FileSystem × List Packet}
    (h : handle (s.sessions ep) s.files ep o (s.recvBuffer.fill d) (min d.length bufferSize) =
      some r) :
    s.receive (.received ep d o) =
      some ({ sessions := Function.update s.sessions ep r.1
              recvBuffer := s.recvBuffer.fill d
              files := r.2.1 }, r.2.2) := by
  rw [receive_eq_handle, h]
  rfl

/-- The datagram, if it is a granted WRQ, asks for a file that does not exist. -/
def GrantsNew (s : TFTPServer) (d : Datagram) (o : Outcomes) : Prop :=
  TFTPSessionWrite.GrantsNew s.files o (s.recvBuffer.fill d)

theorem grantsNew_of_relative
    (h : ∀ name mode, s.Requests .wrq d name mode → PathName.IsRelative name) :
    s.GrantsNew d o := by
  rintro name mode hw hreq ⟨-, -, hnone, -⟩
  rwa [FileSystem.lookup_filePath _ (h name mode ⟨hw, hreq⟩)] at hnone

theorem grantsNew_of_missing {name : Bytes} {mode : TransferMode} (hname : ValidName name)
    (h : s.files.lookup name = none) : s.GrantsNew (requestMessage .wrq name mode) o := by
  intro name' mode' _ hreq _
  have hsent := (s.requests_requestMessage .wrq mode hname).2.symm.trans hreq
  obtain ⟨rfl, -⟩ := Request.accepted.inj (Option.some.inj hsent)
  exact h

theorem grantsNew_requestMessage {name : Bytes} (mode : TransferMode) (hname : ValidName name)
    (hrelative : name.head? ≠ some PathName.slash) :
    s.GrantsNew (requestMessage .wrq name mode) o := by
  refine grantsNew_of_relative fun name' mode' hreq => ?_
  have hsent := (s.requests_requestMessage .wrq mode hname).2.symm.trans hreq.2
  obtain ⟨rfl, -⟩ := Request.accepted.inj (Option.some.inj hsent)
  exact ⟨hname.ne_nil, hrelative, hname.no_nul⟩

theorem grantsNew_of_word {w : UInt16} (hword : (s.recvBuffer.fill d).word 0 = w)
    (hw : w ≠ MessageType.wrq.code) : s.GrantsNew d o :=
  fun _ _ hwrq _ _ => absurd (hword.symm.trans hwrq) hw

theorem grantsNew_rrq (name : Bytes) (mode : TransferMode) :
    s.GrantsNew (requestMessage .rrq name mode) o :=
  grantsNew_of_word (s.recvBuffer.word_zero_requestMessage .rrq name mode) (by decide)

theorem grantsNew_ackMessage (w : UInt16) : s.GrantsNew (ackMessage w) o :=
  grantsNew_of_word (s.recvBuffer.word_zero_ackMessage w) (by decide)

theorem grantsNew_dataMessage (k : UInt16) {payload : Bytes} (h : payload.length ≤ 512) :
    s.GrantsNew (dataMessage k payload) o :=
  grantsNew_of_word (s.recvBuffer.word_zero_dataMessage h) (by decide)

/-- A host without files whose server runs in `/s`. There a request for the absolute name `/x` looks
up `/s/x`. -/
def absoluteHost : FileSystem where
  toNaming := .inDirectory (Bytes.chars "/s") (by decide) (by decide)
  content _ := none

theorem receive_of_handle_none
    (h : handle (s.sessions ep) s.files ep o (s.recvBuffer.fill d) (min d.length bufferSize) =
      none) : s.receive (.received ep d o) = none := by
  rw [receive_eq_handle, h]
  rfl

end TFTPServer

end Tftp
end NetworkProtocols
