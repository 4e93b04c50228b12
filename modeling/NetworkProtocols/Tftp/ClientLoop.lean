import NetworkProtocols.Tftp.Client
import NetworkProtocols.Tftp.Transfer

/-!
# One turn of the client's loops

What `getFile` does with the next block or any other DATA and with an ERROR, and what
`putFile` does with the awaited ACK, any other ACK and an ERROR.
-/

namespace NetworkProtocols
namespace Tftp

theorem ErrorCode.ofCode_code (e : ErrorCode) : ErrorCode.ofCode e.code = some e := by
  cases e <;> decide

theorem TFTPClient.writeErrorMessage_errorMessage (c : TFTPClient) (e : ErrorCode) :
    ((c.recv (errorMessage e [])).writeErrorMessage).isSome = true := by
  unfold writeErrorMessage recv
  simp [Buffer.word_zero_errorMessage, Buffer.word_two_errorMessage, ErrorCode.ofCode_code]

namespace GetFile

/-- The call has stored the first `k` blocks of `file`. -/
structure Receiving (mode : TransferMode) (file dst : Bytes) (k : ℕ) (g : GetFile) : Prop where
  mode_eq : g.client.transferMode = mode
  opened : g.outFile.file = some (g.client.files.denotes dst)
  ok : g.outFile.fail = false
  counter : g.expectedBlockNumber = UInt16.ofNat k
  content : g.client.files.lookup dst = some (stored mode file k)

variable {mode : TransferMode} {file dst : Bytes} {k : ℕ} {g : GetFile} {o : ClientOutcomes}

/-- A DATA message with the awaited number is stored and acknowledged. -/
theorem turn_expected {w : UInt16} {bytes : Bytes} (hb : bytes.length ≤ 512)
    (hw : w = g.expectedBlockNumber + 1) :
    g.turn o (some (dataMessage w bytes)) =
      { g with client := g.client.recv (dataMessage w bytes),
               expectedBlockNumber := w }.storeAndAcknowledge o w bytes := by
  have hlen : (dataMessage w bytes).length ≤ bufferSize := by
    rw [dataMessage_length, bufferSize]
    omega
  have hne : ¬ MessageType.data.code = MessageType.error.code := by decide
  have hsize : sizeSub (min (4 + bytes.length) bufferSize) 4 = bytes.length := by
    rw [dataMessage_length] at hlen
    rw [Nat.min_eq_left hlen, sizeSub_of_le (by omega) (by omega), Nat.add_sub_cancel_left]
  have hbody : ((g.client.recv (dataMessage w bytes)).recvBuffer.bytes.drop 4).take bytes.length =
      bytes := by
    have hs := g.client.recvBuffer.slice_dataMessage (k := w) hb
    rw [Buffer.slice, if_pos (by rw [bufferSize]; omega)] at hs
    exact Option.some.inj hs
  have hw0 : (g.client.recv (dataMessage w bytes)).recvBuffer.word 0 = MessageType.data.code :=
    Buffer.word_zero_dataMessage _ hb
  have hw2 : (g.client.recv (dataMessage w bytes)).recvBuffer.word 2 = w :=
    Buffer.word_two_dataMessage _ hb
  simp only [turn, hw0, hw2, if_neg hne, if_true, ← hw, ne_eq, not_true_eq_false, if_false,
    dataMessage_length, hsize, hb, hbody]

/-- The next block of the file is appended; the call returns after the last one. -/
theorem Receiving.turn_data (h : g.Receiving mode file dst k) (hk : k < payloads mode file) :
    (o.sendOk = false → ∃ c,
      g.turn o (some (dataMessage (UInt16.ofNat (k + 1)) (payload mode file k))) =
        (.returned false c, [])) ∧
    (o.sendOk = true → ∃ g' : GetFile, g'.Receiving mode file dst (k + 1) ∧
      g.turn o (some (dataMessage (UInt16.ofNat (k + 1)) (payload mode file k))) =
        (if k + 1 = payloads mode file then .returned true g'.client else .waiting g',
          [ackMessage (UInt16.ofNat (k + 1))])) := by
  have hw : UInt16.ofNat (k + 1) = g.expectedBlockNumber + 1 := by
    rw [h.counter, Bytes.ofNat_succ]
  have hshort := payload_short_iff hk
  rw [turn_expected (payload_length_le _ _ _) hw]
  unfold storeAndAcknowledge
  simp only [TFTPClient.recv]
  rw [storePayload_open _ _ _ h.ok h.opened]
  refine ⟨fun hs => ?_, fun hs => ?_⟩
  · rw [hs]
    exact ⟨_, rfl⟩
  · have hc : g.client.files.content (g.client.files.denotes dst) = some (stored mode file k) :=
      h.content
    simp only [hs, Bool.not_true, Bool.false_eq_true, if_false, hshort]
    refine ⟨{ g with
      client := { g.client with
        recvBuffer := g.client.recvBuffer.fill
          (dataMessage (UInt16.ofNat (k + 1)) (payload mode file k))
        files := g.client.files.append (g.client.files.denotes dst)
          (decode g.client.transferMode (payload mode file k)) }
      expectedBlockNumber := UInt16.ofNat (k + 1) }, ⟨h.mode_eq, h.opened, h.ok, rfl, ?_⟩, ?_⟩
    · simp [FileSystem.lookup, hc, stored_succ, h.mode_eq]
    · split <;> rfl

theorem turn_unexpected {w : UInt16} {bytes : Bytes} (hb : bytes.length ≤ 512)
    (hw : w ≠ g.expectedBlockNumber + 1) :
    ∃ c, g.turn o (some (dataMessage w bytes)) = (.returned false c, []) := by
  have hne : ¬ MessageType.data.code = MessageType.error.code := by decide
  have hw0 : (g.client.recv (dataMessage w bytes)).recvBuffer.word 0 = MessageType.data.code :=
    Buffer.word_zero_dataMessage _ hb
  have hw2 : (g.client.recv (dataMessage w bytes)).recvBuffer.word 2 = w :=
    Buffer.word_two_dataMessage _ hb
  simp only [turn, hw0, hw2, if_neg hne, if_true, if_pos hw]
  exact ⟨_, rfl⟩

theorem turn_error (e : ErrorCode) :
    ∃ c, g.turn o (some (errorMessage e [])) = (.returned false c, []) := by
  unfold turn
  have hw : (g.client.recv (errorMessage e [])).recvBuffer.word 0 = MessageType.error.code :=
    Buffer.word_zero_errorMessage _ e
  simp only [hw, if_true]
  obtain ⟨r, hr⟩ := Option.isSome_iff_exists.mp (g.client.writeErrorMessage_errorMessage e)
  rw [hr]
  exact ⟨_, rfl⟩

end GetFile

namespace PutFile

/-- The call has sent the first `k` blocks of `file`. -/
structure Sending (mode : TransferMode) (file : Bytes) (k : ℕ) (p : PutFile) : Prop where
  mode_eq : p.client.transferMode = mode
  counter : p.currBlockNumber = UInt16.ofNat k
  rest : pending p.client.files p.client.transferMode p.inFile p.lineFeed =
    (encode mode file).drop (512 * k)
  readable : p.inFile.Readable p.client.files
  le_payloads : k ≤ payloads mode file
  complete : p.complete = true ↔ k = payloads mode file

variable {mode : TransferMode} {file : Bytes} {k : ℕ} {p : PutFile} {o : ClientOutcomes}

theorem Sending.recv (h : p.Sending mode file k) (d : Datagram) :
    Sending mode file k { p with client := p.client.recv d } :=
  ⟨h.mode_eq, h.counter, h.rest, h.readable, h.le_payloads, h.complete⟩

/-- Before the last block has been sent, the call sends the next one. -/
theorem Sending.sendNextBlock (h : p.Sending mode file k) (hk : k < payloads mode file) :
    (o.sendOk = false → ∃ c, p.sendNextBlock o = (.returned false c, [])) ∧
    (o.sendOk = true → ∃ p' : PutFile, p'.Sending mode file (k + 1) ∧
      p.sendNextBlock o =
        (.waiting p', [dataMessage (UInt16.ofNat (k + 1)) (payload mode file k)])) := by
  obtain ⟨hbytes, hrest, hread, -⟩ :=
    nextPayload_spec p.client.files p.client.transferMode p.inFile p.lineFeed h.readable
  have hpay : (nextPayload p.client.files p.client.transferMode p.inFile p.lineFeed).2.2 =
      payload mode file k := by
    rw [hbytes, h.rest]
    rfl
  have hcount : p.currBlockNumber + 1 = UInt16.ofNat (k + 1) := by
    rw [h.counter, Bytes.ofNat_succ]
  have hopen : p.complete = false := by
    have hne : ¬ p.complete = true := fun hc => absurd (h.complete.mp hc) hk.ne
    simpa using hne
  have hfits : (dataMessage (UInt16.ofNat (k + 1)) (payload mode file k)).length ≤ bufferSize := by
    have hle := payload_length_le mode file k
    rw [dataMessage_length, bufferSize]
    omega
  unfold PutFile.sendNextBlock
  simp only [hpay, hcount, if_pos hfits]
  refine ⟨fun hs => ?_, fun hs => ?_⟩
  · rw [hs]
    exact ⟨_, rfl⟩
  · simp only [hs, if_true]
    refine ⟨_, ?_, rfl⟩
    refine ⟨h.mode_eq, rfl, ?_, hread, hk, ?_⟩
    · simp only
      rw [hrest, h.rest, Blocks.block_drop]
    · simp only [hopen, Bool.false_or, decide_eq_true_eq]
      exact payload_short_iff hk

theorem turn_ack {w : UInt16} (hw : w = p.currBlockNumber) :
    p.turn o (some (ackMessage w)) =
      if p.complete = true then (.returned true (p.client.recv (ackMessage w)), [])
      else { p with client := p.client.recv (ackMessage w) }.sendNextBlock o := by
  have hne : ¬ MessageType.ack.code = MessageType.error.code := by decide
  unfold turn
  simp only [TFTPClient.recv, Buffer.word_zero_ackMessage, Buffer.word_two_ackMessage, if_neg hne,
    if_true, hw, ne_eq, not_true_eq_false, if_false]

theorem Sending.turn_next (h : p.Sending mode file k) (hk : k < payloads mode file) :
    (o.sendOk = false → ∃ c,
      p.turn o (some (ackMessage (UInt16.ofNat k))) = (.returned false c, [])) ∧
    (o.sendOk = true → ∃ p' : PutFile, p'.Sending mode file (k + 1) ∧
      p.turn o (some (ackMessage (UInt16.ofNat k))) =
        (.waiting p', [dataMessage (UInt16.ofNat (k + 1)) (payload mode file k)])) := by
  have hopen : ¬ p.complete = true := fun hc => absurd (h.complete.mp hc) hk.ne
  rw [turn_ack h.counter.symm, if_neg hopen]
  exact (h.recv _).sendNextBlock hk

theorem Sending.turn_last (h : p.Sending mode file k) (hk : k = payloads mode file) :
    p.turn o (some (ackMessage (UInt16.ofNat k))) =
      (.returned true (p.client.recv (ackMessage (UInt16.ofNat k))), []) := by
  rw [turn_ack h.counter.symm, if_pos (h.complete.mpr hk)]

theorem turn_unexpected {w : UInt16} (hw : w ≠ p.currBlockNumber) :
    ∃ c, p.turn o (some (ackMessage w)) = (.returned false c, []) := by
  have hne : ¬ MessageType.ack.code = MessageType.error.code := by decide
  unfold turn
  simp only [TFTPClient.recv, Buffer.word_zero_ackMessage, Buffer.word_two_ackMessage, if_neg hne,
    if_true, if_pos hw]
  exact ⟨_, rfl⟩

theorem turn_error (e : ErrorCode) :
    ∃ c, p.turn o (some (errorMessage e [])) = (.returned false c, []) := by
  unfold turn
  have hw : (p.client.recv (errorMessage e [])).recvBuffer.word 0 = MessageType.error.code :=
    Buffer.word_zero_errorMessage _ e
  simp only [hw, if_true]
  obtain ⟨r, hr⟩ := Option.isSome_iff_exists.mp (p.client.writeErrorMessage_errorMessage e)
  rw [hr]
  exact ⟨_, rfl⟩

end PutFile

namespace TFTPClient

variable (c : TFTPClient) {o : ClientOutcomes} {src : Bytes}

theorem getFile_receiving (name dst file : Bytes) (hopen : o.openOk = true)
    (hsend : o.sendOk = true) :
    ∃ g : GetFile, g.Receiving c.transferMode file dst 0 ∧
      c.getFile o name dst = (.waiting g, [requestMessage .rrq name c.transferMode]) := by
  have hfits := requestMessage_length_le .rrq name c.transferMode
  have hopened : OfStream.openFile c.files {} dst true = _ := OfStream.openFile_granted dst rfl
  simp only [getFile, hopen, hopened, hsend, Bool.false_eq_true, if_false, if_true, if_pos hfits]
  exact ⟨_, ⟨rfl, rfl, rfl, rfl, by simp [FileSystem.lookup]⟩, rfl⟩

theorem putFile_sending (name : Bytes) {file : Bytes} (hsrc : c.files.lookup src = some file)
    (hopen : o.openOk = true) (hsend : o.sendOk = true) :
    ∃ p : PutFile, p.Sending c.transferMode file 0 ∧
      c.putFile o src name = (.waiting p, [requestMessage .wrq name c.transferMode]) := by
  have hfits := requestMessage_length_le .wrq name c.transferMode
  have hopened := IfStream.openFile_granted (s := {}) rfl hsrc
  have hunread := IfStream.unread_opened hsrc
  simp only [putFile, hopen, hopened, hsend, Bool.false_eq_true, if_false, if_true, if_pos hfits]
  refine ⟨_, ⟨rfl, rfl, ?_, .inl rfl, Nat.zero_le _, ?_⟩, rfl⟩
  · cases hm : c.transferMode <;> simp [pending, hunread, encode]
  · have hp : 0 < payloads c.transferMode file := Blocks.count_pos _
    simp [hp.ne]

/-- A call of `getFile` that cannot open its file or send fails at once. -/
theorem getFile_cases (o : ClientOutcomes) (name dst file : Bytes) :
    (∃ c', c.getFile o name dst = (.returned false c', [])) ∨
      ∃ g : GetFile, g.Receiving c.transferMode file dst 0 ∧
        c.getFile o name dst = (.waiting g, [requestMessage .rrq name c.transferMode]) := by
  have hfits := requestMessage_length_le .rrq name c.transferMode
  cases hopen : o.openOk with
  | false =>
    have hrefused : OfStream.openFile c.files {} dst false = _ :=
      OfStream.openFile_refused (.inr rfl)
    simp only [getFile, hopen, hrefused, if_true]
    exact .inl ⟨_, rfl⟩
  | true =>
    cases hsend : o.sendOk with
    | false =>
      have hopened : OfStream.openFile c.files {} dst true = _ := OfStream.openFile_granted dst rfl
      simp only [getFile, hopen, hopened, hsend, Bool.false_eq_true, if_false, if_pos hfits]
      exact .inl ⟨_, rfl⟩
    | true => exact .inr (c.getFile_receiving name dst file hopen hsend)

theorem openFile_refused (h : ¬ (o.openOk = true ∧ (c.files.lookup src).isSome = true)) :
    IfStream.openFile c.files {} src o.openOk = { fail := true } := by
  refine IfStream.openFile_refused (.inr ?_)
  cases hopen : o.openOk with
  | false => exact .inl rfl
  | true => exact .inr (Option.not_isSome_iff_eq_none.mp fun hsome => h ⟨hopen, hsome⟩)

/-- A call of `putFile` that cannot open its file or send fails at once. -/
theorem putFile_cases (o : ClientOutcomes) (src name : Bytes) :
    (∃ c', c.putFile o src name = (.returned false c', [])) ∨
      ∃ file p, c.files.lookup src = some file ∧ PutFile.Sending c.transferMode file 0 p ∧
        c.putFile o src name = (.waiting p, [requestMessage .wrq name c.transferMode]) := by
  have hfits := requestMessage_length_le .wrq name c.transferMode
  by_cases hgood : o.openOk = true ∧ (c.files.lookup src).isSome = true
  · obtain ⟨hopen, hsome⟩ := hgood
    obtain ⟨file, hsrc⟩ := Option.isSome_iff_exists.mp hsome
    cases hsend : o.sendOk with
    | false =>
      have hopened := IfStream.openFile_granted (s := {}) rfl hsrc
      simp only [putFile, hopen, hopened, hsend, Bool.false_eq_true, if_false, if_pos hfits]
      exact .inl ⟨_, rfl⟩
    | true =>
      obtain ⟨p, hp, hcall⟩ := c.putFile_sending name hsrc hopen hsend
      exact .inr ⟨file, p, hsrc, hp, hcall⟩
  · have hrefused := c.openFile_refused hgood
    simp only [putFile, hrefused, if_true]
    exact .inl ⟨_, rfl⟩

end TFTPClient

end Tftp
end NetworkProtocols
