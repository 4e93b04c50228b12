import NetworkProtocols.Tftp.Handlers
import NetworkProtocols.Tftp.SendBuffer

/-!
# The request message

How RRQ and WRQ are written into the send buffer of the client, and what the session that they
reach reads out of the receive buffer of the server.
-/

namespace NetworkProtocols
namespace Tftp

open Bytes

/-- `MAX_FILENAME_LENGTH` of both functions. -/
def maxFilenameLength : ℕ := 78

/-- The statements of `getFile` and `putFile` that fill in the request. -/
def Filling.request (type : MessageType) (filename : Bytes) (mode : TransferMode) (f : Filling) :
    Option Filling :=
  let fnameLength := min filename.length maxFilenameLength
  (f.copy (wordBytes type.code)).bind fun f =>
    (f.copy (filename.take fnameLength)).bind fun f =>
      (f.copy [0]).bind fun f => f.copy (mode.text ++ [0])

/-- The request as it is handed to `send`; `none` is a write past the end of the buffer. -/
def fillRequest (type : MessageType) (filename : Bytes) (mode : TransferMode)
    (sendBuffer : Buffer) : Option Datagram :=
  (Filling.request type filename mode
    { inFile := {}, lineFeed := false, sendBuffer := sendBuffer }).map Filling.message

/-- Whatever the buffer of the server held, the session opens this file in this mode and sends
it. -/
structure AsksToRead (m : Datagram) (name : Bytes) (mode : TransferMode) : Prop where
  fits : m.length ≤ bufferSize
  request : ∀ b : Buffer, (b.fill m).request = some (.accepted name mode)
  opened : ∀ (b : Buffer) (s : TFTPSessionRead) (fs : FileSystem) (o : Outcomes) (n : ℕ),
    s.onDataReceived fs o (b.fill m) n =
      some (TFTPSessionRead.openAndSend { s with state := .active, transferMode := mode } fs o name)

/-- Whatever the buffer of the server held, the session checks and opens this file in this mode. -/
structure AsksToWrite (m : Datagram) (name : Bytes) (mode : TransferMode) : Prop where
  fits : m.length ≤ bufferSize
  request : ∀ b : Buffer, (b.fill m).request = some (.accepted name mode)
  opened : ∀ (b : Buffer) (s : TFTPSessionWrite) (fs : FileSystem) (o : Outcomes) (n : ℕ),
    s.onDataReceived fs o (b.fill m) n =
      some (TFTPSessionWrite.checkAndOpen { s with state := .active, transferMode := mode } fs o
        name)

section Writing

variable {type : MessageType} {name : Bytes} {mode : TransferMode}

theorem take_maxFilenameLength (name : Bytes) :
    name.take (min name.length maxFilenameLength) = name.take 78 := by
  by_cases hle : name.length ≤ 78
  · rw [maxFilenameLength, Nat.min_eq_left hle, List.take_of_length_le hle, List.take_length]
  · rw [maxFilenameLength, Nat.min_eq_right (by omega)]

/-- The statements stay inside the buffer and leave the message in it, whatever it held. -/
theorem fillRequest_eq (type : MessageType) (name : Bytes) (mode : TransferMode)
    (sendBuffer : Buffer) :
    fillRequest type name mode sendBuffer = some (requestMessage type name mode) := by
  have hlength : (name.take 78).length ≤ 78 := by
    rw [List.length_take]
    omega
  have hmode : (mode.text ++ [0]).length ≤ 9 := by cases mode <;> decide
  have hf : Filling.Holds { inFile := {}, lineFeed := false, sendBuffer := sendBuffer } []
      ({}, false, []) := ⟨rfl, rfl, rfl, rfl, rfl⟩
  obtain ⟨f₁, hcode, hf⟩ := hf.copy (wordBytes type.code) (by simp [bufferSize])
  obtain ⟨f₂, hname, hf⟩ := hf.copy (name.take 78) (by simp [bufferSize]; omega)
  obtain ⟨f₃, hend, hf⟩ := hf.copy [0] (by simp [bufferSize]; omega)
  obtain ⟨f₄, htext, hf⟩ := hf.copy (mode.text ++ [0]) (by
    simp only [List.nil_append, List.length_append, wordBytes_length, List.length_singleton,
      bufferSize] at hmode ⊢
    omega)
  have hfilled : Filling.request type name mode
      { inFile := {}, lineFeed := false, sendBuffer := sendBuffer } = some f₄ := by
    rw [Filling.request, take_maxFilenameLength, hcode, Option.bind_some, hname,
      Option.bind_some, hend, Option.bind_some, htext]
  rw [fillRequest, hfilled, Option.map_some, hf.message, requestMessage]
  simp only [List.nil_append, List.append_nil, List.append_assoc]

theorem requestMessage_take (type : MessageType) (name : Bytes) (mode : TransferMode) :
    requestMessage type (name.take 78) mode = requestMessage type name mode := by
  rw [requestMessage, requestMessage, List.take_take, Nat.min_self]

theorem ValidName.take (hne : name ≠ []) (hz : 0 ∉ name) : ValidName (name.take 78) where
  ne_nil h := hne ((List.take_eq_nil_iff.mp h).resolve_left (by decide))
  no_nul h := hz (List.mem_of_mem_take h)
  length_le := by
    rw [List.length_take]
    omega

theorem request_take (hne : name ≠ []) (hz : 0 ∉ name) (b : Buffer) :
    (b.fill (requestMessage type name mode)).request = some (.accepted (name.take 78) mode) := by
  rw [← requestMessage_take]
  exact b.request_requestMessage type mode (ValidName.take hne hz)

theorem asksToRead_requestMessage (hne : name ≠ []) (hz : 0 ∉ name) :
    AsksToRead (requestMessage .rrq name mode) (name.take 78) mode where
  fits := requestMessage_length_le .rrq name mode
  request := request_take hne hz
  opened b _ _ _ _ := TFTPSessionRead.onDataReceived_request
    (b.word_zero_requestMessage .rrq name mode) (request_take hne hz b)

theorem asksToWrite_requestMessage (hne : name ≠ []) (hz : 0 ∉ name) :
    AsksToWrite (requestMessage .wrq name mode) (name.take 78) mode where
  fits := requestMessage_length_le .wrq name mode
  request := request_take hne hz
  opened b _ _ _ _ := TFTPSessionWrite.onDataReceived_request
    (b.word_zero_requestMessage .wrq name mode) (request_take hne hz b)

end Writing

theorem getFile_request (c : TFTPClient) (o : ClientOutcomes) (src dst : Bytes) :
    (c.getFile o src dst).2 =
      if o.openOk ∧ o.sendOk then [requestMessage .rrq src c.transferMode] else [] := by
  have hfits := requestMessage_length_le .rrq src c.transferMode
  cases hopen : o.openOk with
  | false =>
    have hrefused : OfStream.openFile c.files {} dst false = _ :=
      OfStream.openFile_refused (.inr rfl)
    simp [TFTPClient.getFile, hopen, hrefused]
  | true =>
    have hopened : OfStream.openFile c.files {} dst true = _ := OfStream.openFile_granted dst rfl
    cases hsend : o.sendOk <;> simp [TFTPClient.getFile, hopen, hopened, hfits, hsend]

theorem putFile_request (c : TFTPClient) (o : ClientOutcomes) (src dst : Bytes) :
    (c.putFile o src dst).2 =
      if (o.openOk ∧ (c.files.lookup src).isSome) ∧ o.sendOk then
        [requestMessage .wrq dst c.transferMode]
      else [] := by
  have hfits := requestMessage_length_le .wrq dst c.transferMode
  by_cases hgood : o.openOk ∧ (c.files.lookup src).isSome
  · obtain ⟨hopen, hsome⟩ := hgood
    obtain ⟨file, hsrc⟩ := Option.isSome_iff_exists.mp hsome
    have hopened := IfStream.openFile_granted (s := {}) rfl hsrc
    cases hsend : o.sendOk <;> simp [TFTPClient.putFile, hopen, hopened, hsend, hfits, hsrc]
  · rw [if_neg fun h => hgood h.1]
    simp only [TFTPClient.putFile, c.openFile_refused hgood, if_true]

/-- Whatever the buffers held, the request of `getFile` and of `putFile` stays inside the send
buffer, and the session of the server reads the mode and the first 78 bytes of the name. -/
theorem request_names_first_bytes (c : TFTPClient) (sendBuffer : Buffer) (name : Bytes)
    (hne : name ≠ []) (hz : 0 ∉ name) :
    (∃ m, fillRequest .rrq name c.transferMode sendBuffer = some m ∧
      AsksToRead m (name.take 78) c.transferMode ∧
      ∀ o dst, (c.getFile o name dst).2 = if o.openOk ∧ o.sendOk then [m] else []) ∧
    (∃ m, fillRequest .wrq name c.transferMode sendBuffer = some m ∧
      AsksToWrite m (name.take 78) c.transferMode ∧
      ∀ o src, (c.putFile o src name).2 =
        if (o.openOk ∧ (c.files.lookup src).isSome) ∧ o.sendOk then [m] else []) := by
  constructor
  · exact ⟨_, fillRequest_eq .rrq name c.transferMode sendBuffer,
      asksToRead_requestMessage hne hz, fun o dst => getFile_request c o name dst⟩
  · exact ⟨_, fillRequest_eq .wrq name c.transferMode sendBuffer,
      asksToWrite_requestMessage hne hz, fun o src => putFile_request c o src name⟩

theorem request_names_first_bytes_blank :
    ∃ m, fillRequest .wrq [97] .binary .blank = some m ∧ AsksToWrite m [97] .binary := by
  obtain ⟨m, hfilled, hasks, -⟩ := (request_names_first_bytes (.init .binary (.single [] []))
    .blank [97] (by decide) (by decide)).2
  exact ⟨m, hfilled, hasks⟩

/-- Of a name of 79 bytes the session reads another one. -/
theorem long_name_cut :
    ¬ ∀ (c : TFTPClient) (name : Bytes), name ≠ [] → 0 ∉ name → ∀ o dst,
      ∀ m ∈ (c.getFile o name dst).2, AsksToRead m name c.transferMode := by
  intro h
  have hz : (0 : Byte) ∉ List.replicate 79 97 := by decide
  have hne : List.replicate 79 (97 : Byte) ≠ [] := List.cons_ne_nil _ _
  have hasks := h (.init .binary (.single [] [])) _ hne hz {} [98] _ (by
    rw [getFile_request]
    exact List.mem_singleton_self _)
  have hread := hasks.request .blank
  rw [request_take hne hz] at hread
  have hcut := congrArg List.length (Request.accepted.inj (Option.some.inj hread)).1
  simp at hcut

end Tftp
end NetworkProtocols
