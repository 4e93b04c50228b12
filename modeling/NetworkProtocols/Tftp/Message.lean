import NetworkProtocols.Lib.FileStream

/-!
# TFTP datagrams and the fixed receive buffer

The constants, the message formats and the 516-byte buffer that `tftp-client.cpp` and
`tftp-server.cpp` both declare.
-/

namespace NetworkProtocols
namespace Tftp

open Bytes

inductive TransferMode
  | binary | ascii
  deriving DecidableEq, Repr

inductive MessageType
  | rrq | wrq | data | ack | error | oack
  deriving DecidableEq, Repr

def MessageType.code : MessageType → UInt16
  | .rrq => 1
  | .wrq => 2
  | .data => 3
  | .ack => 4
  | .error => 5
  | .oack => 6

inductive ErrorCode
  | noError | fileNotFound | accessViolation | diskFull | illegalOperation
  | unknownTransferId | fileAlreadyExists | noSuchUser | terminateTransfer
  deriving DecidableEq, Repr

def ErrorCode.code : ErrorCode → UInt16
  | .noError => 0
  | .fileNotFound => 1
  | .accessViolation => 2
  | .diskFull => 3
  | .illegalOperation => 4
  | .unknownTransferId => 5
  | .fileAlreadyExists => 6
  | .noSuchUser => 7
  | .terminateTransfer => 8

abbrev Datagram := Bytes

/-- `BUFFER_SIZE`: a block of 512 bytes behind opcode and block number. -/
def bufferSize : ℕ := 516

def octet : Bytes := [111, 99, 116, 101, 116]

def netascii : Bytes := [110, 101, 116, 97, 115, 99, 105, 105]

def TransferMode.text : TransferMode → Bytes
  | .binary => octet
  | .ascii => netascii

/-- `std::size_t` subtraction wraps around. -/
def sizeSub (a b : ℕ) : ℕ := (a + (UInt64.size - b)) % UInt64.size

theorem sizeSub_of_le {a b : ℕ} (h : b ≤ a) (ha : a ≤ bufferSize) : sizeSub a b = a - b := by
  unfold bufferSize at ha
  unfold sizeSub UInt64.size
  omega

theorem bufferSize_lt_sizeSub {a b : ℕ} (h : a < b) (hb : b ≤ bufferSize) :
    bufferSize < sizeSub a b := by
  unfold bufferSize at hb ⊢
  unfold sizeSub UInt64.size
  omega

theorem sizeSub_le_iff {a b : ℕ} (ha : a ≤ bufferSize) (hb : b ≤ bufferSize) :
    sizeSub a b ≤ bufferSize - b ↔ b ≤ a := by
  constructor
  · intro hle
    by_contra hlt
    have hlarge := bufferSize_lt_sizeSub (Nat.lt_of_not_le hlt) hb
    omega
  · intro hle
    rw [sizeSub_of_le hle ha]
    omega

theorem header_received_iff (n : ℕ) : 4 ≤ min n bufferSize ↔ 4 ≤ n := by
  rw [Nat.le_min]
  exact and_iff_left (by decide)

/-- `std::array<char, BUFFER_SIZE>`. -/
structure Buffer where
  bytes : Bytes
  size : bytes.length = bufferSize

namespace Buffer

def blank : Buffer := ⟨List.replicate bufferSize 0, List.length_replicate⟩

/-- A received datagram overwrites the first bytes and leaves the others as they were;
what does not fit is cut off. -/
def fill (b : Buffer) (d : Datagram) : Buffer where
  bytes := d.take bufferSize ++ b.bytes.drop d.length
  size := by
    have hb := b.size
    rw [List.length_append, List.length_take, List.length_drop]
    omega

/-- `memcpy` of a `std::uint16_t` out of the buffer. -/
def word (b : Buffer) (i : ℕ) : UInt16 := Bytes.word (b.bytes.getD i 0) (b.bytes.getD (i+1) 0)

/-- The `n` bytes from position `i`; `none` is a read past the end of the array. -/
def slice (b : Buffer) (i n : ℕ) : Option Bytes :=
  if i + n ≤ bufferSize then some ((b.bytes.drop i).take n) else none

end Buffer

/-- RRQ and WRQ as the client writes them, with the file name cut at 78 bytes. -/
def requestMessage (type : MessageType) (filename : Bytes) (mode : TransferMode) : Datagram :=
  wordBytes type.code ++ filename.take 78 ++ [0] ++ mode.text ++ [0]

def dataMessage (blockCounter : UInt16) (payload : Bytes) : Datagram :=
  wordBytes MessageType.data.code ++ wordBytes blockCounter ++ payload

def ackMessage (blockCounter : UInt16) : Datagram :=
  wordBytes MessageType.ack.code ++ wordBytes blockCounter

/-- `sendErrorMessage` of the server: the text is cut at 511 bytes. -/
def errorMessage (code : ErrorCode) (text : Bytes) : Datagram :=
  wordBytes MessageType.error.code ++ wordBytes code.code ++
    text.take (if text.length < 512 then text.length else 511) ++ [0]

/-- What the request handlers of both session classes read out of the buffer. -/
inductive Request
  | noFilename
  | invalidMode
  | accepted (filename : Bytes) (mode : TransferMode)
  deriving DecidableEq

/-- The name and mode that the RRQ and the WRQ branch read in the same way, each up to a
NUL; `none` is a read past the end of the bytes. -/
def Request.parse (data : Bytes) : Option Request :=
  match cString (data.drop 2) with
  | none => none
  | some filename =>
    if filename = [] then some .noFilename
    else match cString (data.drop (2 + (filename.length + 1))) with
      | none => none
      | some mode =>
        if mode = octet then some (.accepted filename .binary)
        else if mode = netascii then some (.accepted filename .ascii)
        else some .invalidMode

/-- The request that the handlers read, without regard to the length of the datagram. -/
def Buffer.request (data : Buffer) : Option Request := Request.parse data.bytes

/-- A name that a request carries to the server as it is. -/
structure ValidName (name : Bytes) : Prop where
  ne_nil : name ≠ []
  no_nul : 0 ∉ name
  length_le : name.length ≤ 78

theorem requestMessage_length_le (type : MessageType) (name : Bytes) (mode : TransferMode) :
    (requestMessage type name mode).length ≤ bufferSize := by
  cases mode <;> simp [requestMessage, TransferMode.text, octet, netascii, bufferSize] <;> omega

@[simp] theorem errorMessage_length (code : ErrorCode) : (errorMessage code []).length = 5 := rfl

@[simp] theorem ackMessage_length (w : UInt16) : (ackMessage w).length = 4 := rfl

@[simp] theorem dataMessage_length (w : UInt16) (payload : Bytes) :
    (dataMessage w payload).length = 4 + payload.length := by
  simp [dataMessage]
  omega

namespace Buffer

variable (b : Buffer)

theorem slice_isSome_iff {amount : ℕ} (hamount : amount ≤ bufferSize) :
    (b.slice 4 (sizeSub amount 4)).isSome ↔ 4 ≤ amount := by
  have hsize : 4 + sizeSub amount 4 ≤ bufferSize ↔ sizeSub amount 4 ≤ bufferSize - 4 := by
    rw [bufferSize]
    omega
  rw [← sizeSub_le_iff hamount (by decide), ← hsize, slice]
  split
  · rename_i hle
    exact iff_of_true rfl hle
  · rename_i hle
    exact iff_of_false (by simp) hle

theorem fill_bytes {d : Datagram} (hd : d.length ≤ bufferSize) :
    (b.fill d).bytes = d ++ b.bytes.drop d.length := by
  simp [fill, List.take_of_length_le hd]

theorem word_fill_zero {w : UInt16} {rest : Bytes} (h : (wordBytes w ++ rest).length ≤ bufferSize) :
    (b.fill (wordBytes w ++ rest)).word 0 = w := by
  rw [word, fill_bytes b h]
  simp [wordBytes]

theorem word_fill_wordBytes (w : UInt16) : (b.fill (wordBytes w)).word 0 = w := by
  rw [← List.append_nil (wordBytes w)]
  exact word_fill_zero b (by simp [bufferSize])

theorem word_fill_two {v w : UInt16} {rest : Bytes}
    (h : (wordBytes v ++ wordBytes w ++ rest).length ≤ bufferSize) :
    (b.fill (wordBytes v ++ wordBytes w ++ rest)).word 2 = w := by
  rw [word, fill_bytes b h]
  simp [wordBytes]

@[simp] theorem word_zero_requestMessage (type : MessageType) (name : Bytes) (mode : TransferMode) :
    (b.fill (requestMessage type name mode)).word 0 = type.code := by
  simp only [requestMessage, List.append_assoc]
  refine word_fill_zero b ?_
  have hn := List.length_take_le 78 name
  cases mode <;> simp [TransferMode.text, octet, netascii, bufferSize] <;> omega

theorem word_zero_dataMessage {k : UInt16} {payload : Bytes} (h : payload.length ≤ 512) :
    (b.fill (dataMessage k payload)).word 0 = MessageType.data.code := by
  simp only [dataMessage, List.append_assoc]
  refine word_fill_zero b ?_
  simp [bufferSize]
  omega

theorem word_two_dataMessage {k : UInt16} {payload : Bytes} (h : payload.length ≤ 512) :
    (b.fill (dataMessage k payload)).word 2 = k := by
  refine word_fill_two b ?_
  simp [bufferSize]
  omega

@[simp] theorem word_zero_ackMessage (k : UInt16) :
    (b.fill (ackMessage k)).word 0 = MessageType.ack.code :=
  word_fill_zero b (by simp [bufferSize])

@[simp] theorem word_two_ackMessage (k : UInt16) : (b.fill (ackMessage k)).word 2 = k := by
  rw [ackMessage, ← List.append_nil (wordBytes _ ++ wordBytes k)]
  exact word_fill_two b (by simp [bufferSize])

theorem word_zero_errorMessage (code : ErrorCode) :
    (b.fill (errorMessage code [])).word 0 = MessageType.error.code := by
  simp only [errorMessage, List.append_assoc]
  exact word_fill_zero b (by simp [bufferSize])

theorem word_two_errorMessage (code : ErrorCode) :
    (b.fill (errorMessage code [])).word 2 = code.code := by
  rw [errorMessage, List.append_assoc (wordBytes _ ++ wordBytes _)]
  exact word_fill_two b (by simp [bufferSize])

theorem slice_fill {d : Datagram} {i : ℕ} (hi : i ≤ d.length) (hd : d.length ≤ bufferSize) :
    (b.fill d).slice i (d.length - i) = some (d.drop i) := by
  have hin : i + (d.length - i) ≤ bufferSize := by omega
  rw [slice, if_pos hin, fill_bytes b hd, List.drop_append_of_le_length hi]
  simp

theorem slice_dataMessage {k : UInt16} {payload : Bytes} (h : payload.length ≤ 512) :
    (b.fill (dataMessage k payload)).slice 4 payload.length = some payload := by
  have hl := dataMessage_length k payload
  have hs := b.slice_fill (d := dataMessage k payload) (i := 4) (by omega)
    (by rw [hl, bufferSize]; omega)
  rw [hl, Nat.add_sub_cancel_left] at hs
  exact hs

/-- A request is parsed as it was written, whatever the buffer held before. -/
theorem request_requestMessage (type : MessageType) {name : Bytes} (mode : TransferMode)
    (h : ValidName name) :
    (b.fill (requestMessage type name mode)).request = some (.accepted name mode) := by
  obtain ⟨hne, hz, hl⟩ := h
  have hlen := requestMessage_length_le type name mode
  have hbytes : (b.fill (requestMessage type name mode)).bytes =
      wordBytes type.code ++ (name ++ 0 :: (mode.text ++ 0 ::
        b.bytes.drop (requestMessage type name mode).length)) := by
    rw [fill_bytes b hlen]
    simp [requestMessage, List.take_of_length_le hl]
  have hname : cString ((b.fill (requestMessage type name mode)).bytes.drop 2) = some name := by
    rw [hbytes, List.drop_left' (wordBytes_length _)]
    exact cString_append _ _ hz
  have hmode : cString
      ((b.fill (requestMessage type name mode)).bytes.drop (2 + (name.length + 1))) =
      some mode.text := by
    rw [hbytes, ← List.drop_drop, List.drop_left' (wordBytes_length _), ← List.drop_drop,
      List.drop_left' rfl]
    exact cString_append _ _ (by cases mode <;> decide)
  rw [request, Request.parse, hname]
  simp only [hne, if_false, hmode]
  cases mode <;> simp [TransferMode.text, netascii, octet]

end Buffer

end Tftp
end NetworkProtocols
