import NetworkProtocols.Tftp.ClientLoop
import NetworkProtocols.Tftp.ReadSession

/-!
# The send buffer

Both sides write a DATA message byte by byte into an array of 516 bytes. The loops stay inside
the array, what they leave in it is the message of `nextPayload`, and the messages of a whole file
are the blocks of its encoding.
-/

namespace NetworkProtocols
namespace Tftp

open Bytes Transition

/-- The bytes are stored from position `i`; `none` is a write past the end of the array. -/
def Buffer.store (b : Buffer) (i : ℕ) (bytes : Bytes) : Option Buffer :=
  if h : i + bytes.length ≤ bufferSize then
    some {
      bytes := b.bytes.take i ++ bytes ++ b.bytes.drop (i + bytes.length)
      size := by
        have hb := b.size
        rw [List.length_append, List.length_append, List.length_take, List.length_drop]
        omega }
  else none

/-- The stream, the flag and the buffer that the statements work on, with `bytesCount` and `n`. -/
structure Filling where
  inFile : IfStream
  lineFeed : Bool
  sendBuffer : Buffer
  bytesCount : ℕ := 0
  n : ℕ := 0

namespace Filling

/-- `memcpy` behind what was written. -/
def copy (f : Filling) (bytes : Bytes) : Option Filling :=
  (f.sendBuffer.store f.bytesCount bytes).map fun sendBuffer =>
    { f with sendBuffer := sendBuffer, bytesCount := f.bytesCount + bytes.length }

def put (f : Filling) (x : Byte) : Option Filling :=
  (f.copy [x]).map fun f => { f with n := f.n + 1 }

def putLineFeed (f : Filling) : Option Filling :=
  if f.lineFeed then (f.put LF).map fun f => { f with lineFeed := false } else some f

/-- `x = inFile.get()` and its write. -/
def putNext (fs : FileSystem) (f : Filling) : Option Filling :=
  let r := f.inFile.get fs
  put { f with inFile := r.1 } (r.2.getD 255)

/-- The body of `while (n < 512)`, and whether it goes on. -/
def turn (fs : FileSystem) (f : Filling) : Option (Filling × Bool) :=
  f.putLineFeed.bind fun f =>
    match f.inFile.peek fs with
    | (inFile, none) => some ({ f with inFile := inFile }, false)
    | (inFile, some x) =>
      let f := { f with inFile := inFile }
      if x = LF then
        (f.put CR).bind fun f =>
          if f.n = 512 then
            some ({ f with inFile := (f.inFile.get fs).1, lineFeed := true }, false)
          else (f.putNext fs).map (·, true)
      else (f.putNext fs).map (·, true)

theorem put_n {f g : Filling} {x : Byte} (h : f.put x = some g) : g.n = f.n + 1 := by
  obtain ⟨f', hcopy, rfl⟩ := Option.map_eq_some_iff.mp h
  obtain ⟨_, _, rfl⟩ := Option.map_eq_some_iff.mp hcopy
  rfl

theorem putLineFeed_n {f g : Filling} (h : f.putLineFeed = some g) : f.n ≤ g.n := by
  unfold putLineFeed at h
  split at h
  · obtain ⟨f', hput, rfl⟩ := Option.map_eq_some_iff.mp h
    exact Nat.le_of_lt (put_n hput ▸ Nat.lt_succ_self f.n)
  · rw [Option.some.inj h]

theorem putNext_n {fs : FileSystem} {f g : Filling} (h : f.putNext fs = some g) :
    g.n = f.n + 1 := by
  unfold putNext at h
  rw [put_n h]

/-- A turn that goes on has written a byte. -/
theorem turn_n {fs : FileSystem} {f g : Filling} (h : f.turn fs = some (g, true)) : f.n < g.n := by
  obtain ⟨f₁, hline, h⟩ := Option.bind_eq_some_iff.mp h
  have hle := putLineFeed_n hline
  split at h
  · simp at h
  · dsimp only at h
    split at h
    · obtain ⟨f₂, hput, h⟩ := Option.bind_eq_some_iff.mp h
      have hn := put_n hput
      split at h
      · simp at h
      · obtain ⟨f₃, hnext, heq⟩ := Option.map_eq_some_iff.mp h
        obtain ⟨rfl, -⟩ := Prod.mk.inj heq
        have hn' := putNext_n hnext
        dsimp only at hn
        omega
    · obtain ⟨f₃, hnext, heq⟩ := Option.map_eq_some_iff.mp h
      obtain ⟨rfl, -⟩ := Prod.mk.inj heq
      have hn' := putNext_n hnext
      dsimp only at hn'
      omega

/-- `while (n < 512)`. -/
def netascii (fs : FileSystem) (f : Filling) : Option Filling :=
  if f.n < 512 then
    match _ : f.turn fs with
    | none => none
    | some (g, false) => some g
    | some (g, true) => netascii fs g
  else some f
termination_by 512 - f.n
decreasing_by
  have hn := turn_n ‹f.turn fs = some (g, true)›
  omega

/-- `inFile.read` with the count of what it read. -/
def binary (fs : FileSystem) (f : Filling) : Option Filling :=
  let r := f.inFile.read fs 512
  (copy { f with inFile := r.1 } r.2).map fun f => { f with n := r.2.length }

/-- A DATA message of a transfer is written, from its opcode on. -/
def block (fs : FileSystem) (mode : TransferMode) (blockCounter : UInt16) (f : Filling) :
    Option Filling :=
  (f.copy (wordBytes MessageType.data.code)).bind fun f =>
    (f.copy (wordBytes blockCounter)).bind fun f =>
      match mode with
      | .ascii => f.netascii fs
      | .binary => f.binary fs

def message (f : Filling) : Datagram := f.sendBuffer.bytes.take f.bytesCount

theorem message_length_le (f : Filling) : f.message.length ≤ bufferSize := by
  have hb := f.sendBuffer.size
  rw [message, List.length_take]
  omega

/-- The message is `header` and `buf`, and the rest stands as the triple says. -/
structure Holds (f : Filling) (header : Bytes) (r : IfStream × Bool × Bytes) : Prop where
  inFile : f.inFile = r.1
  lineFeed : f.lineFeed = r.2.1
  n : f.n = r.2.2.length
  bytesCount : f.bytesCount = header.length + r.2.2.length
  message : f.message = header ++ r.2.2

variable {fs : FileSystem} {f : Filling} {header buf : Bytes} {inFile : IfStream} {lineFeed : Bool}

theorem copy_eq (bytes : Bytes) (h : f.bytesCount + bytes.length ≤ bufferSize) :
    ∃ sendBuffer : Buffer, f.copy bytes =
        some { f with sendBuffer := sendBuffer, bytesCount := f.bytesCount + bytes.length } ∧
      sendBuffer.bytes.take (f.bytesCount + bytes.length) = f.message ++ bytes := by
  unfold copy Buffer.store
  rw [dif_pos h]
  refine ⟨_, rfl, ?_⟩
  have hlength : (f.sendBuffer.bytes.take f.bytesCount ++ bytes).length =
      f.bytesCount + bytes.length := by
    have hb := f.sendBuffer.size
    rw [List.length_append, List.length_take]
    omega
  exact List.take_left' hlength

theorem Holds.copy (h : f.Holds header (inFile, lineFeed, [])) (bytes : Bytes)
    (hroom : header.length + bytes.length ≤ bufferSize) :
    ∃ g, f.copy bytes = some g ∧ g.Holds (header ++ bytes) (inFile, lineFeed, []) := by
  have hcount : f.bytesCount = header.length := h.bytesCount
  obtain ⟨sendBuffer, hcopy, hbytes⟩ := @copy_eq f bytes (hcount ▸ hroom)
  refine ⟨_, hcopy, h.inFile, h.lineFeed, h.n, ?_, ?_⟩
  · simp only [hcount, List.length_append, List.length_nil, Nat.add_zero]
  · rw [Filling.message, hbytes, h.message, List.append_nil, List.append_nil]

theorem Holds.put (h : f.Holds header (inFile, lineFeed, buf)) (hheader : header.length = 4)
    (hroom : buf.length < 512) (x : Byte) :
    ∃ g, f.put x = some g ∧ g.Holds header (inFile, lineFeed, buf ++ [x]) := by
  have hcount : f.bytesCount = header.length + buf.length := h.bytesCount
  obtain ⟨sendBuffer, hcopy, hbytes⟩ := @copy_eq f [x] (by
    rw [hcount, List.length_singleton, bufferSize]
    omega)
  unfold Filling.put
  rw [hcopy]
  refine ⟨_, rfl, h.inFile, h.lineFeed, ?_, ?_, ?_⟩
  · simp only [h.n, List.length_append, List.length_singleton]
  · simp only [hcount, List.length_append, List.length_singleton]
    omega
  · rw [Filling.message, hbytes, h.message, List.append_assoc]

theorem Holds.putLineFeed (h : f.Holds header (inFile, lineFeed, buf)) (hheader : header.length = 4)
    (hroom : buf.length < 512) :
    ∃ g, f.putLineFeed = some g ∧
      g.Holds header (inFile, false, if lineFeed then buf ++ [LF] else buf) := by
  have hline : f.lineFeed = lineFeed := h.lineFeed
  unfold Filling.putLineFeed
  rw [hline]
  cases lineFeed with
  | false => exact ⟨f, rfl, h⟩
  | true =>
    obtain ⟨g, hput, hg⟩ := h.put hheader hroom LF
    rw [if_pos rfl, hput]
    exact ⟨_, rfl, hg.inFile, rfl, hg.n, hg.bytesCount, hg.message⟩

theorem netascii_full (hn : ¬ f.n < 512) : f.netascii fs = some f := by
  rw [Filling.netascii, if_neg hn]

theorem netascii_last {g : Filling} (hn : f.n < 512) (h : f.turn fs = some (g, false)) :
    f.netascii fs = some g := by
  rw [Filling.netascii, if_pos hn]
  split <;> simp_all

theorem netascii_next {g : Filling} (hn : f.n < 512) (h : f.turn fs = some (g, true)) :
    f.netascii fs = g.netascii fs := by
  rw [Filling.netascii, if_pos hn]
  split <;> simp_all

section Turn

variable {f₁ : Filling} {inFile₁ : IfStream} (hline : f.putLineFeed = some f₁)

include hline

theorem turn_end (hpeek : f₁.inFile.peek fs = (inFile₁, none)) :
    f.turn fs = some ({ f₁ with inFile := inFile₁ }, false) := by
  rw [turn, hline, Option.bind_some, hpeek]

theorem turn_byte {x : Byte} (hpeek : f₁.inFile.peek fs = (inFile₁, some x)) (hx : x ≠ LF) :
    f.turn fs = (putNext fs { f₁ with inFile := inFile₁ }).map (·, true) := by
  rw [turn, hline, Option.bind_some, hpeek]
  dsimp only
  rw [if_neg hx]

theorem turn_lineFeed {f₂ : Filling} (hpeek : f₁.inFile.peek fs = (inFile₁, some LF))
    (hput : put { f₁ with inFile := inFile₁ } CR = some f₂) :
    f.turn fs =
      if f₂.n = 512 then some ({ f₂ with inFile := (f₂.inFile.get fs).1, lineFeed := true }, false)
      else (f₂.putNext fs).map (·, true) := by
  rw [turn, hline, Option.bind_some, hpeek]
  dsimp only
  rw [if_pos rfl, hput, Option.bind_some]

end Turn

theorem Holds.with_inFile (h : f.Holds header (inFile, lineFeed, buf)) (inFile' : IfStream) :
    Holds { f with inFile := inFile' } header (inFile', lineFeed, buf) :=
  ⟨rfl, h.lineFeed, h.n, h.bytesCount, h.message⟩

theorem Holds.putNext (h : f.Holds header (inFile, lineFeed, buf)) (hheader : header.length = 4)
    (hroom : buf.length < 512) :
    ∃ g, f.putNext fs = some g ∧
      g.Holds header ((inFile.get fs).1, lineFeed, buf ++ [(inFile.get fs).2.getD 255]) := by
  obtain rfl : f.inFile = inFile := h.inFile
  exact (h.with_inFile _).put hheader hroom _

/-- A turn ends the loop where `fillNetascii` ends, or goes on with what it goes on with. -/
theorem Holds.turn (h : f.Holds header (inFile, lineFeed, buf)) (hheader : header.length = 4)
    (hf : lineFeed = true → buf = []) (hlt : buf.length < 512) :
    (∃ g, f.turn fs = some (g, false) ∧ g.Holds header (fillNetascii fs inFile lineFeed buf)) ∨
    ∃ g inFile' buf', f.turn fs = some (g, true) ∧ g.Holds header (inFile', false, buf') ∧
      buf.length < buf'.length ∧
      fillNetascii fs inFile lineFeed buf = fillNetascii fs inFile' false buf' := by
  obtain ⟨f₁, hline, h₁⟩ := h.putLineFeed hheader hlt
  rw [fillNetascii, if_pos hlt]
  have hbuf : (if lineFeed then buf ++ [LF] else buf).length < 512 := by
    rw [append_lineFeed]
    exact room_lineFeed hlt hf
  have hgrows : buf.length ≤ (if lineFeed then buf ++ [LF] else buf).length := by
    rw [append_lineFeed, List.length_append]
    exact Nat.le_add_right ..
  generalize (if lineFeed then buf ++ [LF] else buf) = buf₁ at h₁ hbuf hgrows ⊢
  have hpeek : f₁.inFile = inFile := h₁.inFile
  rcases hbyte : inFile.peek fs with ⟨inFile₁, next⟩
  rw [← hpeek] at hbyte
  have h₂ := h₁.with_inFile inFile₁
  cases next with
  | none => exact .inl ⟨_, turn_end hline hbyte, h₂⟩
  | some x =>
    dsimp only
    split
    · rename_i hx
      subst hx
      obtain ⟨f₃, hput, h₃⟩ := h₂.put hheader hbuf CR
      have hturn := turn_lineFeed hline hbyte hput
      have hn : f₃.n = (buf₁ ++ [CR]).length := h₃.n
      split
      · rename_i hfull
        rw [if_pos (hn.trans hfull)] at hturn
        obtain rfl : f₃.inFile = inFile₁ := h₃.inFile
        exact .inl ⟨_, hturn, rfl, rfl, h₃.n, h₃.bytesCount, h₃.message⟩
      · rename_i hfull
        rw [if_neg (hn ▸ hfull)] at hturn
        rw [List.length_append, List.length_singleton] at hfull
        obtain ⟨f₄, hnext, h₄⟩ := @Holds.putNext fs _ _ _ _ _ h₃ hheader (by
          rw [List.length_append, List.length_singleton]
          omega)
        rw [hnext] at hturn
        refine .inr ⟨f₄, _, _, hturn, h₄, ?_, rfl⟩
        simp only [List.length_append, List.length_singleton]
        omega
    · rename_i hx
      obtain ⟨f₃, hnext, h₃⟩ := @Holds.putNext fs _ _ _ _ _ h₂ hheader hbuf
      have hturn := turn_byte hline hbyte hx
      rw [hnext] at hturn
      refine .inr ⟨f₃, _, _, hturn, h₃, ?_, rfl⟩
      rw [List.length_append]
      exact Nat.lt_succ_of_le hgrows

theorem Holds.netascii (h : f.Holds header (inFile, lineFeed, buf)) (hheader : header.length = 4)
    (hf : lineFeed = true → buf = []) :
    ∃ g, f.netascii fs = some g ∧ g.Holds header (fillNetascii fs inFile lineFeed buf) := by
  generalize hroom : 512 - buf.length = room
  induction room using Nat.strong_induction_on generalizing f inFile lineFeed buf with
  | _ room ih =>
    have hn : f.n = buf.length := h.n
    by_cases hlt : buf.length < 512
    · rcases @Holds.turn fs _ _ _ _ _ h hheader hf hlt with
        ⟨g, hturn, hg⟩ | ⟨g, inFile', buf', hturn, hg, hmore, heq⟩
      · exact ⟨g, netascii_last (hn ▸ hlt) hturn, hg⟩
      · rw [netascii_next (hn ▸ hlt) hturn, heq]
        exact ih _ (by omega) hg (by simp) rfl
    · rw [fillNetascii, if_neg hlt]
      exact ⟨f, netascii_full (hn ▸ hlt), h⟩

theorem Holds.binary (h : f.Holds header (inFile, lineFeed, [])) (hheader : header.length = 4) :
    ∃ g, f.binary fs = some g ∧ g.Holds header (nextPayload fs .binary inFile lineFeed) := by
  have hcount : f.bytesCount = header.length := h.bytesCount
  obtain rfl : f.inFile = inFile := h.inFile
  have hlength := f.inFile.read_length_le fs 512
  obtain ⟨sendBuffer, hcopy, hbytes⟩ :=
    @copy_eq { f with inFile := (f.inFile.read fs 512).1 } (f.inFile.read fs 512).2 (by
      simp only [hcount, hheader, bufferSize]
      omega)
  unfold Filling.binary
  dsimp only
  rw [hcopy]
  refine ⟨_, rfl, rfl, h.lineFeed, rfl, ?_, ?_⟩
  · simp only [hcount, nextPayload]
  · rw [Filling.message, hbytes]
    exact congrArg (· ++ _) (h.message.trans (List.append_nil _))

theorem block_eq (fs : FileSystem) (mode : TransferMode) (blockCounter : UInt16)
    (inFile : IfStream) (lineFeed : Bool) (sendBuffer : Buffer) :
    ∃ g, block fs mode blockCounter { inFile, lineFeed, sendBuffer } = some g ∧
      g.Holds (wordBytes MessageType.data.code ++ wordBytes blockCounter)
        (nextPayload fs mode inFile lineFeed) := by
  have hstart : Holds { inFile, lineFeed, sendBuffer } [] (inFile, lineFeed, []) :=
    ⟨rfl, rfl, rfl, rfl, rfl⟩
  obtain ⟨f₁, hopcode, h₁⟩ := hstart.copy (wordBytes MessageType.data.code) (by decide)
  obtain ⟨f₂, hcounter, h₂⟩ := h₁.copy (wordBytes blockCounter)
    (show 2 + 2 ≤ bufferSize by decide)
  unfold block
  rw [hopcode, Option.bind_some, hcounter, Option.bind_some]
  cases mode with
  | ascii => exact h₂.netascii rfl fun _ => rfl
  | binary => exact h₂.binary rfl

end Filling

namespace TFTPSessionRead

/-- `sendBlockOfData` up to its call of `send`. -/
def fillSendBuffer (fs : FileSystem) (s : TFTPSessionRead) (sendBuffer : Buffer) :
    Option (TFTPSessionRead × Filling) :=
  let s := { s with blockCounter := s.blockCounter + 1 }
  (Filling.block fs s.transferMode s.blockCounter
    { inFile := s.inFile, lineFeed := s.lineFeed, sendBuffer := sendBuffer }).map fun f =>
      ({ s with
        inFile := f.inFile
        lineFeed := f.lineFeed
        readComplete := s.readComplete || decide (f.n < 512) }, f)

theorem fillSendBuffer_eq (fs : FileSystem) (s : TFTPSessionRead) (sendBuffer : Buffer) :
    ∃ t f, s.fillSendBuffer fs sendBuffer = some (t, f) ∧
      ∀ o, s.sendBlockOfData fs o = (t, t.send o f.message) := by
  obtain ⟨f, hblock, hf⟩ := Filling.block_eq fs s.transferMode (s.blockCounter + 1) s.inFile
    s.lineFeed sendBuffer
  unfold fillSendBuffer
  dsimp only
  rw [hblock, Option.map_some]
  refine ⟨_, f, rfl, fun o => ?_⟩
  simp only [sendBlockOfData, hf.inFile, hf.lineFeed, hf.n, hf.message]
  rfl

/-- One more call of `sendBlockOfData`, with the payload that it fills in. -/
def nextBlock (fs : FileSystem) (s : TFTPSessionRead × Buffer) :
    Option ((TFTPSessionRead × Buffer) × Bytes) :=
  (s.1.fillSendBuffer fs s.2).map fun r => ((r.1, r.2.sendBuffer), r.2.message.drop 4)

/-- The payloads of the calls of `sendBlockOfData` up to the one that sets `_readComplete`. -/
def Sends (fs : FileSystem) (s : TFTPSessionRead) (sendBuffer : Buffer) : List Bytes → Prop :=
  Until (nextBlock fs) (fun s => s.1.readComplete) (s, sendBuffer)

end TFTPSessionRead

namespace PutFile

/-- The ACK branch of the loop behind its checks, up to its call of `send`. -/
def fillSendBuffer (p : PutFile) (sendBuffer : Buffer) : Option (PutFile × Filling) :=
  let p := { p with currBlockNumber := p.currBlockNumber + 1 }
  (Filling.block p.client.files p.client.transferMode p.currBlockNumber
    { inFile := p.inFile, lineFeed := p.lineFeed, sendBuffer := sendBuffer }).map fun f =>
      ({ p with
        inFile := f.inFile
        lineFeed := f.lineFeed
        complete := p.complete || decide (f.n < 512) }, f)

theorem fillSendBuffer_eq (p : PutFile) (sendBuffer : Buffer) :
    ∃ q f, p.fillSendBuffer sendBuffer = some (q, f) ∧
      ∀ o, p.sendNextBlock o =
        if o.sendOk then (.waiting q, [f.message]) else (.returned false q.client, []) := by
  obtain ⟨f, hblock, hf⟩ := Filling.block_eq p.client.files p.client.transferMode
    (p.currBlockNumber + 1) p.inFile p.lineFeed sendBuffer
  have hfits := f.message_length_le
  unfold fillSendBuffer
  dsimp only
  rw [hblock, Option.map_some]
  refine ⟨_, f, rfl, fun o => ?_⟩
  rw [hf.message] at hfits
  simp only [sendNextBlock, hf.inFile, hf.lineFeed, hf.n, hf.message]
  exact if_pos hfits

def nextBlock (p : PutFile × Buffer) : Option ((PutFile × Buffer) × Bytes) :=
  let q := { p.1 with client := p.1.client.recv (ackMessage p.1.currBlockNumber) }
  (fillSendBuffer q p.2).map fun r => ((r.1, r.2.sendBuffer), r.2.message.drop 4)

/-- The payloads of the turns up to the one that sets `complete`. -/
def Sends (p : PutFile) (sendBuffer : Buffer) : List Bytes → Prop :=
  Until nextBlock (fun p => p.1.complete) (p, sendBuffer)

end PutFile

section Segments

variable {fs : FileSystem} {mode : TransferMode} {file : Bytes} {k : ℕ}

theorem TFTPSessionRead.Serving.nextBlock {s : TFTPSessionRead} (h : s.Serving fs mode file k)
    (hk : k < payloads mode file) (sendBuffer : Buffer) :
    ∃ t sendBuffer', TFTPSessionRead.nextBlock fs (s, sendBuffer) =
        some ((t, sendBuffer'), payload mode file k) ∧ t.Serving fs mode file (k+1) := by
  obtain ⟨t, f, hfill, hsend⟩ := s.fillSendBuffer_eq fs sendBuffer
  obtain ⟨hnext, hsent, hep, -, -⟩ := h.sendBlockOfData hk {}
  rw [hsend] at hnext hsent
  have hmessage : f.message = dataMessage (UInt16.ofNat (k+1)) (payload mode file k) :=
    (Prod.mk.inj (List.cons.inj hsent).1).2
  refine ⟨t, f.sendBuffer, ?_, hnext⟩
  rw [TFTPSessionRead.nextBlock, hfill, Option.map_some, hmessage]
  rfl

theorem PutFile.Sending.nextBlock {p : PutFile} (h : p.Sending mode file k)
    (hk : k < payloads mode file) (sendBuffer : Buffer) :
    ∃ q sendBuffer', PutFile.nextBlock (p, sendBuffer) =
        some ((q, sendBuffer'), payload mode file k) ∧ q.Sending mode file (k+1) := by
  have hrecv := h.recv (ackMessage p.currBlockNumber)
  obtain ⟨q, f, hfill, hsend⟩ := PutFile.fillSendBuffer_eq
    { p with client := p.client.recv (ackMessage p.currBlockNumber) } sendBuffer
  obtain ⟨q', hnext, hsent⟩ := (hrecv.sendNextBlock (o := {}) hk).2 rfl
  rw [hsend, if_pos rfl] at hsent
  obtain ⟨hcall, hmessages⟩ := Prod.mk.inj hsent
  obtain rfl := Call.waiting.inj hcall
  have hmessage := (List.cons.inj hmessages).1
  refine ⟨q, f.sendBuffer, ?_, hnext⟩
  rw [PutFile.nextBlock, hfill, Option.map_some, hmessage]
  rfl

def segments (mode : TransferMode) (file : Bytes) : List Bytes :=
  (List.range (payloads mode file)).map (payload mode file)

theorem TFTPSessionRead.Serving.sends {s : TFTPSessionRead} (h : s.Serving fs mode file 0)
    (sendBuffer : Buffer) : s.Sends fs sendBuffer (segments mode file) := by
  rw [segments, List.range_eq_range']
  refine until_of_stages (fun k s => s.1.Serving fs mode file k) _ (payloads mode file) ?_
    (Blocks.count_pos _) h
  rintro k ⟨s, sendBuffer⟩ hk hserving
  obtain ⟨t, sendBuffer', hstep, hnext⟩ := hserving.nextBlock hk sendBuffer
  exact ⟨(t, sendBuffer'), hstep, hnext, hnext.complete⟩

theorem PutFile.Sending.sends {p : PutFile} (h : p.Sending mode file 0) (sendBuffer : Buffer) :
    p.Sends sendBuffer (segments mode file) := by
  rw [segments, List.range_eq_range']
  refine until_of_stages (fun k p => p.1.Sending mode file k) _ (payloads mode file) ?_
    (Blocks.count_pos _) h
  rintro k ⟨p, sendBuffer⟩ hk hsending
  obtain ⟨q, sendBuffer', hstep, hnext⟩ := hsending.nextBlock hk sendBuffer
  exact ⟨(q, sendBuffer'), hstep, hnext, hnext.complete⟩

end Segments

/-- Server and client cut a netascii file into the same payloads without a write past the end of
their buffers: all together are the encoded file, and exactly the last one is short. -/
theorem netascii_segmentation (fs : FileSystem) (s : TFTPSessionRead) (name file : Bytes)
    (c : TFTPClient) (o : ClientOutcomes) (src dst : Bytes) (p : PutFile) (request : List Datagram)
    (serverBuffer clientBuffer : Buffer) (hfresh : s.Fresh) (hmode : s.transferMode = .ascii)
    (hfile : fs.lookup name = some file) (hclient : c.transferMode = .ascii)
    (hsrc : c.files.lookup src = some file)
    (hput : c.putFile o src dst = (.waiting p, request)) :
    ∃ payloads : List Bytes,
      (∀ sent, TFTPSessionRead.Sends fs { s with inFile := s.inFile.openFile fs name true }
        serverBuffer sent ↔ sent = payloads) ∧
      (∀ sent, p.Sends clientBuffer sent ↔ sent = payloads) ∧
      payloads.flatten = encode .ascii file ∧
      ∃ full last, payloads = full ++ [last] ∧ (∀ b ∈ full, b.length = 512) ∧
        last.length < 512 := by
  have hserver := (hfresh.serving hfile hmode).sends serverBuffer
  have hsending : p.Sending .ascii file 0 := by
    rcases c.putFile_cases o src dst with ⟨c', hreturned⟩ | ⟨file', q, hsrc', hq, hwaiting⟩
    · rw [hreturned] at hput
      simp at hput
    · rw [hwaiting] at hput
      obtain rfl := Call.waiting.inj (Prod.mk.inj hput).1
      rw [hsrc] at hsrc'
      rwa [← Option.some.inj hsrc', hclient] at hq
  have hclient' := hsending.sends clientBuffer
  refine ⟨segments .ascii file, fun sent => ⟨fun h => h.unique hserver, ?_⟩,
    fun sent => ⟨fun h => h.unique hclient', ?_⟩, ?_, ?_⟩
  · rintro rfl
    exact hserver
  · rintro rfl
    exact hclient'
  · exact (Blocks.flatten_take _ _).trans (Blocks.take_count _ (by decide))
  · exact Blocks.blocks_eq_concat _ (by decide)

/-- The line feed behind 511 bytes is cut in two. -/
theorem netascii_segmentation_cut :
    let file : Bytes := List.replicate 511 97 ++ [LF]
    let files := FileSystem.single [97] file
    ∃ payloads : List Bytes,
      TFTPSessionRead.Sends files { ep := ⟨0, 0⟩, inFile := { file := some [97] } } .blank
        payloads ∧
      PutFile.Sends { client := .init .ascii files, inFile := { file := some [97] } } .blank
        payloads ∧
      payloads.flatten = List.replicate 511 97 ++ [CR, LF] ∧
      ∃ full last, payloads = full ++ [last] ∧ (∀ b ∈ full, b.length = 512) ∧
        last.length < 512 := by
  intro file files
  have hfile : files.lookup [97] = some file := rfl
  obtain ⟨payloads, hserver, hclient, hflatten, hlengths⟩ := netascii_segmentation files
    { ep := ⟨0, 0⟩ } [97] file (.init .ascii files) {} [97] [98]
    { client := .init .ascii files, inFile := { file := some [97] } }
    [requestMessage .wrq [98] .ascii] .blank .blank ⟨rfl, rfl, rfl, rfl⟩ rfl hfile rfl hfile rfl
  refine ⟨payloads, (hserver _).mpr rfl, (hclient _).mpr rfl, ?_, hlengths⟩
  have hletter : (if (97 : Byte) = LF then [CR, LF] else [97]) = [97] := if_neg (by decide)
  rw [hflatten, encode, List.flatMap_append, List.flatMap_replicate, hletter,
    List.flatten_replicate_singleton, List.flatMap_singleton, if_pos rfl]

end Tftp
end NetworkProtocols
