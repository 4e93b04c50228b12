import NetworkProtocols.Lib.Blocks
import NetworkProtocols.Tftp.Payload

/-!
# What a transfer sends and stores

The abstract view of both programs: a file is encoded for its transfer mode, cut into
blocks of 512 bytes, and stored block by block. The loops of the two programs compute
exactly this.
-/

namespace NetworkProtocols
namespace Tftp

open Blocks

/-- The bytes on the wire: in netascii every line feed becomes CR LF. -/
def encode : TransferMode → Bytes → Bytes
  | .binary, file => file
  | .ascii, file => file.flatMap fun b => if b = LF then [CR, LF] else [b]

/-- The bytes that are stored: in netascii every carriage return is dropped. -/
def decode : TransferMode → Bytes → Bytes
  | .binary, bytes => bytes
  | .ascii, bytes => bytes.filter (· ≠ CR)

@[simp] theorem decode_append (mode : TransferMode) (a b : Bytes) :
    decode mode (a ++ b) = decode mode a ++ decode mode b := by
  cases mode <;> simp [decode]

@[simp] theorem decode_nil (mode : TransferMode) : decode mode [] = [] := by
  cases mode <;> rfl

theorem decode_encode (mode : TransferMode) (file : Bytes) :
    decode mode (encode mode file) = decode mode file := by
  cases mode with
  | binary => rfl
  | ascii =>
    induction file with
    | nil => rfl
    | cons b file ih =>
      have hcons : encode .ascii (b :: file) =
          (if b = LF then [CR, LF] else [b]) ++ encode .ascii file := rfl
      have hsplit : decode .ascii (b :: file) = decode .ascii [b] ++ decode .ascii file := by
        rw [← decode_append, List.singleton_append]
      rw [hcons, decode_append, ih, hsplit]
      by_cases hb : b = LF
      · subst hb
        rfl
      · rw [if_neg hb]

/-- The `i`-th payload of a file, counted from zero. -/
def payload (mode : TransferMode) (file : Bytes) (i : ℕ) : Bytes := block 512 (encode mode file) i

def payloads (mode : TransferMode) (file : Bytes) : ℕ := count 512 (encode mode file)

theorem payload_length_le (mode : TransferMode) (file : Bytes) (i : ℕ) :
    (payload mode file i).length ≤ 512 := block_length_le _ _ _

theorem payload_short_iff {mode : TransferMode} {file : Bytes} {i : ℕ}
    (hi : i < payloads mode file) :
    (payload mode file i).length < 512 ↔ i + 1 = payloads mode file :=
  block_short_iff _ (by decide) hi

/-- What is stored after the first `k` payloads. -/
def stored (mode : TransferMode) (file : Bytes) (k : ℕ) : Bytes :=
  decode mode ((encode mode file).take (512 * k))

@[simp] theorem stored_zero (mode : TransferMode) (file : Bytes) : stored mode file 0 = [] := by
  simp [stored]

theorem stored_succ (mode : TransferMode) (file : Bytes) (k : ℕ) :
    stored mode file (k + 1) = stored mode file k ++ decode mode (payload mode file k) := by
  rw [stored, take_succ, decode_append]
  rfl

theorem stored_all (mode : TransferMode) (file : Bytes) :
    stored mode file (payloads mode file) = decode mode file := by
  rw [stored, payloads, take_count _ (by decide), decode_encode]

/-- What the sending side still has to send: a pending line feed and the unread bytes. -/
def pending (fs : FileSystem) (mode : TransferMode) (inFile : IfStream) (lineFeed : Bool) : Bytes :=
  match mode with
  | .binary => inFile.unread fs
  | .ascii => (if lineFeed then [LF] else []) ++ encode .ascii (inFile.unread fs)

theorem encode_ascii_cons (b : Byte) (rest : Bytes) :
    encode .ascii (b :: rest) = (if b = LF then [CR, LF] else [b]) ++ encode .ascii rest := rfl

theorem unread_of_pending_nil {fs : FileSystem} {mode : TransferMode} {inFile : IfStream}
    {lineFeed : Bool} (h : pending fs mode inFile lineFeed = []) : inFile.unread fs = [] := by
  cases mode with
  | binary => exact h
  | ascii =>
    unfold pending at h
    cases hu : inFile.unread fs with
    | nil => rfl
    | cons b rest =>
      rw [hu, encode_ascii_cons] at h
      by_cases hb : b = LF <;> simp [hb] at h

/-- A result of the filling loop: behind `buf` as much of the bytes as fits, and the rest of
them is pending. -/
structure Fills (fs : FileSystem) (file : Option Path) (buf bytes : Bytes)
    (result : IfStream × Bool × Bytes) : Prop where
  payload : result.2.2 = buf ++ bytes.take (512 - buf.length)
  rest : pending fs .ascii result.1 result.2.1 = bytes.drop (512 - buf.length)
  readable : result.1.Readable fs
  file : result.1.file = file

theorem Fills.consume {fs : FileSystem} {file : Option Path} {buf p bytes : Bytes}
    {result : IfStream × Bool × Bytes} (hroom : (buf ++ p).length ≤ 512)
    (h : Fills fs file (buf ++ p) bytes result) : Fills fs file buf (p ++ bytes) result := by
  have hcut : 512 - buf.length = p.length + (512 - (buf ++ p).length) := by
    rw [List.length_append] at hroom ⊢
    omega
  refine ⟨?_, ?_, h.readable, h.file⟩
  · rw [h.payload, hcut, List.take_length_add_append, List.append_assoc]
  · rw [h.rest, hcut, List.drop_length_add_append]

theorem Fills.full {fs : FileSystem} {inFile : IfStream} (hr : inFile.Readable fs)
    (lineFeed : Bool) {buf : Bytes} (hfull : 512 ≤ buf.length) :
    Fills fs inFile.file buf (pending fs .ascii inFile lineFeed) (inFile, lineFeed, buf) := by
  have hnone : 512 - buf.length = 0 := Nat.sub_eq_zero_of_le hfull
  refine ⟨?_, ?_, hr, rfl⟩
  · rw [hnone, List.take_zero, List.append_nil]
  · rw [hnone, List.drop_zero]

theorem append_lineFeed (lineFeed : Bool) (buf : Bytes) :
    (if lineFeed = true then buf ++ [LF] else buf) =
      buf ++ if lineFeed = true then [LF] else [] := by
  cases lineFeed <;> simp

theorem room_lineFeed {lineFeed : Bool} {buf : Bytes} (hlt : buf.length < 512)
    (hf : lineFeed = true → buf = []) :
    (buf ++ if lineFeed = true then [LF] else []).length < 512 := by
  cases lineFeed with
  | false => simpa using hlt
  | true => simp [hf rfl]

theorem Fills.newline {fs : FileSystem} {inFile : IfStream} {buf : Bytes}
    {result : IfStream × Bool × Bytes} (hr : inFile.Readable fs) (hbuf : buf.length < 512)
    (hlater : Fills fs inFile.file (buf ++ [CR, LF]) (encode .ascii (inFile.unread fs)) result) :
    Fills fs inFile.file buf ([CR, LF] ++ encode .ascii (inFile.unread fs))
      (if (buf ++ [CR]).length = 512 then (inFile, true, buf ++ [CR]) else result) := by
  split
  · rename_i hfull
    have hline : [CR, LF] ++ encode .ascii (inFile.unread fs) =
        [CR] ++ pending fs .ascii inFile true := by simp [pending]
    rw [hline]
    exact .consume hfull.le (.full hr true hfull.ge)
  · rename_i hfull
    have hroom : (buf ++ [CR, LF]).length ≤ 512 := by
      rw [List.length_append, List.length_singleton] at hfull
      rw [List.length_append, List.length_cons, List.length_singleton]
      omega
    exact .consume hroom hlater

/-- The filling loop appends as much of the pending bytes as fits and leaves the rest
pending. The induction is on the unread bytes: each turn but the last consumes one. -/
theorem fillNetascii_spec (fs : FileSystem) (inFile : IfStream) (lineFeed : Bool) (buf : Bytes)
    (hr : inFile.Readable fs) (hf : lineFeed = true → buf = []) :
    Fills fs inFile.file buf (pending fs .ascii inFile lineFeed)
      (fillNetascii fs inFile lineFeed buf) := by
  generalize hu : inFile.unread fs = u
  induction u generalizing inFile lineFeed buf with
  | nil =>
    obtain ⟨hp, hn, hfile⟩ := IfStream.peek_end hu
    have hpair : inFile.peek fs = ((inFile.peek fs).1, none) := by rw [← hp]
    rw [fillNetascii]
    split
    · rename_i hlt
      have hpend : pending fs .ascii inFile lineFeed =
          (if lineFeed = true then [LF] else []) ++ [] := by
        simp only [pending, hu]
        rfl
      rw [hpair, hpend, append_lineFeed]
      refine .consume (room_lineFeed hlt hf).le ⟨by simp, ?_, .inr hn, hfile⟩
      simp [pending, hn, encode]
    · rename_i hfull
      exact .full hr lineFeed (Nat.le_of_not_lt hfull)
  | cons b rest ih =>
    have hg : inFile.good = true := hr.good (by simp [hu])
    rw [fillNetascii]
    split
    · rename_i hlt
      have hbuf := room_lineFeed hlt hf
      have hpend : pending fs .ascii inFile lineFeed =
          (if lineFeed = true then [LF] else []) ++ encode .ascii (b :: rest) := by
        simp only [pending, hu]
      rw [hpend, append_lineFeed]
      refine .consume hbuf.le ?_
      generalize buf ++ (if lineFeed = true then [LF] else []) = buf at hbuf
      simp only [IfStream.peek_byte hg hu, IfStream.get_byte hg hu, Option.getD_some]
      have hnext : IfStream.unread fs { inFile with pos := inFile.pos + 1 } = rest :=
        IfStream.get_unread hu
      have hgood : IfStream.Readable fs { inFile with pos := inFile.pos + 1 } := .inl hg
      -- The turns behind this one start without a pending line feed.
      have hlater : ∀ buf', Fills fs inFile.file buf' (encode .ascii rest)
          (fillNetascii fs { inFile with pos := inFile.pos + 1 } false buf') := by
        intro buf'
        have hturns := ih { inFile with pos := inFile.pos + 1 } false buf' hgood (by simp) hnext
        simpa [pending, hnext] using hturns
      by_cases hb : b = LF
      · subst hb
        rw [if_pos rfl, encode_ascii_cons, if_pos rfl, List.append_assoc buf, ← hnext]
        exact .newline hgood hbuf (hnext ▸ hlater _)
      · rw [if_neg hb, encode_ascii_cons, if_neg hb]
        have hroom : (buf ++ [b]).length ≤ 512 := by
          rw [List.length_append, List.length_singleton]
          omega
        exact .consume hroom (hlater _)
    · rename_i hfull
      exact .full hr lineFeed (Nat.le_of_not_lt hfull)

theorem nextPayload_spec (fs : FileSystem) (mode : TransferMode) (inFile : IfStream)
    (lineFeed : Bool) (hr : inFile.Readable fs) :
    (nextPayload fs mode inFile lineFeed).2.2 = (pending fs mode inFile lineFeed).take 512 ∧
    pending fs mode (nextPayload fs mode inFile lineFeed).1
        (nextPayload fs mode inFile lineFeed).2.1 = (pending fs mode inFile lineFeed).drop 512 ∧
    (nextPayload fs mode inFile lineFeed).1.Readable fs ∧
    (nextPayload fs mode inFile lineFeed).1.file = inFile.file := by
  cases mode with
  | binary => exact IfStream.read_spec hr 512
  | ascii =>
    have hfills := fillNetascii_spec fs inFile lineFeed [] hr fun _ => rfl
    unfold nextPayload
    exact ⟨by simpa using hfills.payload, by simpa using hfills.rest, hfills.readable,
      hfills.file⟩

theorem storePayload_open (fs : FileSystem) (mode : TransferMode) (outFile : OfStream) {p : Path}
    (hf : outFile.fail = false) (hp : outFile.file = some p) (bytes : Bytes) :
    storePayload fs mode outFile bytes = (outFile, fs.append p (decode mode bytes)) := by
  cases mode with
  | binary => exact OfStream.write_open hf hp bytes
  | ascii =>
    unfold storePayload
    induction bytes generalizing fs with
    | nil => simp [storeNetascii, decode]
    | cons b bytes ih =>
      by_cases hb : b = CR
      · simp [storeNetascii, hb, ih, decode]
      · have hput : outFile.put fs b = (outFile, fs.append p [b]) := OfStream.write_open hf hp [b]
        simp [storeNetascii, hb, hput, ih, decode, FileSystem.append_append]

/-- A stream that failed or was never opened stores nothing. -/
theorem storePayload_useless (fs : FileSystem) (mode : TransferMode) (outFile : OfStream)
    (h : outFile.fail = true ∨ outFile.file = none) (bytes : Bytes) :
    (storePayload fs mode outFile bytes).2 = fs ∧
    (storePayload fs mode outFile bytes).1.file = outFile.file ∧
    ((storePayload fs mode outFile bytes).1.fail = true ∨
      (storePayload fs mode outFile bytes).1.file = none) := by
  cases mode with
  | binary => exact OfStream.write_useless fs h bytes
  | ascii =>
    unfold storePayload
    induction bytes generalizing outFile with
    | nil => exact ⟨rfl, rfl, h⟩
    | cons b bytes ih =>
      by_cases hb : b = CR
      · simpa [storeNetascii, hb] using ih outFile h
      · obtain ⟨hfs, hfile, hu⟩ := OfStream.write_useless fs h [b]
        have hput : outFile.put fs b = outFile.write fs [b] := rfl
        simp only [storeNetascii, if_neg hb, hput, hfs]
        obtain ⟨h1, h2, h3⟩ := ih (outFile.write fs [b]).1 hu
        exact ⟨h1, h2.trans hfile, h3⟩

end Tftp
end NetworkProtocols
