import NetworkProtocols.Lib.Scan
import NetworkProtocols.Smtp.Session

/-!
# The address in a command

`getAddress` again, with reads that fail outside the memory. Its second loop counts from the
bracket and reads from the byte behind it, so it looks at one byte more than the buffer has.
-/

namespace NetworkProtocols
namespace Smtp

open Bytes

def stopsAt (bracket b : Byte) : Bool := b == bracket || b == CR || b == LF

/-- `getAddress` on a memory; none when it reads a byte that is not there. -/
def getAddressIn (memory : Bytes) : Option Bytes := do
  let (left, addrBegin) ← Scan.scan (stopsAt less) memory commandBufferSize 0
  if left = 0 then return []
  let b ← memory[addrBegin]?
  if b ≠ less then return []
  let (left, addrEnd) ← Scan.scan (stopsAt greater) memory left (addrBegin + 1)
  if left = 0 then return []
  let b ← memory[addrEnd]?
  if b ≠ greater then return []
  return (memory.drop (addrBegin + 1)).take (addrEnd - (addrBegin + 1))

def Free (bracket : Byte) (text : Bytes) : Prop := bracket ∉ text ∧ CR ∉ text ∧ LF ∉ text

/-- The buffer has the text in brackets, with nothing in front that ends the search. -/
def Bracketed (buffer text : Bytes) : Prop :=
  ∃ front rest, buffer = front ++ less :: (text ++ greater :: rest) ∧
    Free less front ∧ Free greater text

/-- What is asked of `getAddress`: it reads bytes of the buffer only, its result is the text in
brackets if there is one, and empty in every other case. -/
structure Extracts (buffer : Bytes) (result : Option Bytes) : Prop where
  inside : result.isSome = true
  text : ∀ text, text ≠ [] → (result = some text ↔ Bracketed buffer text)
  other : (∀ text, text ≠ [] → ¬ Bracketed buffer text) → result = some []

/-- A bracket opens, and the search for its end comes to the end of the buffer. -/
def Unclosed (buffer : Bytes) : Prop :=
  ∃ front text, buffer = front ++ less :: text ∧ Free less front ∧ Free greater text

theorem free_iff {bracket : Byte} {text : Bytes} :
    Free bracket text ↔ ∀ b ∈ text, stopsAt bracket b = false := by
  simp only [stopsAt, Bool.or_eq_false_iff, beq_eq_false_iff_ne, Free]
  constructor
  · rintro ⟨hbracket, hcr, hlf⟩ b hb
    exact ⟨⟨fun h => hbracket (h ▸ hb), fun h => hcr (h ▸ hb)⟩, fun h => hlf (h ▸ hb)⟩
  · intro h
    exact ⟨fun hb => (h _ hb).1.1 rfl, fun hb => (h _ hb).1.2 rfl, fun hb => (h _ hb).2 rfl⟩

section Search

variable {memory front text rest : Bytes} {b : Byte}

theorem drop_behind (hmemory : memory = front ++ b :: rest) :
    memory.drop (front.length + 1) = rest :=
  Scan.drop_succ (hmemory ▸ List.drop_left)

theorem getAddressIn_none (hlength : memory.length = commandBufferSize)
    (hmemory : Free less memory) : getAddressIn memory = some [] := by
  have hdrop : memory.drop 0 = memory ++ [] := by rw [List.drop_zero, List.append_nil]
  have hscan := Scan.scan_through hdrop (free_iff.mp hmemory)
  rw [hlength] at hscan
  simp [getAddressIn, hscan]

theorem getAddressIn_line (hmemory : memory = front ++ b :: rest) (hfront : Free less front)
    (hb : stopsAt less b = true) (hne : b ≠ less) (hlength : front.length < commandBufferSize) :
    getAddressIn memory = some [] := by
  have hdrop : memory.drop 0 = front ++ b :: rest := hmemory
  have hscan := Scan.scan_found hdrop (free_iff.mp hfront) hb hlength
  have hread : memory[front.length]? = some b := by simp [hmemory]
  rw [Nat.zero_add] at hscan
  simp [getAddressIn, hscan, hread, hne]

/-- A bracket opens, and the second loop goes on behind it. -/
theorem getAddressIn_open (hmemory : memory = front ++ less :: rest) (hfront : Free less front)
    (hlength : front.length < commandBufferSize) :
    getAddressIn memory = do
      let (left, addrEnd) ← Scan.scan (stopsAt greater) memory (commandBufferSize - front.length)
        (front.length + 1)
      if left = 0 then return []
      let b ← memory[addrEnd]?
      if b ≠ greater then return []
      return rest.take (addrEnd - (front.length + 1)) := by
  have hstart : memory.drop 0 = front ++ less :: rest := hmemory
  have hscan := Scan.scan_found hstart (free_iff.mp hfront) rfl hlength
  have hread : memory[front.length]? = some less := by simp [hmemory]
  have hne : commandBufferSize - front.length ≠ 0 := Nat.sub_ne_zero_of_lt hlength
  have hdrop := drop_behind hmemory
  rw [Nat.zero_add] at hscan
  rw [getAddressIn, hscan]
  simp only [Option.bind_eq_bind, Option.bind_some, hne, if_false, hread, hdrop, ne_eq,
    not_true_eq_false]

theorem getAddressIn_past (hmemory : memory = front ++ less :: text) (hfront : Free less front)
    (htext : Free greater text) (hlength : front.length + text.length < commandBufferSize) :
    getAddressIn memory = none := by
  have hdrop := drop_behind hmemory
  have hleft : text.length < commandBufferSize - front.length := by omega
  have hscan := Scan.scan_past hdrop (free_iff.mp htext) hleft
  rw [getAddressIn_open hmemory hfront (by omega), hscan]
  rfl

theorem getAddressIn_found (hmemory : memory = front ++ less :: (text ++ b :: rest))
    (hfront : Free less front) (htext : Free greater text) (hb : stopsAt greater b = true)
    (hlength : front.length + text.length < commandBufferSize) :
    getAddressIn memory = some (if b = greater then text else []) := by
  have hdrop := drop_behind hmemory
  have hleft : text.length < commandBufferSize - front.length := by omega
  have hscan := Scan.scan_found hdrop (free_iff.mp htext) hb hleft
  have hread : memory[front.length + 1 + text.length]? = some b := by
    rw [← List.head?_drop, ← List.drop_drop, hdrop, List.drop_left, List.head?_cons]
  have hne : commandBufferSize - front.length - text.length ≠ 0 := by omega
  rw [getAddressIn_open hmemory hfront (by omega), hscan]
  simp only [Option.bind_eq_bind, Option.bind_some, hne, if_false, hread]
  by_cases hgreater : b = greater
  · simp [hgreater]
  · simp [hgreater]

theorem getAddressIn_through (hmemory : memory = front ++ less :: text) (hfront : Free less front)
    (htext : Free greater text) (hlength : front.length + text.length = commandBufferSize)
    (hne : text ≠ []) : getAddressIn memory = some [] := by
  have hpos := List.length_pos_iff.mpr hne
  have hdrop : memory.drop (front.length + 1) = text ++ [] := by
    rw [drop_behind hmemory, List.append_nil]
  have hleft : commandBufferSize - front.length = text.length := by omega
  rw [getAddressIn_open hmemory hfront (by omega), hleft,
    Scan.scan_through hdrop (free_iff.mp htext)]
  rfl

/-- What is behind the memory makes no difference to a search that stays inside. -/
theorem getAddressIn_append {address : Bytes} (h : getAddressIn memory = some address)
    (more : Bytes) : getAddressIn (memory ++ more) = some address := by
  have hread : ∀ {p : ℕ} {b : Byte}, memory[p]? = some b →
      p < memory.length ∧ (memory ++ more)[p]? = some b := by
    intro p b hb
    have hlt := (List.getElem?_eq_some_iff.mp hb).1
    exact ⟨hlt, (List.getElem?_append_left hlt).trans hb⟩
  unfold getAddressIn at h ⊢
  obtain ⟨⟨left, addrBegin⟩, hfirst, h⟩ := Option.bind_eq_some_iff.mp h
  refine Option.bind_eq_some_iff.mpr ⟨_, Scan.scan_append hfirst more, ?_⟩
  dsimp only at h ⊢
  split at h
  · rename_i hzero
    rwa [if_pos hzero]
  rename_i hleft
  rw [if_neg hleft]
  obtain ⟨b, hb, h⟩ := Option.bind_eq_some_iff.mp h
  refine Option.bind_eq_some_iff.mpr ⟨_, (hread hb).2, ?_⟩
  split at h
  · rename_i hne
    rwa [if_pos hne]
  rename_i hless
  rw [if_neg hless]
  obtain ⟨⟨left', addrEnd⟩, hsecond, h⟩ := Option.bind_eq_some_iff.mp h
  refine Option.bind_eq_some_iff.mpr ⟨_, Scan.scan_append hsecond more, ?_⟩
  dsimp only at h ⊢
  split at h
  · rename_i hzero
    rwa [if_pos hzero]
  rename_i hleft'
  rw [if_neg hleft']
  obtain ⟨b', hb', h⟩ := Option.bind_eq_some_iff.mp h
  obtain ⟨hlt, hb''⟩ := hread hb'
  refine Option.bind_eq_some_iff.mpr ⟨_, hb'', ?_⟩
  split at h
  · rename_i hne
    rwa [if_pos hne]
  rename_i hgreater
  have hbegin := (hread hb).1
  rw [if_neg hgreater, List.drop_append_of_le_length hbegin, List.take_append_of_le_length, h]
  rw [List.length_drop]
  omega

end Search

section InBuffer

variable {buffer : Bytes}

theorem getAddressIn_bracketed {text : Bytes} (hlength : buffer.length = commandBufferSize)
    (h : Bracketed buffer text) : getAddressIn buffer = some text := by
  obtain ⟨front, rest, hbuffer, hfront, htext⟩ := h
  have hlen := congrArg List.length hbuffer
  simp only [List.length_append, List.length_cons, hlength] at hlen
  rw [getAddressIn_found hbuffer hfront htext rfl (by omega), if_pos rfl]

theorem getAddressIn_unclosed (hlength : buffer.length = commandBufferSize) (h : Unclosed buffer) :
    getAddressIn buffer = none := by
  obtain ⟨front, text, hbuffer, hfront, htext⟩ := h
  have hlen := congrArg List.length hbuffer
  simp only [List.length_append, List.length_cons, hlength] at hlen
  exact getAddressIn_past hbuffer hfront htext (by omega)

/-- Apart from an unclosed bracket, the result is empty or a text in brackets. -/
theorem getAddressIn_cases (hlength : buffer.length = commandBufferSize) :
    Unclosed buffer ∨ getAddressIn buffer = some [] ∨
      ∃ text, Bracketed buffer text ∧ getAddressIn buffer = some text := by
  rcases Scan.split_cases (stopsAt less) buffer with hfree | ⟨front, b, rest, hbuffer, hfront, hb⟩
  · exact .inr (.inl (getAddressIn_none hlength (free_iff.mpr hfree)))
  have hfront : Free less front := free_iff.mpr hfront
  have hlen := congrArg List.length hbuffer
  simp only [List.length_append, List.length_cons, hlength] at hlen
  by_cases hless : b = less
  swap
  · exact .inr (.inl (getAddressIn_line hbuffer hfront hb hless (by omega)))
  subst hless
  rcases Scan.split_cases (stopsAt greater) rest with hfree | ⟨text, b, rest, rfl, htext, hb⟩
  · exact .inl ⟨front, rest, hbuffer, hfront, free_iff.mpr hfree⟩
  have htext : Free greater text := free_iff.mpr htext
  rw [List.length_append] at hlen
  have hfound := getAddressIn_found hbuffer hfront htext hb (by omega)
  by_cases hgreater : b = greater
  · subst hgreater
    rw [if_pos rfl] at hfound
    exact .inr (.inr ⟨text, ⟨front, rest, hbuffer, hfront, htext⟩, hfound⟩)
  · rw [if_neg hgreater] at hfound
    exact .inr (.inl hfound)

end InBuffer

/-- For every content of the buffer, `getAddress` does what is asked of it if and only if no bracket
is left unclosed to the end of the buffer. -/
theorem address_extracted_iff (buffer : Buffer) :
    Extracts buffer.bytes (getAddressIn buffer.bytes) ↔ ¬ Unclosed buffer.bytes := by
  have hlength : buffer.bytes.length = commandBufferSize := buffer.size
  constructor
  · intro h hunclosed
    have hinside := h.inside
    rw [getAddressIn_unclosed hlength hunclosed] at hinside
    cases hinside
  · intro hclosed
    have hbracketed : ∀ text, Bracketed buffer.bytes text → getAddressIn buffer.bytes = some text :=
      fun text => getAddressIn_bracketed hlength
    rcases (getAddressIn_cases hlength).resolve_left hclosed with hempty | ⟨found, hfound, hresult⟩
    · refine ⟨by rw [hempty]; rfl, fun text hne => ⟨fun h => ?_, hbracketed text⟩, fun _ => hempty⟩
      exact absurd (Option.some.inj (h.symm.trans hempty)) hne
    · refine ⟨by rw [hresult]; rfl, fun text hne => ⟨fun h => ?_, hbracketed text⟩, fun h => ?_⟩
      · exact Option.some.inj (hresult.symm.trans h) ▸ hfound
      · by_cases hnil : found = []
        · rw [hresult, hnil]
        · exact absurd hfound (h found hnil)

/-- A command of 512 bytes whose bracket stays open: the second loop reads the byte behind the
buffer. -/
theorem address_reads_past : ¬ ∀ buffer : Buffer,
    Extracts buffer.bytes (getAddressIn buffer.bytes) := by
  intro h
  let buffer : Buffer := (Buffer.full 97).fill (chars "MAIL FROM:<")
  have hbytes : buffer.bytes = chars "MAIL FROM:" ++ less :: List.replicate 501 97 := by
    change (chars "MAIL FROM:<").take recvBufferSize ++ (List.replicate 512 97).drop 11 = _
    rw [List.drop_replicate]
    rfl
  have hfree : Free greater (List.replicate 501 97) := by
    rw [free_iff]
    intro b hb
    rw [List.eq_of_mem_replicate hb]
    rfl
  have hfront : Free less (chars "MAIL FROM:") := free_iff.mpr (Scan.forall_of_any rfl)
  have hinside := (h buffer).inside
  rw [getAddressIn_unclosed buffer.size ⟨_, _, hbytes, hfront, hfree⟩] at hinside
  cases hinside

namespace SMTPSession

variable (s : SMTPSession)

theorem memory_length : s.memory.length = commandBufferSize + 1 := by
  rw [memory, List.length_append, s.recvBuffer.size, List.length_singleton]
  rfl

/-- With the byte behind the buffer nothing more is read, and the result is that of the session. -/
theorem getAddressIn_memory : getAddressIn s.memory = some s.getAddress := by
  have hlength := s.memory_length
  obtain ⟨i, hi⟩ : ∃ i, i = (s.memory.take commandBufferSize).findIdx (stopsAt less) := ⟨_, rfl⟩
  obtain ⟨n, hn⟩ : ∃ n, n = ((s.memory.drop (i + 1)).take (commandBufferSize - i)).findIdx
      (stopsAt greater) := ⟨_, rfl⟩
  have hle : i ≤ commandBufferSize :=
    hi ▸ Nat.le_trans List.findIdx_le_length (List.length_take_le commandBufferSize _)
  have hnle : n ≤ commandBufferSize - i :=
    hn ▸ Nat.le_trans List.findIdx_le_length (List.length_take_le (commandBufferSize - i) _)
  have hfirst : Scan.scan (stopsAt less) s.memory commandBufferSize 0 =
      some (commandBufferSize - i, i) := by
    rw [Scan.scan_inside (by omega), List.drop_zero, ← hi, Nat.zero_add]
  have hsecond : Scan.scan (stopsAt greater) s.memory (commandBufferSize - i) (i + 1) =
      some (commandBufferSize - i - n, i + 1 + n) := by
    rw [Scan.scan_inside (by omega), ← hn]
  have hread : ∀ p, p ≤ commandBufferSize → ∃ b, s.memory[p]? = some b ∧ s.memory.getD p 0 = b := by
    intro p hp
    have hget := List.getElem?_eq_getElem (show p < s.memory.length by omega)
    exact ⟨_, hget, by rw [List.getD_eq_getElem?_getD, hget, Option.getD_some]⟩
  have haddress : s.getAddress =
      if i = commandBufferSize ∨ s.memory.getD i 0 ≠ less then []
      else if i + n = commandBufferSize ∨ s.memory.getD (i + 1 + n) 0 ≠ greater then []
      else (s.memory.drop (i + 1)).take n := by
    subst hn hi
    rfl
  obtain ⟨b, hb, hbyte⟩ := hread i hle
  rw [haddress, getAddressIn, hfirst, hbyte]
  by_cases hend : i = commandBufferSize
  · simp [hend]
  have hleft : commandBufferSize - i ≠ 0 := by omega
  by_cases hless : b = less
  swap
  · simp [hleft, hb, hless]
  by_cases hend' : i + n = commandBufferSize
  · have hleft' : commandBufferSize - i - n = 0 := by omega
    simp [hleft, hb, hless, hsecond, hleft', hend']
  have hleft' : commandBufferSize - i - n ≠ 0 := by omega
  obtain ⟨b', hb', hbyte'⟩ := hread (i + 1 + n) (by omega)
  rw [hbyte']
  by_cases hgreater : b' = greater
  · simp [hleft, hb, hless, hsecond, hleft', hend, hend', hb', hgreater]
  · simp [hleft, hb, hless, hsecond, hleft', hb', hgreater]

theorem getAddress_eq (hclosed : ¬ Unclosed s.recvBuffer.bytes) :
    getAddressIn s.recvBuffer.bytes = some s.getAddress := by
  obtain ⟨address, haddress⟩ : ∃ address, getAddressIn s.recvBuffer.bytes = some address := by
    rcases (getAddressIn_cases s.recvBuffer.size).resolve_left hclosed with h | ⟨text, -, h⟩
    · exact ⟨[], h⟩
    · exact ⟨text, h⟩
  have hmemory := getAddressIn_append haddress [UInt8.ofNat s.recvLength]
  rw [haddress, ← s.getAddressIn_memory]
  exact hmemory.symm

/-- Behind a bracket that is left unclosed, the low byte of the length of the last read decides. -/
theorem getAddress_unclosed {front text : Bytes}
    (hbuffer : s.recvBuffer.bytes = front ++ less :: text) (hfront : Free less front)
    (htext : Free greater text) :
    s.getAddress = if UInt8.ofNat s.recvLength = greater then text else [] := by
  have hmemory : s.memory = front ++ less :: (text ++ [UInt8.ofNat s.recvLength]) := by
    rw [memory, hbuffer, List.append_assoc, List.cons_append]
  have hlen := congrArg List.length hbuffer
  simp only [List.length_append, List.length_cons, s.recvBuffer.size, recvBufferSize] at hlen
  have haddress := s.getAddressIn_memory
  by_cases hb : stopsAt greater (UInt8.ofNat s.recvLength) = true
  · rw [getAddressIn_found hmemory hfront htext hb (by rw [commandBufferSize]; omega)] at haddress
    exact (Option.some.inj haddress).symm
  · have hne : UInt8.ofNat s.recvLength ≠ greater := fun h => hb (by rw [h]; rfl)
    have hall : Free greater (text ++ [UInt8.ofNat s.recvLength]) := by
      rw [free_iff, List.forall_mem_append, List.forall_mem_singleton]
      exact ⟨free_iff.mp htext, Bool.eq_false_iff.mpr hb⟩
    have hcount : front.length + (text ++ [UInt8.ofNat s.recvLength]).length =
        commandBufferSize := by
      rw [List.length_append, List.length_singleton, commandBufferSize]
      omega
    rw [getAddressIn_through hmemory hfront hall hcount (by simp)] at haddress
    rw [if_neg hne, Option.some.inj haddress]

end SMTPSession

end Smtp
end NetworkProtocols
