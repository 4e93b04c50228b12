import Mathlib.Data.List.Basic
import Mathlib.Tactic.Common

/-!
# Bytes, host-order words and C strings

A `char` is the byte it stores, a `std::uint16_t` is a `UInt16`. `std::memcpy` of a
word copies its bytes in host order, low byte first on the targets of the build.
-/

namespace NetworkProtocols

abbrev Byte := UInt8

/-- A byte string: a datagram, the bytes of a file, the characters of a `std::string`. -/
abbrev Bytes := List Byte

def CR : Byte := 13
def LF : Byte := 10
def space : Byte := 32

namespace Bytes

def chars (s : String) : Bytes := s.toList.map fun c => UInt8.ofNat c.toNat

/-- `std::isspace` and `std::isdigit` of the C locale. -/
def isSpace (b : Byte) : Bool := b == space || (9 ≤ b && b ≤ 13)
def isDigit (b : Byte) : Bool := 48 ≤ b && b ≤ 57

def decimal (n : ℕ) : Bytes := (Nat.toDigits 10 n).map fun c => UInt8.ofNat c.toNat
def digitsValue (digits : Bytes) : ℕ := digits.foldl (fun n b => 10 * n + (b.toNat - 48)) 0

def word (lo hi : Byte) : UInt16 := UInt16.ofNat (lo.toNat + 256 * hi.toNat)

def lowByte (w : UInt16) : Byte := UInt8.ofNat w.toNat
def highByte (w : UInt16) : Byte := UInt8.ofNat (w.toNat / 256)

/-- The two bytes `memcpy` writes for a 16-bit value. -/
def wordBytes (w : UInt16) : Bytes := [lowByte w, highByte w]

theorem word_toNat (lo hi : Byte) : (word lo hi).toNat = lo.toNat + 256 * hi.toNat := by
  have hl := lo.toNat_lt
  have hh := hi.toNat_lt
  rw [word, UInt16.toNat_ofNat']
  omega

@[simp] theorem word_bytes (w : UInt16) : word (lowByte w) (highByte w) = w := by
  have hw := w.toNat_lt
  apply UInt16.toNat.inj
  rw [word_toNat, lowByte, highByte, UInt8.toNat_ofNat', UInt8.toNat_ofNat']
  omega

theorem word_inj {a b c d : Byte} : word a b = word c d ↔ a = c ∧ b = d := by
  constructor
  · intro h
    have ha := a.toNat_lt
    have hc := c.toNat_lt
    have hn := congrArg UInt16.toNat h
    rw [word_toNat, word_toNat] at hn
    exact ⟨UInt8.toNat.inj (by omega), UInt8.toNat.inj (by omega)⟩
  · rintro ⟨rfl, rfl⟩
    rfl

theorem word_eq_iff {a b : Byte} {w : UInt16} : word a b = w ↔ a = lowByte w ∧ b = highByte w := by
  rw [← word_inj, word_bytes]

@[simp] theorem wordBytes_length (w : UInt16) : (wordBytes w).length = 2 := rfl

theorem ofNat_inj {i j : ℕ} (hi : i < 65536) (hj : j < 65536)
    (h : UInt16.ofNat i = UInt16.ofNat j) : i = j := by
  have hn := congrArg UInt16.toNat h
  rw [UInt16.toNat_ofNat', UInt16.toNat_ofNat'] at hn
  omega

@[simp] theorem ofNat_succ (i : ℕ) : UInt16.ofNat (i + 1) = UInt16.ofNat i + 1 := by
  apply UInt16.toNat.inj
  simp

theorem infix_of_mem_splitOn {α : Type*} [BEq α] [LawfulBEq α] {sep : α} {bytes part : List α}
    (h : part ∈ bytes.splitOn sep) : part <:+: bytes := by
  have hall : ∀ parts : List (List α), part ∈ parts → part <:+: [sep].intercalate parts := by
    intro parts
    induction parts with
    | nil => exact fun hmem => nomatch hmem
    | cons first parts ih =>
      intro hmem
      cases parts with
      | nil =>
        have heq : part = first := List.mem_singleton.mp hmem
        rw [List.intercalate_singleton]
        exact heq ▸ List.infix_rfl
      | cons next parts =>
        rw [List.intercalate_cons_cons]
        rcases List.mem_cons.mp hmem with rfl | hmem
        · exact List.infix_append_of_infix_left List.infix_append_left
        · exact List.infix_append_of_infix_right (ih hmem)
  rw [← @List.intercalate_splitOn α bytes _ _ sep]
  exact hall _ h

theorem length_le_of_mem_splitOn {α : Type*} [BEq α] [LawfulBEq α] {sep : α}
    {bytes part : List α} (h : part ∈ bytes.splitOn sep) : part.length ≤ bytes.length :=
  (infix_of_mem_splitOn h).length_le

/-- The pieces between separators hold none. -/
theorem notMem_of_mem_splitOn {α : Type*} [BEq α] [LawfulBEq α] {sep : α} {bytes part : List α}
    (h : part ∈ bytes.splitOn sep) : sep ∉ part := by
  induction bytes generalizing part with
  | nil =>
    rw [List.splitOn_nil, List.mem_singleton] at h
    rw [h]
    exact List.not_mem_nil
  | cons b bytes ih =>
    rw [List.splitOn_cons_eq_if_modifyHead] at h
    split at h
    · rcases List.mem_cons.mp h with rfl | h
      · exact List.not_mem_nil
      · exact ih h
    · rename_i hb
      obtain ⟨first, rest, hsplit⟩ := List.exists_cons_of_ne_nil (List.splitOn_ne_nil sep bytes)
      rw [hsplit, List.modifyHead_cons] at h
      rcases List.mem_cons.mp h with rfl | h
      · rw [List.mem_cons, not_or]
        refine ⟨fun heq => hb (by simp [heq]), ih ?_⟩
        rw [hsplit]
        exact List.mem_cons_self
      · refine ih ?_
        rw [hsplit]
        exact List.mem_cons_of_mem _ h

/-- `std::string(const char*)`: the bytes up to the first NUL. `none` is a read that runs
off the end of the storage without meeting one. -/
def cString : Bytes → Option Bytes
  | [] => none
  | b :: bs => if b = 0 then some [] else (cString bs).map (b :: ·)

theorem cString_append (s rest : Bytes) (hs : 0 ∉ s) : cString (s ++ 0 :: rest) = some s := by
  induction s with
  | nil => simp [cString]
  | cons b s ih =>
    have hb : b ≠ 0 := fun h => hs (by simp [h])
    have ht : 0 ∉ s := fun h => hs (by simp [h])
    simp [cString, hb, ih ht]

theorem cString_eq_none {bs : Bytes} : cString bs = none ↔ 0 ∉ bs := by
  induction bs with
  | nil => simp [cString]
  | cons b bs ih =>
    by_cases hb : b = 0
    · simp [cString, hb]
    · simp [cString, hb, Ne.symm hb, ih]

theorem cString_isSome_iff {bs : Bytes} : (cString bs).isSome ↔ 0 ∈ bs := by
  rw [Option.isSome_iff_ne_none, ne_eq, cString_eq_none, not_not]

theorem cString_eq_some {bs s : Bytes} :
    cString bs = some s ↔ 0 ∉ s ∧ ∃ rest, bs = s ++ 0 :: rest := by
  constructor
  · intro h
    induction bs generalizing s with
    | nil => simp [cString] at h
    | cons b bs ih =>
      by_cases hb : b = 0
      · simp only [cString, hb, if_true, Option.some.injEq] at h
        subst h
        exact ⟨by simp, bs, by simp [hb]⟩
      · simp only [cString, hb, if_false, Option.map_eq_some_iff] at h
        obtain ⟨t, ht, rfl⟩ := h
        obtain ⟨hz, rest, rfl⟩ := ih ht
        exact ⟨by simp [hz, Ne.symm hb], rest, by simp⟩
  · rintro ⟨hs, rest, rfl⟩
    exact cString_append s rest hs

theorem cString_append_of_some {bs s : Bytes} (t : Bytes) (h : cString bs = some s) :
    cString (bs ++ t) = some s := by
  obtain ⟨hs, rest, rfl⟩ := cString_eq_some.mp h
  rw [List.append_assoc]
  exact cString_append s (rest ++ t) hs

theorem cString_drop_append {bs s : Bytes} {i : ℕ} (t : Bytes) (h : cString (bs.drop i) = some s) :
    cString ((bs ++ t).drop i) = some s := by
  have hi : i ≤ bs.length := by
    by_contra hlt
    rw [List.drop_eq_nil_of_le (by omega)] at h
    cases h
  rw [List.drop_append_of_le_length hi]
  exact cString_append_of_some t h

theorem cString_drop_append_none {bs t : Bytes} {i : ℕ} (h : cString (bs.drop i) = none)
    (ht : 0 ∉ t.drop (i - bs.length)) : cString ((bs ++ t).drop i) = none := by
  rw [cString_eq_none] at h ⊢
  rw [List.drop_append, List.mem_append]
  exact not_or.mpr ⟨h, ht⟩

end Bytes
end NetworkProtocols
