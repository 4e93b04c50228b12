import Mathlib.Data.List.GetD
import Mathlib.Logic.Function.Basic
import NetworkProtocols.Lib.Bytes

/-!
# A terminal of one line

A line of unbounded width. A printable byte is written at the cursor and advances it, `ESC[2K`
blanks the line under the cursor, and `ESC[nD` moves the cursor left as far as there is line.
-/

namespace NetworkProtocols
namespace Terminal

open Bytes

def blank : Byte := 0x20
def escape : Byte := 0x1B

def Printable (b : Byte) : Prop := 0x20 ≤ b ∧ b ≤ 0x7E

instance (b : Byte) : Decidable (Printable b) := inferInstanceAs (Decidable (_ ∧ _))

/-- Outside of a control sequence, behind its first byte, or in its number. -/
inductive Mode
  | text | introduced | parameter (n : ℕ)
  deriving DecidableEq

structure Screen where
  cells : ℕ → Byte := fun _ => blank
  cursor : ℕ := 0
  mode : Mode := .text

namespace Screen

def put (b : Byte) (t : Screen) : Screen :=
  { t with cells := Function.update t.cells t.cursor b, cursor := t.cursor + 1 }

/-- The end of a control sequence with its number; the terminal knows two of them. -/
def control (n : ℕ) (final : Byte) (t : Screen) : Screen :=
  if final = 0x4B ∧ n = 2 then { t with cells := fun _ => blank }
  else if final = 0x44 then { t with cursor := t.cursor - n }
  else t

def receive (t : Screen) (b : Byte) : Screen :=
  match t.mode with
  | .text =>
    if b = escape then { t with mode := .introduced }
    else if Printable b then t.put b
    else t
  | .introduced => { t with mode := if b = 0x5B then .parameter 0 else .text }
  | .parameter n =>
    if 0x30 ≤ b ∧ b ≤ 0x39 then { t with mode := .parameter (10 * n + (b.toNat - 48)) }
    else { t.control n b with mode := .text }

def display (t : Screen) (bytes : Bytes) : Screen := bytes.foldl receive t

theorem display_append (t : Screen) (a b : Bytes) :
    t.display (a ++ b) = (t.display a).display b := List.foldl_append

theorem receive_printable {t : Screen} {b : Byte} (hmode : t.mode = .text) (hb : Printable b) :
    t.receive b = t.put b := by
  have hescape : b ≠ escape := by
    rintro rfl
    exact absurd hb (by decide)
  rw [receive, hmode]
  dsimp only
  rw [if_neg hescape, if_pos hb]

theorem display_cursor {t : Screen} (hmode : t.mode = .text) {text : Bytes}
    (htext : ∀ b ∈ text, Printable b) : (t.display text).cursor = t.cursor + text.length := by
  induction text generalizing t with
  | nil => rfl
  | cons b text ih =>
    obtain ⟨hb, hrest⟩ := List.forall_mem_cons.mp htext
    have hput : (t.put b).mode = .text := hmode
    rw [display, List.foldl_cons, receive_printable hmode hb, ← display, ih hput hrest]
    simp only [put, List.length_cons]
    omega

def sequence (digits : Bytes) (final : Byte) : Bytes := escape :: 0x5B :: (digits ++ [final])

theorem display_digits {t : Screen} {n : ℕ} (hmode : t.mode = .parameter n) {digits : Bytes}
    (hdigits : ∀ b ∈ digits, 0x30 ≤ b ∧ b ≤ 0x39) :
    t.display digits = { t with
      mode := .parameter (digits.foldl (fun n b => 10 * n + (b.toNat - 48)) n) } := by
  induction digits generalizing t n with
  | nil => simp [display, ← hmode]
  | cons b digits ih =>
    obtain ⟨hb, hrest⟩ := List.forall_mem_cons.mp hdigits
    have hone : t.receive b = { t with mode := .parameter (10 * n + (b.toNat - 48)) } := by
      rw [receive, hmode]
      dsimp only
      rw [if_pos hb]
    rw [display, List.foldl_cons, hone, ← display, ih rfl hrest, List.foldl_cons]

/-- The terminal does what its control sequence says, and is back in the text. -/
theorem display_sequence {t : Screen} (hmode : t.mode = .text) {digits : Bytes}
    (hdigits : ∀ b ∈ digits, 0x30 ≤ b ∧ b ≤ 0x39) {final : Byte}
    (hfinal : ¬ (0x30 ≤ final ∧ final ≤ 0x39)) :
    t.display (sequence digits final) =
      { t.control (digitsValue digits) final with mode := .text } := by
  have hstart : t.display (sequence digits final) =
      { t with mode := .parameter 0 }.display (digits ++ [final]) := by
    have hfirst : t.receive escape = { t with mode := .introduced } := by
      rw [receive, hmode]
      rfl
    rw [sequence, display, List.foldl_cons, List.foldl_cons, hfirst]
    rfl
  rw [hstart, display_append, display_digits rfl hdigits, display, List.foldl_cons,
    List.foldl_nil, receive]
  dsimp only
  rw [if_neg hfinal]
  unfold control digitsValue
  split
  · rfl
  · split <;> rfl

end Screen

/-- The line shows a text from its start, and the cursor stands behind it. -/
structure Shows (text : Bytes) (t : Screen) : Prop where
  cells : ∀ i, t.cells i = text.getD i blank
  cursor : t.cursor = text.length
  mode : t.mode = .text

theorem shows_empty : Shows [] {} := ⟨fun _ => rfl, rfl, rfl⟩

theorem Shows.put {text : Bytes} {t : Screen} (h : Shows text t) (b : Byte) :
    Shows (text ++ [b]) (t.put b) := by
  refine ⟨fun i => ?_, ?_, h.mode⟩
  · rw [Screen.put, h.cursor]
    dsimp only
    rcases Nat.lt_trichotomy i text.length with hlt | heq | hgt
    · rw [Function.update_of_ne (Nat.ne_of_lt hlt), h.cells, List.getD_append _ _ _ _ hlt]
    · rw [heq, Function.update_self]
      simp
    · rw [Function.update_of_ne (Nat.ne_of_gt hgt), h.cells,
        List.getD_eq_default _ _ (Nat.le_of_lt hgt), List.getD_eq_default]
      rw [List.length_append, List.length_singleton]
      exact hgt
  · rw [Screen.put, h.cursor, List.length_append, List.length_singleton]

theorem Shows.display {text : Bytes} {t : Screen} (h : Shows text t) {more : Bytes}
    (hmore : ∀ b ∈ more, Printable b) : Shows (text ++ more) (t.display more) := by
  induction more generalizing text t with
  | nil =>
    rw [List.append_nil]
    exact h
  | cons b more ih =>
    obtain ⟨hb, hrest⟩ := List.forall_mem_cons.mp hmore
    have hshown := ih (h.put b) hrest
    rw [List.append_assoc, List.singleton_append] at hshown
    rw [Screen.display, List.foldl_cons, Screen.receive_printable h.mode hb]
    exact hshown

theorem Shows.erased {text : Bytes} {t : Screen} (h : Shows text t) {digits : Bytes}
    (hdigits : ∀ b ∈ digits, 0x30 ≤ b ∧ b ≤ 0x39) :
    (t.display (Screen.sequence [0x32] 0x4B)).display (Screen.sequence digits 0x44) =
      { cells := fun _ => blank, cursor := text.length - digitsValue digits, mode := .text } := by
  have htwo : ∀ b ∈ [(0x32 : Byte)], 0x30 ≤ b ∧ b ≤ 0x39 :=
    List.forall_mem_singleton.mpr (by decide)
  have herase : t.display (Screen.sequence [0x32] 0x4B) = { t with cells := fun _ => blank } := by
    rw [Screen.display_sequence h.mode htwo (by decide), Screen.control, if_pos ⟨rfl, rfl⟩,
      ← h.mode]
  have hmode : ({ t with cells := fun _ => blank } : Screen).mode = .text := h.mode
  rw [herase, Screen.display_sequence hmode hdigits (by decide), Screen.control,
    if_neg fun hk => absurd hk.1 (by decide), if_pos rfl, h.cursor]

end Terminal
end NetworkProtocols
