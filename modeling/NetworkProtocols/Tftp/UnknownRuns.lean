import NetworkProtocols.Lib.Insertion
import NetworkProtocols.Tftp.FailedGet
import NetworkProtocols.Tftp.Isolation

/-!
# Calls among unknown messages

What a message leaves in the receive buffer for the next one, when that is cut inside its opcode,
its number or its code, and the rule for two runs of one call, one of them with messages of unknown
type inserted.
-/

namespace NetworkProtocols
namespace Tftp

open Bytes Insertion Isolation

/-- A waiting call takes an answer, and a call that has returned takes none. -/
def Call.next {L : Type} (turn : L → ClientOutcomes → Option Datagram → Call L × List Datagram) :
    Call L → Answer → Call L × List Datagram
  | .waiting locals, a => turn locals a.1 a.2
  | .returned result c, _ => (.returned result c, [])
  | .aborted c, _ => (.aborted c, [])

inductive Status
  | waiting | returned (result : Bool) | aborted
  deriving DecidableEq

/-- Where a call stands, and the files of the client's host. -/
def Call.see {L : Type} (client : L → TFTPClient) : Call L → Status × FileSystem
  | .waiting locals => (.waiting, (client locals).files)
  | .returned result c => (.returned result, c.files)
  | .aborted c => (.aborted, c.files)

/-- A datagram of at least two bytes whose opcode is neither ERROR nor the awaited one. -/
def IsUnknown (awaited : MessageType) (a : Answer) : Prop :=
  ∃ d, a.2 = some d ∧ 2 ≤ d.length ∧ opcode d ≠ MessageType.error.code ∧
    opcode d ≠ awaited.code

/-- The opcode of the datagram is this one, or its first byte alone does not exclude it. -/
def MayBe (data : Buffer) (d : Datagram) (type : MessageType) : Prop :=
  (data.fill d).word 0 = type.code ∨ d ≠ [] ∧ Fits d 0 type.code

/-- What may be an ERROR has its code, or bytes of it that exclude all the codes of the protocol. -/
def ErrorDecided (data : Buffer) (d : Datagram) : Prop :=
  MayBe data d .error → 2 ≤ d.length ∧ (4 ≤ d.length ∨ ∀ w ≤ 8, ¬ Fits d 2 w)

section Buffer

variable {b b' : Buffer} {d : Datagram} {i : ℕ} {w : UInt16}

theorem fits_take_iff (hi : i + 1 < bufferSize) : Fits (d.take bufferSize) i w ↔ Fits d i w := by
  rw [Fits, Fits, List.getElem?_take_of_lt (Nat.lt_of_succ_lt hi), List.getElem?_take_of_lt hi]

theorem fits_fill (b : Buffer) (d : Datagram) (hi : i + 1 < bufferSize) :
    Fits d i ((b.fill d).word i) := by
  rw [← fits_take_iff hi, ← fill_take]
  exact b.fits_word (length_take_le d) i

theorem fill_word (hi : i + 1 < bufferSize) (h : Fits d i w)
    (hlow : d.length ≤ i → b.bytes.getD i 0 = lowByte w)
    (hhigh : d.length ≤ i + 1 → b.bytes.getD (i + 1) 0 = highByte w) : (b.fill d).word i = w := by
  rw [← fill_take]
  refine b.word_fill (length_take_le d) ((fits_take_iff hi).mpr h) ?_ ?_
  · rw [List.length_take]
    exact fun hle => hlow (by omega)
  · rw [List.length_take]
    exact fun hle => hhigh (by omega)

theorem Fits.with_high (h : Fits d i w) (x : Byte) (hd : d.length ≤ i + 1) :
    Fits d i (Bytes.word (lowByte w) x) := by
  have hlow := (word_eq_iff.mp (Eq.refl (Bytes.word (lowByte w) x))).1
  refine ⟨fun y hy => (h.1 y hy).trans hlow, fun y hy => ?_⟩
  rw [List.getElem?_eq_none hd] at hy
  cases hy

theorem fill_word_of_le (hi : i + 1 < bufferSize) (hd : i + 2 ≤ d.length) (b b' : Buffer) :
    (b.fill d).word i = (b'.fill d).word i :=
  fill_word hi (fits_fill b' d hi) (fun hle => by omega) fun hle => by omega

theorem word_zero_fill (b : Buffer) (hd : 2 ≤ d.length) : (b.fill d).word 0 = opcode d :=
  (opcode_eq_of_fits hd ((fits_take_iff (by decide)).mpr (fits_fill b d (by decide)))).symm

theorem fill_nil (b : Buffer) : b.fill [] = b := rfl

theorem block_fill (b : Buffer) (hd : 4 ≤ d.length) :
    ((b.fill d).bytes.drop 4).take (sizeSub (min d.length bufferSize) 4) =
      (d.take bufferSize).drop 4 := by
  have hlen : (d.take bufferSize).length = min d.length bufferSize := by
    rw [List.length_take, Nat.min_comm]
  have hfour : 4 ≤ (d.take bufferSize).length := by
    rw [hlen, bufferSize]
    omega
  have hle := length_take_le d
  have hslice := b.slice_fill hfour hle
  rw [fill_take, Buffer.slice, if_pos (by omega)] at hslice
  rw [← hlen, sizeSub_of_le hfour hle]
  exact Option.some.inj hslice

/-- The second buffer has the opcode of the first, or that of an inserted message. -/
def OpcodeAlike (awaited : MessageType) (b b' : Buffer) : Prop :=
  b'.word 0 = b.word 0 ∨ b'.word 0 ≠ MessageType.error.code ∧ b'.word 0 ≠ awaited.code

theorem OpcodeAlike.of_unknown {awaited : MessageType} (b b' : Buffer) (hd : 2 ≤ d.length)
    (herror : opcode d ≠ MessageType.error.code) (hawaited : opcode d ≠ awaited.code) :
    OpcodeAlike awaited b (b'.fill d) := by
  refine .inr ?_
  rw [word_zero_fill b' hd]
  exact ⟨herror, hawaited⟩

theorem OpcodeAlike.fill_iff {awaited type : MessageType} (h : OpcodeAlike awaited b b')
    (htype : type = .error ∨ type = awaited) (hwhole : MayBe b d type → 2 ≤ d.length) :
    (b'.fill d).word 0 = type.code ↔ (b.fill d).word 0 = type.code := by
  by_cases hd : 2 ≤ d.length
  · rw [fill_word_of_le (by decide) hd b' b]
  have hno : ¬ MayBe b d type := fun hmay => hd (hwhole hmay)
  refine iff_of_false (fun hw => hno ?_) fun hw => hno (.inl hw)
  by_cases hnil : d = []
  · subst hnil
    rw [fill_nil] at hw
    rcases h with heq | ⟨herror, hawaited⟩
    · exact .inl (heq.symm.trans hw)
    · rcases htype with rfl | rfl
      · exact absurd hw herror
      · exact absurd hw hawaited
  · exact .inr ⟨hnil, hw ▸ fits_fill b' d (by decide)⟩

theorem ErrorDecided.listed_iff (h : ErrorDecided b d) (b' : Buffer)
    (hw : (b.fill d).word 0 = MessageType.error.code) :
    (b'.fill d).word 2 ≤ 8 ↔ (b.fill d).word 2 ≤ 8 := by
  obtain ⟨-, hlong | hnone⟩ := h (.inl hw)
  · rw [fill_word_of_le (by decide) hlong b' b]
  · exact iff_of_false (fun hle => hnone _ hle (fits_fill b' d (by decide)))
      fun hle => hnone _ hle (fits_fill b d (by decide))

/-- A message of an unknown type, with a byte for the second half of a cut opcode and a word for
a cut number or code. -/
def filler (x : Byte) (w : UInt16) : Datagram := [9, x] ++ wordBytes w

theorem opcode_filler (x : Byte) (w : UInt16) (type : MessageType) :
    opcode (filler x w) ≠ type.code := by
  intro h
  have hlow : (9 : Byte) = lowByte type.code := (word_eq_iff.mp h).1
  cases type <;> exact absurd hlow (by decide)

theorem isUnknown_filler (x : Byte) (w : UInt16) (awaited : MessageType) :
    IsUnknown awaited ({}, some (filler x w)) :=
  ⟨_, rfl, show 2 ≤ 4 by decide, opcode_filler x w _, opcode_filler x w _⟩

theorem fill_filler_zero (b : Buffer) (x : Byte) (w : UInt16) (hd : d ≠ []) {v : UInt16}
    (h : Fits d 0 v) (hx : x = highByte v) : ((b.fill (filler x w)).fill d).word 0 = v := by
  refine fill_word (by decide) h (fun hle => absurd (List.length_eq_zero_iff.mp (by omega)) hd) ?_
  exact fun _ => hx

theorem fill_filler_two (b : Buffer) (x : Byte) (h : Fits d 2 w) :
    ((b.fill (filler x w)).fill d).word 2 = w :=
  fill_word (by decide) h (fun _ => rfl) fun _ => rfl

theorem fill_filler_unknown (b : Buffer) (w : UInt16) (hd : d.length < 2) (type : MessageType) :
    ((b.fill (filler 1 w)).fill d).word 0 ≠ type.code := by
  intro h
  have hhigh := (word_eq_iff.mp h).2
  have hone : ((b.fill (filler 1 w)).fill d).bytes.getD (0 + 1) 0 = 1 := by
    rw [Buffer.getD_fill_of_le _ (by rw [bufferSize]; omega) (by omega)]
    rfl
  rw [hone] at hhigh
  cases type <;> exact absurd hhigh (by decide)

/-- A message that is not cut inside its opcode is of a type that it may be. -/
theorem MayBe.word {type : MessageType} (h : MayBe b d type) (hd : 2 ≤ d.length) (b' : Buffer) :
    (b'.fill d).word 0 = type.code := by
  rcases h with hw | ⟨-, hfits⟩
  · exact (fill_word_of_le (by decide) hd b' b).trans hw
  · exact fill_word (by decide) hfits (fun hle => by omega) fun hle => by omega

/-- What is seen of a turn for the message `d`, as the buffer behind the message decides it. -/
structure Decides (awaited : MessageType) (d : Datagram)
    (v : Buffer → (Status × FileSystem) × List Datagram) : Prop where
  ignored : ∀ b, (b.fill d).word 0 ≠ MessageType.error.code → (b.fill d).word 0 ≠ awaited.code →
    (v b).1.1 = .waiting ∧ (v b).2 = []
  reported : ∀ b, (b.fill d).word 0 = MessageType.error.code →
    (v b).1.1 = if (b.fill d).word 2 ≤ 8 then .returned false else .aborted
  taken : ∀ b, (b.fill d).word 0 = awaited.code → ¬ ((v b).1.1 = .waiting ∧ (v b).2 = [])

section Decides

variable {awaited type : MessageType} {v : Buffer → (Status × FileSystem) × List Datagram}
  (h : Decides awaited d v) (hsame : ∀ x w, v (b.fill (filler x w)) = v b)

include h hsame

theorem Decides.two_le (htype : type = .error ∨ type = awaited) (hmay : MayBe b d type) :
    2 ≤ d.length := by
  by_contra hcut
  have hcut : d.length < 2 := by omega
  have hignored := h.ignored _ (fill_filler_unknown b 0 hcut _) (fill_filler_unknown b 0 hcut _)
  rw [hsame] at hignored
  have hnot : ∀ b', v b' = v b → (b'.fill d).word 0 ≠ type.code := by
    intro b' hb' hw
    rcases htype with rfl | rfl
    · have hreported := h.reported b' hw
      rw [hb', hignored.1] at hreported
      split at hreported <;> cases hreported
    · exact h.taken b' hw (hb' ▸ hignored)
  rcases hmay with hw | ⟨hne, hfits⟩
  · exact hnot b rfl hw
  · exact hnot _ (hsame _ 0) (fill_filler_zero b _ 0 hne hfits rfl)

/-- An ERROR cut inside its code is listed behind one filler and not behind another. -/
theorem Decides.errorDecided : ErrorDecided b d := by
  intro hmay
  have htwo := h.two_le hsame (.inl rfl) hmay
  have herror := hmay.word htwo
  refine ⟨htwo, ?_⟩
  by_contra hopen
  obtain ⟨hcut, hfits⟩ := not_or.mp hopen
  push Not at hfits
  obtain ⟨w, hlisted, hfits⟩ := hfits
  have hother := hfits.with_high 1 (by omega)
  have hunlisted : ¬ Bytes.word (lowByte w) 1 ≤ 8 := by
    rw [UInt16.le_iff_toNat_le, Bytes.word_toNat]
    exact not_le.mpr (lt_of_lt_of_le (by decide) (Nat.le_add_left _ _))
  have hin := h.reported _ (herror (b.fill (filler 0 w)))
  have hout := h.reported _ (herror (b.fill (filler 0 (Bytes.word (lowByte w) 1))))
  rw [hsame, fill_filler_two b 0 hfits, if_pos hlisted] at hin
  rw [hsame, fill_filler_two b 0 hother, if_neg hunlisted, hin] at hout
  cases hout

end Decides

end Buffer

theorem TFTPClient.writeErrorMessage_cases {c : TFTPClient} {d : Datagram}
    (hw : (c.recvBuffer.fill d).word 0 = MessageType.error.code) :
    ((c.recvBuffer.fill d).word 2 ≤ 8 ∧ ∃ report, (c.recv d).writeErrorMessage = some report) ∨
      (¬ (c.recvBuffer.fill d).word 2 ≤ 8 ∧ (c.recv d).writeErrorMessage = none) := by
  have hlisted : (c.recv d).writeErrorMessage.isSome ↔ (c.recvBuffer.fill d).word 2 ≤ 8 :=
    writeErrorMessage_isSome_iff hw
  cases hreport : (c.recv d).writeErrorMessage with
  | none =>
    rw [hreport] at hlisted
    exact .inr ⟨fun hle => Bool.false_ne_true (hlisted.mpr hle), rfl⟩
  | some report =>
    rw [hreport] at hlisted
    exact .inl ⟨hlisted.mp rfl, report, rfl⟩

section Calls

variable {L : Type} {turn : L → ClientOutcomes → Option Datagram → Call L × List Datagram}
  {client : L → TFTPClient} {Same : L → L → Prop}

/-- Both calls wait with locals that are the same for the run to come, or neither waits and nothing
is seen of a difference. -/
inductive Call.Alike (client : L → TFTPClient) (Same : L → L → Prop) : Call L → Call L → Prop
  | waiting {locals locals'} : Same locals locals' → Alike client Same (.waiting locals)
      (.waiting locals')
  | ended {c c'} : (Call.see client c).1 ≠ .waiting → Call.see client c' = Call.see client c →
      Alike client Same c c'

theorem Call.next_ended {c : Call L} (h : (Call.see client c).1 ≠ .waiting) (a : Answer) :
    Call.next turn c a = (c, []) := by
  cases c with
  | waiting locals => exact absurd rfl h
  | returned result c => rfl
  | aborted c => rfl

def Call.TurnsAlike (client : L → TFTPClient) (Same : L → L → Prop)
    (r r' : Call L × List Datagram) : Prop :=
  r'.2 = r.2 ∧ Call.Alike client Same r.1 r'.1

theorem Call.TurnsAlike.of_seen {r r' : Call L × List Datagram}
    {v : (Status × FileSystem) × List Datagram} (hr : seen (Call.see client) r = v)
    (hr' : seen (Call.see client) r' = v) (hv : v.1.1 ≠ .waiting) :
    Call.TurnsAlike client Same r r' := by
  subst hr
  obtain ⟨hsee, hsent⟩ := Prod.mk.inj hr'
  exact ⟨hsent, .ended hv hsee⟩

/-- The rule for a call: what one turn needs and keeps decides about the run. -/
theorem Call.undisturbed_iff (Inv : L → Prop) (Same : L → L → Prop) {awaited : MessageType}
    {Fine : Call L → Answer → Prop} (hrefl : ∀ l, Inv l → Same l l)
    (hfiles : ∀ l l', Same l l' → (client l').files = (client l).files)
    (hinv : ∀ l (a : Answer) l', Inv l → (turn l a.1 a.2).1 = .waiting l' → Inv l')
    (hended : ∀ c a, (Call.see client c).1 ≠ .waiting → Fine c a)
    (hkeep : ∀ l l' (a : Answer), Same l l' → Fine (.waiting l) a →
      Call.TurnsAlike client Same (turn l a.1 a.2) (turn l' a.1 a.2))
    (hextra : ∀ l l' (a : Answer), Same l l' → IsUnknown awaited a →
      ∃ l'', turn l' a.1 a.2 = (.waiting l'', []) ∧ Same l l'')
    (hneeded : ∀ l a, Inv l → (∀ extra, (∀ x ∈ extra, IsUnknown awaited x) →
      seen (Call.see client) (runAll (Call.next turn) (.waiting l) (extra ++ [a])) =
        seen (Call.see client) (runAll (Call.next turn) (.waiting l) [a])) → Fine (.waiting l) a)
    {start : Call L} (hstart : ∀ l, start = .waiting l → Inv l) (answers : List Answer) :
    Undisturbed (Call.next turn) (Call.see client) (IsUnknown awaited) start answers ↔
      Meets (Call.next turn) Fine start answers := by
  refine Insertion.undisturbed_iff (Call.Alike client Same) (fun c => ∀ l, c = .waiting l → Inv l)
    ?_ ?_ ?_ ?_ ?_ ?_ hstart
  · rintro (l | ⟨result, c⟩ | c) a h l' hl'
    · exact hinv l a l' (h l rfl) hl'
    · cases hl'
    · cases hl'
  · rintro (l | ⟨result, c⟩ | c) h
    · exact .waiting (hrefl l (h l rfl))
    · exact .ended (fun hs => nomatch hs) rfl
    · exact .ended (fun hs => nomatch hs) rfl
  · rintro c c' (hsame | ⟨-, hsee⟩)
    · exact Prod.ext rfl (hfiles _ _ hsame)
    · exact hsee
  · rintro c c' a (hsame | ⟨hne, hsee⟩) hfine
    · exact hkeep _ _ a hsame hfine
    · have hne' : (Call.see client c').1 ≠ .waiting := hsee ▸ hne
      rw [Call.next_ended hne, Call.next_ended hne']
      exact ⟨rfl, .ended hne hsee⟩
  · rintro c c' a (@⟨l, l', hsame⟩ | ⟨hne, hsee⟩) ha
    · obtain ⟨l'', hturn, hsame'⟩ := hextra l l' a hsame ha
      rw [Call.next, hturn]
      exact ⟨rfl, .waiting hsame'⟩
    · have hne' : (Call.see client c').1 ≠ .waiting := hsee ▸ hne
      rw [Call.next_ended hne']
      exact ⟨rfl, .ended hne hsee⟩
  · rintro (l | ⟨result, c⟩ | c) a h hall
    · exact hneeded l a (h l rfl) hall
    · exact hended _ a fun hs => nomatch hs
    · exact hended _ a fun hs => nomatch hs

end Calls

end Tftp
end NetworkProtocols
