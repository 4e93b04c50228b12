import NetworkProtocols.Tftp.UnknownRuns

/-!
# `putFile` among unknown messages

Nothing but the buffer passes from a message that `putFile` ignores to the next turn.
-/

namespace NetworkProtocols
namespace Tftp

open Bytes Insertion Isolation

/-- What may be an ACK has its number, or a byte of it that excludes the awaited one, unless the
answer to an accepted ACK cannot be sent. -/
def PutFile.Unaffected : Call PutFile → Answer → Prop
  | .waiting p, (o, some d) =>
    ErrorDecided p.client.recvBuffer d ∧
      (MayBe p.client.recvBuffer d .ack → 2 ≤ d.length ∧
        (4 ≤ d.length ∨ ¬ Fits d 2 p.currBlockNumber ∨ p.complete = false ∧ o.sendOk = false))
  | _, _ => True

namespace PutFile

def withBuffer (p : PutFile) (buffer : Buffer) : PutFile :=
  { p with client := { p.client with recvBuffer := buffer } }

/-- The other call differs only in what its buffer holds. -/
def Same (p p' : PutFile) : Prop :=
  ∃ buffer, OpcodeAlike .ack p.client.recvBuffer buffer ∧ p' = p.withBuffer buffer

abbrev see : Call PutFile → Status × FileSystem := Call.see PutFile.client

variable {p : PutFile} {o : ClientOutcomes} {d : Datagram} {buffer : Buffer} {w : UInt16}

theorem turn_some (p : PutFile) (o : ClientOutcomes) (d : Datagram) :
    p.turn o (some d) =
      let data := p.client.recvBuffer.fill d
      if data.word 0 = MessageType.error.code then
        match (p.client.recv d).writeErrorMessage with
        | none => (.aborted (p.client.recv d), [])
        | some _ => (.returned false (p.client.recv d), [])
      else if data.word 0 = MessageType.ack.code then
        if data.word 2 ≠ p.currBlockNumber then (.returned false (p.client.recv d), [])
        else if p.complete then (.returned true (p.client.recv d), [])
        else (p.withBuffer data).sendNextBlock o
      else (.waiting (p.withBuffer data), []) := rfl

theorem sendNextBlock_withBuffer (p : PutFile) : ∃ (q : PutFile) (m : Datagram), ∀ buffer o,
    (p.withBuffer buffer).sendNextBlock o =
      if o.sendOk then (.waiting (q.withBuffer buffer), [m])
      else (.returned false (p.withBuffer buffer).client, []) := by
  obtain ⟨f, -, hf⟩ := Filling.block_eq p.client.files p.client.transferMode
    (p.currBlockNumber + 1) p.inFile p.lineFeed .blank
  have hfits := f.message_length_le
  rw [hf.message] at hfits
  let block := nextPayload p.client.files p.client.transferMode p.inFile p.lineFeed
  refine ⟨{ p with
    currBlockNumber := p.currBlockNumber + 1
    inFile := block.1
    lineFeed := block.2.1
    complete := p.complete || decide (block.2.2.length < 512) },
    dataMessage (p.currBlockNumber + 1) block.2.2, fun buffer o => ?_⟩
  exact if_pos hfits

theorem seen_turn_error (hw : (p.client.recvBuffer.fill d).word 0 = MessageType.error.code) :
    seen see (p.turn o (some d)) =
      if (p.client.recvBuffer.fill d).word 2 ≤ 8 then
        ((.returned false, p.client.files), [])
      else ((.aborted, p.client.files), []) := by
  rw [turn_some]
  dsimp only
  rw [if_pos hw]
  rcases TFTPClient.writeErrorMessage_cases hw with ⟨hle, report, hreport⟩ | ⟨hle, hreport⟩
  · rw [if_pos hle, hreport]
    rfl
  · rw [if_neg hle, hreport]
    rfl

theorem turn_other (herror : (p.client.recvBuffer.fill d).word 0 ≠ MessageType.error.code)
    (hack : (p.client.recvBuffer.fill d).word 0 ≠ MessageType.ack.code) :
    p.turn o (some d) = (.waiting (p.withBuffer (p.client.recvBuffer.fill d)), []) := by
  rw [turn_some]
  dsimp only
  rw [if_neg herror, if_neg hack]

theorem turn_unknown (hd : 2 ≤ d.length) (herror : opcode d ≠ MessageType.error.code)
    (hack : opcode d ≠ MessageType.ack.code) :
    p.turn o (some d) = (.waiting (p.withBuffer (p.client.recvBuffer.fill d)), []) := by
  have hword := word_zero_fill p.client.recvBuffer hd
  exact turn_other (ne_of_eq_of_ne hword herror) (ne_of_eq_of_ne hword hack)

section Ack

variable (hw : (p.client.recvBuffer.fill d).word 0 = MessageType.ack.code)

include hw

theorem turn_ack_some :
    p.turn o (some d) =
      if (p.client.recvBuffer.fill d).word 2 ≠ p.currBlockNumber then
        (.returned false (p.client.recv d), [])
      else if p.complete then (.returned true (p.client.recv d), [])
      else (p.withBuffer (p.client.recvBuffer.fill d)).sendNextBlock o := by
  have hne : ¬ (p.client.recvBuffer.fill d).word 0 = MessageType.error.code := by
    rw [hw]
    decide
  rw [turn_some]
  dsimp only
  rw [if_neg hne, if_pos hw]

theorem seen_turn_number (hn : (p.client.recvBuffer.fill d).word 2 ≠ p.currBlockNumber) :
    seen see (p.turn o (some d)) = ((.returned false, p.client.files), []) := by
  rw [turn_ack_some hw, if_pos hn]
  rfl

theorem seen_turn_unsent (hcomplete : p.complete = false) (hsend : o.sendOk = false) :
    seen see (p.turn o (some d)) = ((.returned false, p.client.files), []) := by
  by_cases hn : (p.client.recvBuffer.fill d).word 2 = p.currBlockNumber
  · obtain ⟨q, m, hnext⟩ := p.sendNextBlock_withBuffer
    rw [turn_ack_some hw, if_neg (not_not.mpr hn), hcomplete, if_neg Bool.false_ne_true, hnext,
      hsend, if_neg Bool.false_ne_true]
    rfl
  · exact seen_turn_number hw hn

variable (hn : (p.client.recvBuffer.fill d).word 2 = p.currBlockNumber)

include hn

theorem seen_turn_complete (hcomplete : p.complete = true) :
    seen see (p.turn o (some d)) = ((.returned true, p.client.files), []) := by
  rw [turn_ack_some hw, if_neg (not_not.mpr hn), if_pos hcomplete]
  rfl

theorem turn_next (hcomplete : p.complete = false) :
    p.turn o (some d) = (p.withBuffer (p.client.recvBuffer.fill d)).sendNextBlock o := by
  rw [turn_ack_some hw, if_neg (not_not.mpr hn), hcomplete, if_neg Bool.false_ne_true]

theorem turn_answered (hcomplete : p.complete = false) (hsend : o.sendOk = true) :
    (p.turn o (some d)).2 ≠ [] := by
  obtain ⟨q, m, hnext⟩ := p.sendNextBlock_withBuffer
  rw [turn_next hw hn hcomplete, hnext, if_pos hsend]
  exact List.cons_ne_nil _ _

end Ack

theorem number_iff (h : 4 ≤ d.length ∨ ¬ Fits d 2 w) (b b' : Buffer) :
    (b'.fill d).word 2 = w ↔ (b.fill d).word 2 = w := by
  rcases h with hlong | hcut
  · rw [fill_word_of_le (by decide) hlong b' b]
  · refine iff_of_false (fun hn => hcut ?_) fun hn => hcut ?_
    · exact hn ▸ fits_fill b' d (by decide)
    · exact hn ▸ fits_fill b d (by decide)

/-- The awaited ACK ends both calls, or is answered with the same block. -/
theorem turn_awaited_alike (hd : 2 ≤ d.length)
    (hw : (p.client.recvBuffer.fill d).word 0 = MessageType.ack.code)
    (hw' : (buffer.fill d).word 0 = MessageType.ack.code)
    (hn : (p.client.recvBuffer.fill d).word 2 = p.currBlockNumber)
    (hn' : (buffer.fill d).word 2 = p.currBlockNumber)
    (hanswer : ¬ (p.complete = false ∧ o.sendOk = false)) :
    Call.TurnsAlike PutFile.client Same (p.turn o (some d))
      ((p.withBuffer buffer).turn o (some d)) := by
  cases hcomplete : p.complete with
  | true =>
    exact .of_seen (seen_turn_complete hw hn hcomplete)
      (seen_turn_complete (p := p.withBuffer buffer) hw' hn' hcomplete) fun hs => nomatch hs
  | false =>
    obtain ⟨q, m, hnext⟩ := p.sendNextBlock_withBuffer
    have hsend : o.sendOk = true := by simpa [hcomplete] using hanswer
    have hturn := turn_next (o := o) hw hn hcomplete
    have hturn' := (turn_next (p := p.withBuffer buffer) (o := o) hw' hn' hcomplete).trans
      (hnext _ o)
    rw [hnext, if_pos hsend] at hturn
    rw [if_pos hsend] at hturn'
    rw [hturn, hturn']
    exact ⟨rfl, .waiting ⟨_, .inl (fill_word_of_le (by decide) hd _ _), rfl⟩⟩

/-- A message that meets the condition ends alike calls alike, or leaves them waiting alike. -/
theorem Same.turn {p' : PutFile} (h : Same p p') (a : Answer)
    (hfine : Unaffected (.waiting p) a) :
    Call.TurnsAlike PutFile.client Same (p.turn a.1 a.2) (p'.turn a.1 a.2) := by
  obtain ⟨buffer, halike, rfl⟩ := h
  obtain ⟨o, d | d⟩ := a
  · exact ⟨rfl, .ended (fun hs => nomatch hs) rfl⟩
  obtain ⟨hdecided, hnumber⟩ := hfine
  have herror := halike.fill_iff (.inl rfl) fun hmay => (hdecided hmay).1
  have hack := halike.fill_iff (.inr rfl) fun hmay => (hnumber hmay).1
  by_cases hw : (p.client.recvBuffer.fill d).word 0 = MessageType.error.code
  · have hlisted := hdecided.listed_iff buffer hw
    have hseen' := seen_turn_error (p := p.withBuffer buffer) (o := o) (herror.mpr hw)
    refine .of_seen (seen_turn_error hw) (hseen'.trans (if_congr hlisted rfl rfl)) ?_
    split <;> exact fun hs => nomatch hs
  by_cases hw' : (p.client.recvBuffer.fill d).word 0 = MessageType.ack.code
  · have hw'' : ((p.withBuffer buffer).client.recvBuffer.fill d).word 0 = MessageType.ack.code :=
      hack.mpr hw'
    obtain ⟨hd, hcut⟩ := hnumber (.inl hw')
    rw [← or_assoc] at hcut
    by_cases hunsent : p.complete = false ∧ o.sendOk = false
    · exact .of_seen (seen_turn_unsent hw' hunsent.1 hunsent.2)
        (seen_turn_unsent hw'' hunsent.1 hunsent.2) fun hs => nomatch hs
    have hiff := number_iff (hcut.resolve_right hunsent) p.client.recvBuffer buffer
    by_cases hn : (p.client.recvBuffer.fill d).word 2 = p.currBlockNumber
    · exact turn_awaited_alike hd hw' hw'' hn (hiff.mpr hn) hunsent
    · exact .of_seen (seen_turn_number hw' hn)
        (seen_turn_number hw'' (mt hiff.mp hn)) fun hs => nomatch hs
  · have hother := turn_other (p := p.withBuffer buffer) (o := o) (mt herror.mp hw)
      (mt hack.mp hw')
    rw [turn_other hw hw', hother]
    exact ⟨rfl, .waiting ⟨_, .inr ⟨mt herror.mp hw, mt hack.mp hw'⟩, rfl⟩⟩

theorem turn_filler (p : PutFile) (o : ClientOutcomes) (x : Byte) (w : UInt16) :
    p.turn o (some (filler x w)) =
      (.waiting (p.withBuffer (p.client.recvBuffer.fill (filler x w))), []) :=
  turn_unknown (show 2 ≤ 4 by decide) (opcode_filler x w _) (opcode_filler x w _)

theorem ack_taken (hw : (p.client.recvBuffer.fill d).word 0 = MessageType.ack.code) :
    ¬ ((seen see (p.turn o (some d))).1.1 = .waiting ∧ (seen see (p.turn o (some d))).2 = []) := by
  rintro ⟨hwaiting, hsilent⟩
  by_cases hn : (p.client.recvBuffer.fill d).word 2 = p.currBlockNumber
  · cases hcomplete : p.complete with
    | true =>
      rw [seen_turn_complete hw hn hcomplete] at hwaiting
      cases hwaiting
    | false =>
      cases hsend : o.sendOk with
      | true => exact turn_answered hw hn hcomplete hsend hsilent
      | false =>
        rw [seen_turn_unsent hw hcomplete hsend] at hwaiting
        cases hwaiting
  · rw [seen_turn_number hw hn] at hwaiting
    cases hwaiting

theorem decides (p : PutFile) (o : ClientOutcomes) (d : Datagram) :
    Decides .ack d fun b => seen see ((p.withBuffer b).turn o (some d)) where
  ignored b herror hack := by
    rw [turn_other (p := p.withBuffer b) (o := o) herror hack]
    exact ⟨rfl, rfl⟩
  reported b hw := by
    rw [seen_turn_error (p := p.withBuffer b) (o := o) hw]
    exact apply_ite (fun r : (Status × FileSystem) × List Datagram => r.1.1) _ _ _
  taken b hw := ack_taken (p := p.withBuffer b) hw

/-- An ACK with an open number that makes no difference is one that cannot be answered. -/
theorem ack_unaffected
    (hsame : ∀ x w, seen see ((p.withBuffer (p.client.recvBuffer.fill (filler x w))).turn o
      (some d)) = seen see (p.turn o (some d)))
    (hw : ∀ b : Buffer, (b.fill d).word 0 = MessageType.ack.code) :
    4 ≤ d.length ∨ ¬ Fits d 2 p.currBlockNumber ∨ p.complete = false ∧ o.sendOk = false := by
  by_contra hopen
  obtain ⟨hcut, hopen⟩ := not_or.mp hopen
  obtain ⟨hfits, hanswered⟩ := not_or.mp hopen
  rw [not_not] at hfits
  have hother := hfits.with_high (highByte p.currBlockNumber + 1) (by omega)
  have hne : Bytes.word (lowByte p.currBlockNumber) (highByte p.currBlockNumber + 1) ≠
      p.currBlockNumber := by
    intro h
    have hhigh := (word_eq_iff.mp h).2
    grind
  let behind (w : UInt16) := p.withBuffer (p.client.recvBuffer.fill (filler 0 w))
  have hmismatch := seen_turn_number (p := behind _) (o := o) (hw _)
    (ne_of_eq_of_ne (fill_filler_two p.client.recvBuffer 0 hother) hne)
  have hmatch := (hsame 0 p.currBlockNumber).trans ((hsame 0 _).symm.trans hmismatch)
  have hn := fill_filler_two p.client.recvBuffer 0 hfits
  cases hcomplete : p.complete with
  | true =>
    have hseen := seen_turn_complete (p := behind p.currBlockNumber) (o := o) (hw _) hn hcomplete
    rw [hmatch] at hseen
    cases hseen
  | false =>
    refine turn_answered (p := behind p.currBlockNumber) (o := o) (hw _) hn hcomplete ?_ ?_
    · simpa [hcomplete] using hanswered
    · exact congrArg Prod.snd hmatch

theorem unaffected (p : PutFile) (a : Answer)
    (h : ∀ extra, (∀ x ∈ extra, IsUnknown .ack x) →
      seen see (runAll (Call.next PutFile.turn) (.waiting p) (extra ++ [a])) =
        seen see (runAll (Call.next PutFile.turn) (.waiting p) [a])) :
    Unaffected (.waiting p) a := by
  obtain ⟨o, d | d⟩ := a
  · trivial
  have hfillers : ∀ x w, seen see ((p.withBuffer (p.client.recvBuffer.fill (filler x w))).turn o
      (some d)) = seen see (p.turn o (some d)) := by
    intro x w
    have hone := h [({}, some (filler x w))]
      fun y hy => List.mem_singleton.mp hy ▸ isUnknown_filler x w .ack
    simpa [runAll, Call.next, turn_filler, seen] using hone
  have hdecides := p.decides o d
  refine ⟨hdecides.errorDecided hfillers, fun hmay => ?_⟩
  have htwo := hdecides.two_le hfillers (.inr rfl) hmay
  exact ⟨htwo, ack_unaffected hfillers (hmay.word htwo)⟩

theorem Same.unknown {p p' : PutFile} (h : Same p p') {a : Answer}
    (ha : IsUnknown .ack a) :
    ∃ p'', p'.turn a.1 a.2 = (.waiting p'', []) ∧ Same p p'' := by
  obtain ⟨buffer, -, rfl⟩ := h
  obtain ⟨o, _⟩ := a
  obtain ⟨d, rfl, hd, herror, hack⟩ := ha
  have halike := OpcodeAlike.of_unknown p.client.recvBuffer buffer hd herror hack
  exact ⟨_, turn_unknown hd herror hack, _, halike, rfl⟩

end PutFile

end Tftp
end NetworkProtocols
