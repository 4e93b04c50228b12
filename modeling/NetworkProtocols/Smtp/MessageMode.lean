import NetworkProtocols.Smtp.AcceptedMail
import NetworkProtocols.Smtp.Exchange

/-!
# Message mode

The flag `_receiveMessage` tells that some DATA was answered with 354: what sets it back is
RSET, and no command is read any more. A session agrees with its client about the mode until
the message ends.
-/

namespace NetworkProtocols
namespace Smtp

open Bytes SMTPSession Transition

/-- A DATA was answered with 354, and the terminator has not been received since. -/
def InMessage (record : List Exchange) : Prop :=
  ∃ before data after, record = before ++ data :: after ∧ data.Is .data 354 ∧
    ∀ e ∈ after, e.chunk ≠ terminator

namespace Exchange

def EndsMessage (e : Exchange) : Prop := e.session.receiveMessage = true ∧ e.chunk = terminator

instance (e : Exchange) : Decidable e.EndsMessage := inferInstanceAs (Decidable (_ ∧ _))

end Exchange

def Flagged (v : Envelope) (record : List Exchange) : Prop :=
  v.receiveMessage = true ↔ ∃ e ∈ record, e.Is .data 354

theorem Flagged.step {record : List Exchange} {e : Exchange}
    (h : Flagged e.session.envelope record) : Flagged e.after.envelope (record ++ [e]) := by
  have hsplit : (∃ f ∈ record ++ [e], f.Is .data 354) ↔
      (∃ f ∈ record, f.Is .data 354) ∨ e.Is .data 354 := by
    simp [or_and_right, exists_or]
  unfold Flagged at h ⊢
  rw [hsplit]
  have hkeep : e.after.envelope.receiveMessage = e.session.envelope.receiveMessage →
      ¬ e.Is .data 354 → (e.after.envelope.receiveMessage = true ↔
        (∃ f ∈ record, f.Is .data 354) ∨ e.Is .data 354) := by
    intro hmode hnot
    rw [hmode, h, or_iff_left hnot]
  cases e.effect with
  | text hnone _ _ heq => exact hkeep (by rw [heq]) (by simp [Exchange.Is, hnone])
  | helo his heq => exact hkeep (by rw [heq]) (by simp [Exchange.Is, his.1])
  | heloRefused his heq => exact hkeep (by rw [heq]) (by simp [Exchange.Is, his.1])
  | rset his heq =>
    -- a command was read, so the flag was not set before
    have hmode : e.session.envelope.receiveMessage = false := (Exchange.handler_eq_some.mp his.1).1
    rw [hmode] at h
    rw [heq, ← h]
    simp [Exchange.Is, his.1]
  | data his heq =>
    rw [heq]
    simp [his]
  | dataAgain _ _ _ hstarted heq =>
    exact hkeep (by rw [heq]) (by simp [Exchange.Is, Exchange.Answered, hstarted, sendResponse])
  | mailFrom his _ heq => exact hkeep (by rw [heq]) (by simp [Exchange.Is, his.1])
  | rcptTo his _ heq => exact hkeep (by rw [heq]) (by simp [Exchange.Is, his.1])
  | vrfy hvrfy _ heq => exact hkeep (by rw [heq]) (by simp [Exchange.Is, hvrfy])
  | reply his hother _ heq =>
    refine hkeep (by rw [heq]) fun hdata => hother ?_
    simp [hdata.handler_eq his.1]

theorem not_inMessage_end {record : List Exchange} {e : Exchange} (h : e.EndsMessage) :
    ¬ InMessage (record ++ [e]) := by
  rintro ⟨before, data, after, heq, hdata, hafter⟩
  rcases List.eq_nil_or_concat after with rfl | ⟨rest, last, rfl⟩
  · obtain ⟨-, hlast⟩ := List.append_inj' heq rfl
    obtain rfl := (List.cons.inj hlast).1
    have hmode := (Exchange.handler_eq_some.mp hdata.1).1
    rw [h.1] at hmode
    cases hmode
  · rw [List.concat_eq_append, ← List.cons_append, ← List.append_assoc] at heq
    obtain ⟨-, hlast⟩ := List.append_inj' heq rfl
    obtain rfl := (List.cons.inj hlast).1
    exact hafter _ (by simp) h.2

variable {id : UInt32} {buffer : Buffer} {d : Disk} {s : State} {record : List Exchange}

/-- Every read is handled as text exactly when the client is in a message, as long as no read
comes after the end of a message. -/
theorem text_in_message_iff (hrun : Run id buffer d s record) :
    Along (fun before e => e.session.receiveMessage = true ↔ InMessage before) record ↔
      Along (fun before _ => ∀ f ∈ before, ¬ f.EndsMessage) record := by
  have hflag : Along (fun before e => Flagged e.session.envelope before) record :=
    hrun.along (by simp [Flagged, Envelope.start]) fun _ _ => Flagged.step
  constructor
  · rintro hmode before e after rfl f hf hend
    obtain ⟨front, back, rfl⟩ := List.append_of_mem hf
    -- the read behind the end of the message is handled as text
    obtain ⟨next, rest, hnext⟩ : ∃ next rest, back ++ e :: after = next :: rest := by
      cases back with
      | nil => exact ⟨e, after, rfl⟩
      | cons next back => exact ⟨next, _, rfl⟩
    have heq : (front ++ f :: back) ++ e :: after = (front ++ [f]) ++ next :: rest := by
      simp [← hnext]
    obtain ⟨data, hmem, hdata⟩ := (hflag front f (back ++ e :: after) (by simp)).mp hend.1
    have htext : next.session.receiveMessage = true :=
      (hflag _ next rest heq).mpr ⟨data, List.mem_append_left _ hmem, hdata⟩
    exact not_inMessage_end hend ((hmode _ next rest heq).mp htext)
  · rintro hnone before e after rfl
    refine (hflag before e after rfl).trans ⟨?_, ?_⟩
    · rintro ⟨data, hmem, hdata⟩
      obtain ⟨front, back, rfl⟩ := List.append_of_mem hmem
      refine ⟨front, data, back, rfl, hdata, fun f hf hchunk => ?_⟩
      obtain ⟨middle, rest, rfl⟩ := List.append_of_mem hf
      have htext : f.session.receiveMessage = true :=
        (hflag (front ++ data :: middle) f (rest ++ e :: after) (by simp)).mpr
          ⟨data, by simp, hdata⟩
      exact hnone _ e after rfl f (by simp) ⟨htext, hchunk⟩
    · rintro ⟨front, data, back, rfl, hdata, -⟩
      exact ⟨data, by simp, hdata⟩

/-- Until a message ends the session is in the mode that its client expects. -/
theorem text_in_message_first :
    Along (fun before e => e.session.receiveMessage = true ↔ InMessage before)
      (conversation sessionStart [chars "NOOP\r\n", chars "DATA\r\n", chars "hi\r\n"]).2 := by
  let chunks := [chars "NOOP\r\n", chars "DATA\r\n", chars "hi\r\n"]
  have hfacts : Heard (sessionStart.settle, []) chunks ∧
      ∀ f ∈ (conversation sessionStart chunks).2, ¬ f.EndsMessage := by
    decide +kernel
  refine (text_in_message_iff (conversation_run hfacts.1)).mpr fun before e after heq f hf => ?_
  exact hfacts.2 f (heq ▸ List.mem_append_left _ hf)

/-- The QUIT behind a message is taken for text. -/
theorem quit_taken_for_text : ∃ (s : State) (before : List Exchange) (quit : Exchange),
    Run 1 (.full 0) mailDisk s (before ++ [quit]) ∧ quit.chunk = chars "QUIT\r\n" ∧
    quit.session.receiveMessage = true ∧ ¬ InMessage before := by
  have hfacts : Heard (sessionStart.settle, [])
        ([chars "DATA\r\n", terminator] ++ [chars "QUIT\r\n"]) ∧
      (conversation sessionStart [chars "DATA\r\n", terminator]).1.session.receiveMessage = true ∧
      (nextRead (conversation sessionStart [chars "DATA\r\n"]) terminator).EndsMessage := by
    decide +kernel
  obtain ⟨hheard, hmode, hend⟩ := hfacts
  exact ⟨_, _, _, conversation_next hheard, rfl, hmode, not_inMessage_end hend⟩

end Smtp
end NetworkProtocols
