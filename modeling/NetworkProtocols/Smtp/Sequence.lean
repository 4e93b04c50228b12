import Mathlib.Data.List.DropRight
import NetworkProtocols.Smtp.AcceptedMail
import NetworkProtocols.Smtp.Exchange

/-!
# The order of the commands

`_lastCommand` keeps the place in the sequence. RCPT TO does not move it and DATA does not look
at it, and a refused HELO clears the return address and leaves it as it is.
-/

namespace NetworkProtocols
namespace Smtp

open Bytes SMTPSession Transition

/-- A HELO or RSET that is answered with 250. -/
def Exchange.Resets (e : Exchange) : Prop := e.Is .helo 250 ∨ e.Is .rset 250

instance (e : Exchange) : Decidable e.Resets := inferInstanceAs (Decidable (_ ∨ _))

/-- The reads behind the latest HELO or RSET that was answered with 250. -/
def sinceReset (record : List Exchange) : List Exchange := record.rtakeWhile fun e => ¬ e.Resets

def sinceMail (record : List Exchange) : List Exchange :=
  record.rtakeWhile fun e => ¬ e.Is .mailFrom 250

theorem sinceReset_append (record : List Exchange) (e : Exchange) :
    sinceReset (record ++ [e]) = if e.Resets then [] else sinceReset record ++ [e] := by
  simp only [sinceReset, List.rtakeWhile_concat, decide_eq_true_eq, ite_not]

theorem sinceMail_append (record : List Exchange) (e : Exchange) :
    sinceMail (record ++ [e]) = if e.Is .mailFrom 250 then [] else sinceMail record ++ [e] := by
  simp only [sinceMail, List.rtakeWhile_concat, decide_eq_true_eq, ite_not]

def Sequenced (record : List Exchange) : Prop :=
  (∃ e ∈ sinceReset record, e.Is .mailFrom 250) ∧ ∃ e ∈ sinceReset record, e.Is .rcptTo 250

/-- What `_lastCommand` and the return address say about the reads. -/
structure Placed (v : Envelope) (record : List Exchange) : Prop where
  mail : v.lastCommand = .mailFrom → ∃ e ∈ sinceReset record, e.Is .mailFrom 250
  rcpt : (∃ e ∈ sinceReset record, e.Is .rcptTo 250) →
    ∃ e ∈ sinceReset record, e.Is .mailFrom 250
  data : v.receiveMessage = false → v.lastCommand ≠ .data
  address : v.lastCommand = .mailFrom →
    (v.returnAddress = [] ↔ ∃ e ∈ sinceMail record, e.Is .helo 451)

namespace Placed

theorem start : Placed .start [] where
  mail h := by cases h
  rcpt := by
    rintro ⟨e, he, -⟩
    cases he
  data _ h := by cases h
  address h := by cases h

variable {record : List Exchange} {e : Exchange}

/-- A read that does not move the place in the sequence; a refused HELO clears the address. -/
theorem stay (h : Placed e.session.envelope record)
    (hmode : e.after.envelope.receiveMessage = e.session.envelope.receiveMessage)
    (hlast : e.after.envelope.lastCommand = e.session.envelope.lastCommand)
    (haddress : e.after.envelope.returnAddress =
      if e.Is .helo 451 then [] else e.session.envelope.returnAddress)
    (hreset : ¬ e.Resets) (hmail : ¬ e.Is .mailFrom 250)
    (hrcpt : e.Is .rcptTo 250 → e.session.lastCommand = .mailFrom) :
    Placed e.after.envelope (record ++ [e]) := by
  have hsince : sinceReset (record ++ [e]) = sinceReset record ++ [e] := by
    rw [sinceReset_append, if_neg hreset]
  refine ⟨fun hafter => ?_, ?_, fun hcommand => ?_, fun hafter => ?_⟩
  · obtain ⟨f, hf, his⟩ := h.mail (hlast ▸ hafter)
    exact ⟨f, by rw [hsince]; exact List.mem_append_left _ hf, his⟩
  · rw [hsince]
    rintro ⟨f, hf, his⟩
    have hold : ∃ g ∈ sinceReset record, g.Is .mailFrom 250 := by
      rcases List.mem_append.mp hf with hf | hf
      · exact h.rcpt ⟨f, hf, his⟩
      · exact h.mail (hrcpt (List.mem_singleton.mp hf ▸ his))
    obtain ⟨g, hg, his⟩ := hold
    exact ⟨g, List.mem_append_left _ hg, his⟩
  · rw [hlast]
    exact h.data (hmode ▸ hcommand)
  · rw [haddress, sinceMail_append, if_neg hmail]
    split
    · rename_i hrefused
      exact ⟨fun _ => ⟨e, by simp, hrefused⟩, fun _ => rfl⟩
    · rename_i hrefused
      rw [h.address (hlast ▸ hafter)]
      simp [or_and_right, exists_or, hrefused]

theorem reset (hreset : e.Resets) (hlast : e.after.envelope.lastCommand ≠ .mailFrom)
    (hdata : e.after.envelope.lastCommand ≠ .data) : Placed e.after.envelope (record ++ [e]) := by
  refine ⟨fun h => absurd h hlast, ?_, fun _ => hdata, fun h => absurd h hlast⟩
  rw [sinceReset_append, if_pos hreset]
  rintro ⟨f, hf, -⟩
  cases hf

theorem step (h : Placed e.session.envelope record) :
    Placed e.after.envelope (record ++ [e]) := by
  cases e.effect with
  | text hnone _ _ heq =>
    apply h.stay <;> simp [heq, Exchange.Resets, Exchange.Is, hnone]
  | helo his heq => exact reset (.inl his) (by simp [heq]) (by simp [heq])
  | heloRefused his heq =>
    apply h.stay
    · rw [heq]
    · rw [heq]
    · rw [if_pos his, heq]
    · rintro (hhelo | hrset)
      · exact absurd (his.code_eq hhelo) (by decide)
      · exact absurd (his.code_eq hrset) (by decide)
    · simp [Exchange.Is, his.1]
    · simp [Exchange.Is, his.1]
  | rset his heq => exact reset (.inr his) (by simp [heq]) (by simp [heq])
  | data his heq =>
    have hlast : e.after.envelope.lastCommand ≠ .mailFrom := by simp [heq]
    refine ⟨fun hmail => absurd hmail hlast, ?_, fun hmode => ?_, fun hmail => absurd hmail hlast⟩
    · rw [sinceReset_append, if_neg (by simp [Exchange.Resets, Exchange.Is, his.1])]
      simpa [or_and_right, exists_or, Exchange.Is, his.1] using h.rcpt
    · rw [heq] at hmode
      cases hmode
  | dataAgain _ hlast hmode _ _ => exact absurd hlast (h.data hmode)
  | mailFrom his haddress heq =>
    have hnew : e ∈ sinceReset (record ++ [e]) := by
      rw [sinceReset_append, if_neg (by simp [Exchange.Resets, Exchange.Is, his.1])]
      simp
    refine ⟨fun _ => ⟨e, hnew, his⟩, fun _ => ⟨e, hnew, his⟩, fun _ => by simp [heq], fun _ => ?_⟩
    rw [sinceMail_append, if_pos his, heq]
    simpa using haddress
  | rcptTo his htakes heq =>
    apply h.stay <;> simp [heq, Exchange.Resets, Exchange.Is, his.1, htakes.last]
  | vrfy hvrfy _ heq =>
    apply h.stay <;> simp [heq, Exchange.Resets, Exchange.Is, hvrfy]
  | @reply handler code his hother hrefused heq =>
    have hhelo : ∀ c, ¬ e.Is .helo c := by
      intro c hc
      exact hother (by simp [← hc.handler_eq his.1])
    have hrset : ∀ c, ¬ e.Is .rset c := by
      intro c hc
      exact hother (by simp [← hc.handler_eq his.1])
    have hmail : ¬ e.Is .mailFrom 250 := fun hc =>
      hrefused (.inl (hc.handler_eq his.1).symm) (his.code_eq hc)
    have hrcpt : ¬ e.Is .rcptTo 250 := fun hc =>
      hrefused (.inr (hc.handler_eq his.1).symm) (his.code_eq hc)
    apply h.stay <;> simp [heq, Exchange.Resets, hhelo, hrset, hmail, hrcpt]

end Placed

variable {id : UInt32} {buffer : Buffer} {d : Disk} {s : State} {record : List Exchange}

/-- The commands come in their sequence: DATA behind an accepted RCPT TO of the transaction,
and no RCPT TO that is taken behind a HELO refused since the MAIL FROM. -/
def Orderly (before : List Exchange) (e : Exchange) : Prop :=
  (e.handler = some .data → ∃ f ∈ sinceReset before, f.Is .rcptTo 250) ∧
  (e.handler = some .rcptTo → e.Takes → ∀ f ∈ sinceMail before, ¬ f.Is .helo 451)

/-- DATA is answered with 354 and RCPT TO with 250 only in their places exactly when the client
sends them there. -/
theorem accepted_in_sequence_iff (hrun : Run id buffer d s record) :
    Along (fun before e => (e.Is .data 354 → Sequenced before) ∧
      (e.Is .rcptTo 250 → e.session.returnAddress ≠ [])) record ↔ Along Orderly record := by
  have hplaced : Along (fun before e => Placed e.session.envelope before) record :=
    hrun.along .start fun _ _ => Placed.step
  constructor
  · intro hall before e after heq
    have hplace := hplaced before e after heq
    obtain ⟨hdata, hrcpt⟩ := hall before e after heq
    refine ⟨fun hhandler => ?_, fun hhandler htakes f hf hrefused => ?_⟩
    · have hlast := hplace.data (Exchange.handler_eq_some.mp hhandler).1
      exact (hdata ⟨hhandler, (Exchange.data_iff hhandler).mpr hlast⟩).2
    · exact hrcpt ⟨hhandler, (Exchange.rcptTo_iff hhandler).mpr htakes⟩
        ((hplace.address htakes.last).mpr ⟨f, hf, hrefused⟩)
  · intro hall before e after heq
    have hplace := hplaced before e after heq
    obtain ⟨hdata, hrcpt⟩ := hall before e after heq
    refine ⟨fun his => ?_, fun his hnil => ?_⟩
    · have haccepted := hdata his.1
      exact ⟨hplace.rcpt haccepted, haccepted⟩
    · have htakes := (Exchange.rcptTo_iff his.1).mp his.2
      obtain ⟨f, hf, hrefused⟩ := (hplace.address htakes.last).mp hnil
      exact hrcpt his.1 htakes f hf hrefused

/-- The commands of a transaction in their order. -/
theorem accepted_in_sequence_transaction :
    Along (fun before e => (e.Is .data 354 → Sequenced before) ∧
      (e.Is .rcptTo 250 → e.session.returnAddress ≠ []))
      (conversation sessionStart (chars "HELO\r\n" :: transaction.take 3)).2 := by
  have hfacts : Heard (sessionStart.settle, []) (chars "HELO\r\n" :: transaction.take 3) ∧
      AlongFrom (fun before e =>
          (e.handler = some .data → ∃ f ∈ sinceReset before, f.Is .rcptTo 250) ∧
          (e.handler = some .rcptTo → ∀ f ∈ sinceMail before, ¬ f.Is .helo 451)) []
        (conversation sessionStart (chars "HELO\r\n" :: transaction.take 3)).2 := by
    decide +kernel
  refine (accepted_in_sequence_iff (conversation_run hfacts.1)).mpr (hfacts.2.along.mono ?_)
  exact fun _ _ h => ⟨h.1, fun hhandler _ => h.2 hhandler⟩

/-- DATA alone is answered with 354, and RCPT TO behind a refused HELO with 250. -/
theorem accepted_out_of_sequence :
    (∃ (s : State) (data : Exchange), Run 1 (.full 0) mailDisk s [data] ∧ data.Is .data 354 ∧
      ¬ Sequenced []) ∧
    ∃ (s : State) (before : List Exchange) (rcpt : Exchange),
      Run 1 (.full 0) mailDisk s (before ++ [rcpt]) ∧ rcpt.Is .rcptTo 250 ∧
      rcpt.session.returnAddress = [] := by
  let chunks := [chars "HELO\r\n", chars "MAIL FROM:<c@d>\r\n", chars "HELO\r\n"]
  have hfacts : Heard (sessionStart.settle, []) ([] ++ [chars "DATA\r\n"]) ∧
      (nextRead (conversation sessionStart []) (chars "DATA\r\n")).Is .data 354 ∧
      Heard (sessionStart.settle, []) (chunks ++ [chars "RCPT TO:<a@b>\r\n"]) ∧
      (nextRead (conversation sessionStart chunks) (chars "RCPT TO:<a@b>\r\n")).Is .rcptTo 250 ∧
      (conversation sessionStart chunks).1.session.returnAddress = [] := by
    decide +kernel
  obtain ⟨hdata, h354, hrcpt, h250, haddress⟩ := hfacts
  constructor
  · refine ⟨_, _, conversation_next hdata, h354, ?_⟩
    rintro ⟨⟨e, he, -⟩, -⟩
    cases he
  · exact ⟨_, _, _, conversation_next hrcpt, h250, haddress⟩

end Smtp
end NetworkProtocols
