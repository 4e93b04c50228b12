import NetworkProtocols.Lib.Program
import NetworkProtocols.Smtp.AcceptedMail
import NetworkProtocols.Smtp.Exchange

/-!
# The recipients of a transaction

The entries of `_recipients` that are in use are the recipients accepted since the last HELO or
RSET. What is left of earlier transactions lies behind them, where the loop of
`deliverMessage` does not come.
-/

namespace NetworkProtocols
namespace Smtp

open Bytes Relation SMTPSession Transition

/-- What a read does to the recipients accepted before it. -/
def keepAccepted (recipients : List Recipient) (e : Exchange) : List Recipient :=
  if e.handler = some .helo ∨ e.handler = some .rset then []
  else if e.Is .rcptTo 250 then recipients ++ [e.recipient]
  else recipients

/-- The recipients of the RCPT TO commands answered with 250 since the last HELO or RSET. -/
def acceptedSince (record : List Exchange) : List Recipient := record.foldl keepAccepted []

/-- A turn of the loop of `deliverMessage`: the `std::uint8_t` counter, the unknown recipients
and the disk. -/
def deliverTurn (r : Refusals) (s : SMTPSession) (x : UInt8 × List Bytes × Disk) :
    Except Halt (UInt8 × List Bytes × Disk) :=
  match s.recipients.toList[x.1.toNat]? with
  | none => .error .outside
  | some recipient => .ok (x.1 + 1, deliverTo r s.messagePath recipient x.2.1 x.2.2)

def deliverLoop (r : Refusals) (s : SMTPSession) (d : Disk) :
    Program (UInt8 × List Bytes × Disk) :=
  Program.loop (fun x => x.1 < s.rcptCount) (deliverTurn r s) (0, [], d)

def deliverAll (r : Refusals) (path : Bytes) (recipients : List Recipient) (d : Disk) :
    List Bytes × Disk :=
  recipients.foldl (fun done recipient => deliverTo r path recipient done.1 done.2) ([], d)

/-- The loop stays in the array, ends, and is that of `deliverMessage`. -/
theorem deliverLoop_returns (r : Refusals) {s : SMTPSession} (d : Disk)
    (h : s.rcptCount.toNat ≤ maxRcptAllowed) :
    (deliverLoop r s d).Returns (s.rcptCount, deliverAll r s.messagePath s.accepted d) := by
  have hlen : s.accepted.length = s.rcptCount.toNat := by
    rw [accepted, List.length_take, Vector.length_toList]
    omega
  have hsmall : s.rcptCount.toNat < 256 := s.rcptCount.toNat_lt
  refine Program.returns_loop.mpr ⟨?_, by simp⟩
  have hturns : ∀ k ≤ s.rcptCount.toNat,
      ReflTransGen (Program.Iterates (fun x => decide (x.1 < s.rcptCount)) (deliverTurn r s))
        (0, [], d) (UInt8.ofNat k, deliverAll r s.messagePath (s.accepted.take k) d) := by
    intro k
    induction k with
    | zero => exact fun _ => .refl
    | succ k ih =>
      intro hk
      have hcounter : (UInt8.ofNat k).toNat = k := by
        rw [UInt8.toNat_ofNat', Nat.mod_eq_of_lt (by omega)]
      have hentry : s.recipients.toList[k]? = s.accepted[k]? := by
        rw [accepted, List.getElem?_take_of_lt hk]
      have hin : k < s.accepted.length := by omega
      refine (ih (Nat.le_of_succ_le hk)).tail ⟨?_, ?_⟩
      · rw [decide_eq_true_eq, UInt8.lt_iff_toNat_lt, hcounter]
        exact hk
      · have hnext : UInt8.ofNat k + 1 = UInt8.ofNat (k + 1) := by
          rw [UInt8.ofNat_add]
          rfl
        simp only [deliverTurn, hcounter, hentry, List.getElem?_eq_getElem hin, hnext, deliverAll,
          List.take_succ_eq_append_getElem hin, List.foldl_append, List.foldl_cons, List.foldl_nil]
  have hall := hturns _ (Nat.le_refl _)
  rwa [UInt8.ofNat_toNat, ← hlen, List.take_length] at hall

theorem deliverMessage_all (r : Refusals) (s : SMTPSession) (d : Disk) :
    deliverMessage r s d = ({ s with
      unknownRecipients := (deliverAll r s.messagePath s.accepted d).1 },
      (deliverAll r s.messagePath s.accepted d).2) := rfl

/-- What is known of the recipients after the reads of a record. -/
structure Listed (v : Envelope) (record : List Exchange) : Prop where
  bound : v.rcptCount.toNat ≤ maxRcptAllowed
  accepted : v.accepted = acceptedSince record

namespace Listed

theorem start : Listed .start [] := ⟨by decide, rfl⟩

theorem step {record : List Exchange} {e : Exchange} (h : Listed e.session.envelope record) :
    Listed e.after.envelope (record ++ [e]) := by
  have hsince : acceptedSince (record ++ [e]) = keepAccepted e.session.envelope.accepted e := by
    rw [acceptedSince, List.foldl_append, List.foldl_cons, List.foldl_nil, h.accepted,
      acceptedSince]
  have hreset : e.handler = some .helo ∨ e.handler = some .rset →
      e.after.envelope.rcptCount = 0 → Listed e.after.envelope (record ++ [e]) := by
    intro hhandler hzero
    refine ⟨by rw [hzero]; decide, ?_⟩
    rw [hsince, keepAccepted, if_pos hhandler, Envelope.accepted, hzero]
    rfl
  have hkeep : e.after.envelope.recipients = e.session.envelope.recipients →
      e.after.envelope.rcptCount = e.session.envelope.rcptCount →
      ¬ (e.handler = some .helo ∨ e.handler = some .rset) → ¬ e.Is .rcptTo 250 →
      Listed e.after.envelope (record ++ [e]) := by
    intro hrecipients hcount hother hnot
    refine ⟨by rw [hcount]; exact h.bound, ?_⟩
    rw [hsince, keepAccepted, if_neg hother, if_neg hnot, Envelope.accepted, Envelope.accepted,
      hrecipients, hcount]
  cases e.effect with
  | text hnone _ _ heq =>
    exact hkeep (by rw [heq]) (by rw [heq]) (by simp [hnone]) (by simp [Exchange.Is, hnone])
  | helo his heq => exact hreset (.inl his.1) (by rw [heq])
  | heloRefused his heq => exact hreset (.inl his.1) (by rw [heq])
  | rset his heq => exact hreset (.inr his.1) (by rw [heq])
  | data his heq =>
    exact hkeep (by rw [heq]) (by rw [heq]) (by simp [his.1]) (by simp [Exchange.Is, his.1])
  | dataAgain hdata _ _ _ heq =>
    exact hkeep (by rw [heq]) (by rw [heq]) (by simp [hdata]) (by simp [Exchange.Is, hdata])
  | mailFrom his _ heq =>
    exact hkeep (by rw [heq]) (by rw [heq]) (by simp [his.1]) (by simp [Exchange.Is, his.1])
  | rcptTo his htakes heq =>
    have hroom : e.session.rcptCount.toNat < 100 := htakes.room
    have hother : ¬ (e.handler = some .helo ∨ e.handler = some .rset) := by simp [his.1]
    refine ⟨?_, ?_⟩
    · rw [heq, UInt8.toNat_add, maxRcptAllowed, show (1 : UInt8).toNat = 1 from rfl]
      omega
    · rw [hsince, keepAccepted, if_neg hother, if_pos his, heq]
      exact accepted_store e.recipient htakes.room
  | vrfy hvrfy _ heq =>
    exact hkeep (by rw [heq]) (by rw [heq]) (by simp [hvrfy]) (by simp [Exchange.Is, hvrfy])
  | reply his hother hrefused heq =>
    refine hkeep (by rw [heq]) (by rw [heq]) ?_ ?_
    · simp only [List.mem_cons, List.not_mem_nil, or_false, not_or] at hother
      simp [his.1, hother]
    · exact fun hrcpt => hrefused (.inr (hrcpt.handler_eq his.1).symm) (his.code_eq hrcpt)

end Listed

variable {id : UInt32} {buffer : Buffer} {d : Disk} {s : State} {record : List Exchange}

/-- In every reachable state the entries in use are the recipients accepted since the last
HELO or RSET, and the loop of `deliverMessage` goes over these and ends. -/
theorem recipients_accepted (hrun : Run id buffer d s record) :
    s.session.rcptCount.toNat ≤ maxRcptAllowed ∧ s.session.accepted = acceptedSince record ∧
    ∀ r disk, (deliverLoop r s.session disk).Returns
      (s.session.rcptCount, deliverAll r s.session.messagePath (acceptedSince record) disk) := by
  have hlisted : Listed s.session.envelope record := hrun.invariant .start fun _ _ => Listed.step
  have haccepted : s.session.accepted = acceptedSince record := hlisted.accepted
  refine ⟨hlisted.bound, haccepted, fun r disk => ?_⟩
  rw [← haccepted]
  exact deliverLoop_returns r disk hlisted.bound

def envelopeCommands : List Bytes :=
  [chars "HELO\r\n", chars "MAIL FROM:<c@d>\r\n", chars "RCPT TO:<a@b>\r\n"]

/-- A second HELO is refused and drops the recipient. -/
theorem recipients_accepted_helo :
    (conversation sessionStart envelopeCommands).1.session.accepted =
      [(chars "a@b", mboxPath (chars "a") (chars "b"))] ∧
    (conversation sessionStart (envelopeCommands ++ [chars "HELO\r\n"])).1.session.accepted =
      [] := by
  have hfacts : Heard (sessionStart.settle, []) (envelopeCommands ++ [chars "HELO\r\n"]) ∧
      Heard (sessionStart.settle, []) envelopeCommands ∧
      acceptedSince (conversation sessionStart envelopeCommands).2 =
        [(chars "a@b", mboxPath (chars "a") (chars "b"))] ∧
      acceptedSince (conversation sessionStart (envelopeCommands ++ [chars "HELO\r\n"])).2 =
        [] := by
    decide +kernel
  obtain ⟨hagain, hfirst, hone, hnone⟩ := hfacts
  exact ⟨(recipients_accepted (conversation_run hfirst)).2.1.trans hone,
    (recipients_accepted (conversation_run hagain)).2.1.trans hnone⟩

end Smtp
end NetworkProtocols
