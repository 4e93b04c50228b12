import NetworkProtocols.Smtp.MailboxPaths

/-!
# Existing mailboxes

RCPT TO looks the directory of the domain up, `deliverMessage` the mailbox of the user. No step of
a session makes or removes a directory, so what RCPT TO could have seen is there at delivery.
-/

namespace NetworkProtocols
namespace Smtp

open Bytes SMTPSession Transition

/-- The answer to a RCPT TO by the directories: 551 without the domain's, 550 without the user's. -/
def mailboxCode (d : Disk) (user domain : Bytes) : UInt16 :=
  if d.hasDirectory (domainPath domain) = false then 551
  else if d.hasDirectory (mboxPath user domain) = false then 550
  else 250

namespace Exchange

/-- A RCPT TO in the right sequence and below the limit, for an address of these parts. -/
structure Asks (e : Exchange) (user domain : Bytes) : Prop where
  handler : e.handler = some .rcptTo
  last : e.session.lastCommand = .mailFrom
  room : e.session.rcptCount.toNat < maxRcptAllowed
  address : splitAddress e.session.getAddress = some (user, domain)

/-- The status of the domain can be read, and its directory, if there is one, has the user's. -/
def MailboxSettled (e : Exchange) (user domain : Bytes) : Prop :=
  e.refusals.status (domainPath domain) = false ∧
    (e.disk.hasDirectory (domainPath domain) = true →
      e.disk.hasDirectory (mboxPath user domain) = true)

instance (e : Exchange) (user domain : Bytes) : Decidable (e.MailboxSettled user domain) :=
  inferInstanceAs (Decidable (_ ∧ _))

variable {e : Exchange} {user domain : Bytes}

/-- The answer of the code does not depend on the directory of the user. -/
theorem Asks.answered (h : e.Asks user domain) : e.Answered
    (if e.refusals.status (domainPath domain) = true then 451
      else if e.disk.hasDirectory (domainPath domain) = false then 551 else 250) := by
  rw [Answered, (returned (onReceive_rcptTo h.handler)).1, processRcptTo,
    if_neg (not_not.mpr h.last), if_neg (Nat.not_le.mpr h.room)]
  dsimp only
  rw [if_neg (ne_nil_of_splitAddress h.address), h.address]
  dsimp only
  cases hstatus : e.refusals.status (domainPath domain) with
  | true => rfl
  | false =>
    cases hdirectory : e.disk.hasDirectory (domainPath domain) with
    | false => simp
    | true => simp [Disk.present_of_directory hdirectory]

theorem Asks.answered_iff (h : e.Asks user domain) :
    e.Answered (mailboxCode e.disk user domain) ↔ e.MailboxSettled user domain := by
  have hcode := h.answered
  have hiff : e.Answered (mailboxCode e.disk user domain) ↔ _ = mailboxCode e.disk user domain :=
    ⟨fun h' => hcode.unique h', fun heq => heq ▸ hcode⟩
  rw [hiff, mailboxCode, MailboxSettled]
  cases e.refusals.status (domainPath domain) <;>
    cases e.disk.hasDirectory (domainPath domain) <;>
    cases e.disk.hasDirectory (mboxPath user domain) <;> simp

theorem Takes.asks (h : e.Takes) (hhandler : e.handler = some .rcptTo) :
    ∃ user domain, e.Asks user domain ∧ e.recipient.2 = mboxPath user domain ∧
      e.disk.hasDirectory (domainPath domain) = true := by
  obtain ⟨hlast, hroom, user, domain, hsplit, -, hdomain⟩ := h
  exact ⟨user, domain, ⟨hhandler, hlast, hroom, hsplit⟩,
    by rw [recipient, mailbox, hsplit], hdomain⟩

end Exchange

section Layout

variable (r : Refusals) (s : SMTPSession) (d : Disk)

theorem deliverMessage_layout : Disk.SameLayout (deliverMessage r s d).2 d := by
  obtain ⟨unknown, heq⟩ := deliverMessage_eq (r := r) s d
  rw [heq]
  exact afterLoop_layout s d

theorem processHelo_layout : Disk.SameLayout (s.processHelo r d).2.1 d := by
  have hcreated : Disk.SameLayout
      (createMessage r { s with rcptCount := 0, returnAddress := [] } d).2.2 d := by
    unfold createMessage
    dsimp only
    split <;> exact Disk.openFile_layout _
  unfold processHelo
  dsimp only
  split
  · rename_i heq
    rw [heq] at hcreated
    exact hcreated
  · rename_i heq
    rw [heq] at hcreated
    exact hcreated

theorem onReceive_layout : Disk.SameLayout (s.onReceive r d).2.1 d := by
  unfold onReceive
  split
  · unfold processMessage
    split
    · exact (Disk.remove_layout _).trans (deliverMessage_layout r _ d)
    · exact Disk.writeOut_layout _
  · unfold processCommand
    cases dispatch s.recvBuffer.bytes with
    | helo => exact processHelo_layout r s d
    | rset => exact Disk.remove_layout _
    | data =>
      change Disk.SameLayout (s.processData d).2.1 d
      unfold processData
      split <;> exact .refl d
    | mailFrom =>
      rcases processMailFrom_cases s d with ⟨_, -, heq⟩ | ⟨-, -, heq⟩
      · rw [heq]
        exact .refl d
      · rw [heq]
        exact .refl d
    | rcptTo =>
      rcases processRcptTo_cases r s d with ⟨_, -, heq⟩ | ⟨-, -, -, _, _, -, -, heq⟩
      · rw [heq]
        exact .refl d
      · rw [heq]
        exact .refl d
    | vrfy => exact .refl d
    | noop => exact .refl d
    | quit => exact .refl d
    | reply _ => exact .refl d

end Layout

variable {id : UInt32} {buffer : Buffer} {d : Disk} {s : State} {record : List Exchange}

theorem Run.layout (hrun : Run id buffer d s record) : Disk.SameLayout s.disk d := by
  refine @Transition.invariant _ (Recorded Step note) (fun p => Disk.SameLayout p.1.disk d) ?_ _
    (s, record) (.refl d) hrun
  rintro ⟨s, record⟩ _ h ⟨hst⟩
  cases hst with
  | received _ _ => exact (onReceive_layout _ _ _).trans h
  | sent _ =>
    unfold State.onSent
    split <;> exact h
  | failed _ => exact h

theorem Run.directory {e : Exchange} (hrun : Run id buffer d s record) (he : e ∈ record)
    (name : Bytes) : s.disk.hasDirectory name = e.disk.hasDirectory name := by
  obtain ⟨before, after, rfl⟩ := List.append_of_mem he
  obtain ⟨t, hbefore, -, -, -, hdisk⟩ := hrun.entry
  rw [hdisk, hbefore.layout.hasDirectory, hrun.layout.hasDirectory]

/-- The loop of `deliverMessage` finds the mailboxes that are directories. -/
theorem deliverAll_unknown (r : Refusals) (path : Bytes) {recipients : List Recipient}
    (h : ∀ recipient ∈ recipients, d.hasDirectory recipient.2 = true) :
    (deliverAll r path recipients d).1 = [] := by
  have hall : ∀ (unknown : List Bytes) (disk : Disk), Disk.SameLayout disk d →
      (recipients.foldl (fun done recipient => deliverTo r path recipient done.1 done.2)
        (unknown, disk)).1 = unknown := by
    induction recipients with
    | nil => exact fun _ _ _ => rfl
    | cons recipient recipients ih =>
      intro unknown disk hlayout
      have hpresent : disk.present recipient.2 = true :=
        Disk.present_of_directory (by rw [hlayout.hasDirectory, h _ List.mem_cons_self])
      have hturn : (deliverTo r path recipient unknown disk).1 = unknown := by
        rw [deliverTo, if_pos hpresent]
        split <;> rfl
      have hrest := ih (fun other hmem => h other (List.mem_cons_of_mem _ hmem))
        (deliverTo r path recipient unknown disk).1 (deliverTo r path recipient unknown disk).2
        ((deliverTo_layout path recipient unknown disk).trans hlayout)
      rw [List.foldl_cons]
      exact hrest.trans hturn
  exact hall [] d (.refl d)

/-- A RCPT TO is answered by the directories exactly when the mailbox is settled. Where all are,
`deliverMessage` finds every accepted recipient. -/
theorem mailboxes_exist_iff (hrun : Run id buffer d s record) :
    (∀ e ∈ record, ∀ user domain, e.Asks user domain →
      (e.Answered (mailboxCode e.disk user domain) ↔ e.MailboxSettled user domain)) ∧
    ((∀ e ∈ record, ∀ user domain, e.Asks user domain → e.MailboxSettled user domain) →
      ∀ r, (deliverMessage r s.session s.disk).1.unknownRecipients = []) := by
  refine ⟨fun e _ user domain hasks => hasks.answered_iff, fun hsettled r => ?_⟩
  rw [deliverMessage_all, (recipients_accepted hrun).2.1]
  refine deliverAll_unknown r _ fun recipient hmem => ?_
  obtain ⟨e, he, his, rfl⟩ := mem_acceptedSince hmem
  obtain ⟨user, domain, hasks, hpath, hdomain⟩ :=
    ((Exchange.rcptTo_iff his.1).mp his.2).asks his.1
  rw [hpath, hrun.directory he]
  exact (hsettled e he user domain hasks).2 hdomain

/-- The mailbox `a@b` is settled, and the message reaches it. -/
theorem mailboxes_exist_mailbox :
    (deliverMessage {} (conversation sessionStart envelopeCommands).1.session
      (conversation sessionStart envelopeCommands).1.disk).1.unknownRecipients = [] := by
  have hfacts : Heard (sessionStart.settle, []) envelopeCommands ∧
      ∀ e ∈ (conversation sessionStart envelopeCommands).2,
        ∀ parts ∈ splitAddress e.session.getAddress, e.handler = some .rcptTo →
          e.MailboxSettled parts.1 parts.2 := by
    decide +kernel
  obtain ⟨hheard, hsettled⟩ := hfacts
  exact (mailboxes_exist_iff (conversation_run hheard)).2
    (fun e he user domain hasks => hsettled e he _ hasks.address hasks.handler) {}

/-- The mailbox `x@b` does not exist, but the recipient is accepted, and the message does not reach
it. -/
theorem mailbox_accepted_unknown : ∃ (s : State) (before : List Exchange) (rcpt : Exchange),
    Run 1 (.full 0) mailDisk s (before ++ [rcpt]) ∧ rcpt.Asks (chars "x") (chars "b") ∧
    mailboxCode rcpt.disk (chars "x") (chars "b") = 550 ∧ rcpt.Answered 250 ∧
    ¬ rcpt.Answered 550 ∧
    (deliverMessage {} s.session s.disk).1.unknownRecipients = [chars "x@b"] := by
  let commands := envelopeCommands.take 2 ++ [chars "RCPT TO:<x@b>\r\n"]
  let rcpt := nextRead (conversation sessionStart (envelopeCommands.take 2))
    (chars "RCPT TO:<x@b>\r\n")
  have hfacts : Heard (sessionStart.settle, []) commands ∧ rcpt.Is .rcptTo 250 ∧
      rcpt.session.lastCommand = .mailFrom ∧ rcpt.session.rcptCount.toNat < maxRcptAllowed ∧
      splitAddress rcpt.session.getAddress = some (chars "x", chars "b") ∧
      mailboxCode rcpt.disk (chars "x") (chars "b") = 550 ∧
      (deliverMessage {} (conversation sessionStart commands).1.session
        (conversation sessionStart commands).1.disk).1.unknownRecipients = [chars "x@b"] := by
    decide +kernel
  obtain ⟨hheard, his, hlast, hroom, hsplit, hcode, hunknown⟩ := hfacts
  exact ⟨_, _, _, conversation_next hheard, ⟨his.1, hlast, hroom, hsplit⟩, hcode, his.2,
    fun h550 => absurd (his.2.unique h550) (by decide), hunknown⟩

end Smtp
end NetworkProtocols
