import NetworkProtocols.Lib.LexicalPath
import NetworkProtocols.Smtp.Recipients

/-!
# Where mail is delivered

`processRcptTo` looks whether the directory of the domain exists and takes user and domain as
they come; an absolute one is appended by `operator/` like any other. The mailbox is below the
root of the mailboxes unless the dots in them lead out.
-/

namespace NetworkProtocols
namespace Smtp

open Bytes Relation SMTPSession Transition PathName

/-- The way from the root of the mailboxes that a domain and a user make together. -/
def mailboxWay (user domain : Bytes) : Location :=
  .relative (components domain ++ components user)

theorem location_mboxPath (user domain : Bytes) :
    location (mboxPath user domain) =
      (location mailboxesRoot).follow (components domain ++ components user) := by
  have hroot : mailboxesRoot ≠ [] := by decide
  rw [mboxPath, domainPath, location_append (append_ne_nil hroot domain), location_append hroot,
    Location.follow_append]

theorem below_mboxPath_iff (user domain : Bytes) :
    Location.Below (location mailboxesRoot) (location (mboxPath user domain)) ↔
      Location.StaysBelow (location mailboxesRoot) (mailboxWay user domain) := by
  rw [location_mboxPath, Location.below_follow_iff, mailboxWay]

def Confined (path : Bytes) : Prop := Location.Below (location mailboxesRoot) (location path)

instance (path : Bytes) : Decidable (Confined path) := inferInstanceAs (Decidable (_ ∧ _))

section MessagePath

variable (r : Refusals) (s : SMTPSession) (d : Disk)

/-- The path of the message is cleared or that of the session's message. -/
def OwnMessage (s : SMTPSession) : Prop :=
  s.messagePath = [] ∨ s.messagePath = newMessagePath s.id

theorem createMessage_own : OwnMessage (createMessage r s d).2.1 := by
  unfold createMessage
  dsimp only
  split
  · exact .inl rfl
  · exact .inr rfl

theorem processHelo_own : OwnMessage (processHelo r s d).1 := by
  have hown := createMessage_own r { s with rcptCount := 0, returnAddress := [] } d
  unfold processHelo
  dsimp only
  split
  · rename_i heq
    rw [heq] at hown
    exact hown
  · rename_i heq
    rw [heq] at hown
    exact hown

theorem onReceive_own (h : OwnMessage s) : OwnMessage (s.onReceive r d).1 := by
  unfold onReceive
  split
  · unfold processMessage
    split <;> exact h
  · unfold processCommand
    cases dispatch s.recvBuffer.bytes with
    | helo => exact processHelo_own r s d
    | data =>
      change OwnMessage (s.processData d).1
      unfold processData
      split <;> exact h
    | mailFrom =>
      rcases processMailFrom_cases s d with ⟨_, -, heq⟩ | ⟨-, -, heq⟩ <;> (simp only [heq]; exact h)
    | rcptTo =>
      rcases processRcptTo_cases r s d with ⟨_, -, heq⟩ | ⟨-, -, -, _, _, -, -, heq⟩ <;>
        (simp only [heq]; exact h)
    | rset => exact h
    | vrfy => exact h
    | noop => exact h
    | quit => exact h
    | reply _ => exact h

theorem Run.own {id : UInt32} {buffer : Buffer} {d : Disk} {s : State} {record : List Exchange}
    (hrun : Run id buffer d s record) : OwnMessage s.session := by
  refine @Transition.invariant _ (Recorded Step note) (fun p => OwnMessage p.1.session) ?_ _
    (s, record) (.inl rfl) hrun
  rintro ⟨s, record⟩ _ h ⟨hst⟩
  cases hst with
  | received _ _ => exact onReceive_own _ _ _ h
  | sent _ =>
    unfold State.onSent
    split <;> exact h
  | failed _ => exact h

end MessagePath

theorem confined_name {path : Bytes} (h : Confined path) (hne : path ≠ []) (id : UInt32) :
    Confined (append path (messageName id)) := by
  have hlen : 8 ≤ (messageName id).length := by
    simp [messageName, chars]
  have hparts : components (messageName id) = [messageName id] := by
    refine components_name (slash_notMem_messageName id) ?_ ?_
    · intro hnil
      simp [hnil] at hlen
    · intro hdot
      simp [hdot, dot] at hlen
  unfold Confined
  rw [location_append hne, hparts]
  change Location.Below _ ((location path).enter (messageName id))
  refine h.enter fun hdots => ?_
  simp [hdots, dotDot] at hlen

theorem copyTarget_confined {s : SMTPSession} (hown : OwnMessage s) (d : Disk) {path : Bytes}
    (h : Confined path) (hne : path ≠ []) : Confined (d.copyTarget s.messagePath path) := by
  unfold Disk.copyTarget
  split
  · rcases hown with hnil | hpath
    · have hfile : filename s.messagePath = [] := by rw [hnil]; rfl
      rw [hfile, append, if_pos (by simp), List.append_nil]
      exact h
    · rw [hpath, filename_newMessagePath]
      exact confined_name h hne s.id
  · exact h

/-- `deliverMessage` changes no entry but those of confined names, when the mailboxes of the
recipients are confined. -/
theorem deliverAll_confined (r : Refusals) {s : SMTPSession} (hown : OwnMessage s)
    {recipients : List Recipient} (h : ∀ recipient ∈ recipients, Confined recipient.2 ∧
      recipient.2 ≠ []) (d : Disk) (p : Path) :
    (deliverAll r s.messagePath recipients d).2.files.content p = d.files.content p ∨
      ∃ name, Confined name ∧ p = d.files.denotes name := by
  have hturn : ∀ (recipient : Recipient), Confined recipient.2 → recipient.2 ≠ [] →
      ∀ (unknown : List Bytes) (d : Disk),
        (deliverTo r s.messagePath recipient unknown d).2.files.content p = d.files.content p ∨
          ∃ name, Confined name ∧ p = d.files.denotes name := by
    intro recipient hconfined hne unknown d
    unfold deliverTo
    split
    · exact .inl rfl
    split
    · by_cases hp : p = d.files.denotes (d.copyTarget s.messagePath recipient.2)
      · exact .inr ⟨_, copyTarget_confined hown d hconfined hne, hp⟩
      · exact .inl (Disk.copy_content_of_ne hp)
    · exact .inl rfl
  have hall : ∀ (unknown : List Bytes) (d : Disk),
      (recipients.foldl (fun done recipient =>
        deliverTo r s.messagePath recipient done.1 done.2) (unknown, d)).2.files.content p =
          d.files.content p ∨ ∃ name, Confined name ∧ p = d.files.denotes name := by
    induction recipients with
    | nil => exact fun _ _ => .inl rfl
    | cons recipient recipients ih =>
      intro unknown d
      obtain ⟨hconfined, hne⟩ := h recipient List.mem_cons_self
      have hlayout := deliverTo_layout (r := r) s.messagePath recipient unknown d
      rw [List.foldl_cons]
      rcases ih (fun other hmem => h other (List.mem_cons_of_mem _ hmem)) _ _ with hrest | hname
      · rw [hrest]
        exact hturn recipient hconfined hne unknown d
      · rw [hlayout.1] at hname
        exact .inr hname
  exact hall [] d

variable {id : UInt32} {buffer : Buffer} {d : Disk} {s : State} {record : List Exchange}

/-- The recipients in use come from accepted RCPT TO commands. -/
theorem mem_acceptedSince {recipient : Recipient} (h : recipient ∈ acceptedSince record) :
    ∃ e ∈ record, e.Is .rcptTo 250 ∧ e.recipient = recipient := by
  induction record using List.reverseRecOn with
  | nil => cases h
  | append_singleton record e ih =>
    have hold : recipient ∈ acceptedSince record →
        ∃ f ∈ record ++ [e], f.Is .rcptTo 250 ∧ f.recipient = recipient := by
      intro hmem
      obtain ⟨f, hf, hrest⟩ := ih hmem
      exact ⟨f, List.mem_append_left _ hf, hrest⟩
    rw [acceptedSince, List.foldl_append, List.foldl_cons, List.foldl_nil, ← acceptedSince,
      keepAccepted] at h
    split at h
    · cases h
    split at h
    · rename_i his
      rcases List.mem_append.mp h with hmem | hlast
      · exact hold hmem
      · exact ⟨e, by simp, his, (List.mem_singleton.mp hlast).symm⟩
    · exact hold h

/-- The domain and the user of an accepted recipient stay below the root of the mailboxes. -/
def Exchange.WayStays (e : Exchange) : Prop :=
  ∀ parts ∈ splitAddress e.session.getAddress,
    Location.StaysBelow (location mailboxesRoot) (mailboxWay parts.1 parts.2)

instance (e : Exchange) : Decidable e.WayStays := inferInstanceAs (Decidable (∀ _ ∈ _, _))

theorem Exchange.Takes.recipient_eq {e : Exchange} (h : e.Takes) : ∃ user domain,
    splitAddress e.session.getAddress = some (user, domain) ∧
      e.recipient.2 = mboxPath user domain := by
  obtain ⟨-, -, user, domain, hsplit, -⟩ := h
  exact ⟨user, domain, hsplit, by rw [Exchange.recipient, mailbox, hsplit]⟩

/-- The mailboxes of the accepted recipients are confined, and so are the copies that
`deliverMessage` makes, exactly when the ways of the addresses stay below the root. -/
theorem mailboxes_confined_iff (hrun : Run id buffer d s record) :
    ((∀ e ∈ record, e.Is .rcptTo 250 → Confined e.recipient.2) ∧
      ∀ (r : Refusals) (disk : Disk) (p : Path),
        (deliverMessage r s.session disk).2.files.content p = disk.files.content p ∨
          ∃ name, Confined name ∧ p = disk.files.denotes name) ↔
      ∀ e ∈ record, e.handler = some .rcptTo → e.Takes → e.WayStays := by
  constructor
  · rintro ⟨hconfined, -⟩ e he hhandler htakes
    have hrecipient := hconfined e he ⟨hhandler, (Exchange.rcptTo_iff hhandler).mpr htakes⟩
    obtain ⟨user, domain, hsplit, hpath⟩ := htakes.recipient_eq
    rw [hpath] at hrecipient
    rintro ⟨user', domain'⟩ hparts
    obtain ⟨rfl, rfl⟩ := Prod.mk.inj (Option.some.inj (hsplit.symm.trans hparts))
    exact (below_mboxPath_iff user domain).mp hrecipient
  · intro hall
    have hconfined : ∀ e ∈ record, e.Is .rcptTo 250 →
        Confined e.recipient.2 ∧ e.recipient.2 ≠ [] := by
      intro e he his
      have htakes := (Exchange.rcptTo_iff his.1).mp his.2
      obtain ⟨user, domain, hsplit, hpath⟩ := htakes.recipient_eq
      have hway := hall e he his.1 htakes (user, domain) hsplit
      rw [hpath]
      exact ⟨(below_mboxPath_iff user domain).mpr hway,
        append_ne_nil (append_ne_nil (by decide) domain) user⟩
    refine ⟨fun e he his => (hconfined e he his).1, fun r disk p => ?_⟩
    rw [deliverMessage_all, (recipients_accepted hrun).2.1]
    refine deliverAll_confined r hrun.own (fun recipient hmem => ?_) disk p
    obtain ⟨e, he, his, rfl⟩ := mem_acceptedSince hmem
    exact hconfined e he his

/-- The mailbox of `a@b` is confined. -/
theorem mailboxes_confined_mailbox :
    Confined (nextRead (conversation sessionStart (envelopeCommands.take 2))
      (chars "RCPT TO:<a@b>\r\n")).recipient.2 := by
  have hfacts : Heard (sessionStart.settle, [])
        (envelopeCommands.take 2 ++ [chars "RCPT TO:<a@b>\r\n"]) ∧
      (nextRead (conversation sessionStart (envelopeCommands.take 2))
        (chars "RCPT TO:<a@b>\r\n")).Is .rcptTo 250 ∧
      ∀ e ∈ (conversation sessionStart (envelopeCommands.take 2)).2 ++
        [nextRead (conversation sessionStart (envelopeCommands.take 2))
          (chars "RCPT TO:<a@b>\r\n")], e.handler = some .rcptTo → e.WayStays := by
    decide +kernel
  obtain ⟨hheard, his, hstays⟩ := hfacts
  exact ((mailboxes_confined_iff (conversation_next hheard)).mpr
    fun e he hhandler _ => hstays e he hhandler).1 _
      (List.mem_append_right _ List.mem_cons_self) his

/-- The mailbox of a user `../../x` lies beside the root. -/
theorem mailbox_outside : ∃ (s : State) (before : List Exchange) (rcpt : Exchange),
    Run 1 (.full 0) mailDisk s (before ++ [rcpt]) ∧ rcpt.Is .rcptTo 250 ∧
    s.session.accepted = [(chars "../../x@b", chars "./mailboxes/b/../../x")] ∧
    location (chars "./mailboxes/b/../../x") = ⟨false, 0, [chars "x"]⟩ ∧
    ¬ Confined (chars "./mailboxes/b/../../x") := by
  have hfacts : Heard (sessionStart.settle, [])
        (envelopeCommands.take 2 ++ [chars "RCPT TO:<../../x@b>\r\n"]) ∧
      (nextRead (conversation sessionStart (envelopeCommands.take 2))
        (chars "RCPT TO:<../../x@b>\r\n")).Is .rcptTo 250 ∧
      (conversation sessionStart (envelopeCommands.take 2 ++
        [chars "RCPT TO:<../../x@b>\r\n"])).1.session.accepted =
        [(chars "../../x@b", chars "./mailboxes/b/../../x")] ∧
      location (chars "./mailboxes/b/../../x") = ⟨false, 0, [chars "x"]⟩ ∧
      ¬ Confined (chars "./mailboxes/b/../../x") := by
    decide +kernel
  obtain ⟨hheard, hrest⟩ := hfacts
  exact ⟨_, _, _, conversation_next hheard, hrest⟩

end Smtp
end NetworkProtocols
