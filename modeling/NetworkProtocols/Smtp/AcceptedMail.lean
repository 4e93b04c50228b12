import NetworkProtocols.Smtp.Delivery
import NetworkProtocols.Smtp.Ledger

/-!
# Mail that was accepted is delivered

When the terminator comes, the recipients' mailboxes get the bytes since the reply 354
exactly when the message file was opened by the one HELO of the transaction and not deleted
since.
-/

namespace NetworkProtocols
namespace Smtp

open Bytes Relation SMTPSession

variable {d d' d₀ : Disk} {r : Refusals}

/-- What the session, the disk and the ledger have to do with each other. Without `Opened`
the path is cleared, or there is no message file and the stream is closed. -/
structure Kept (s : SMTPSession) (d : Disk) (l : Ledger) : Prop where
  mode : s.receiveMessage = l.data.isSome
  accepted : s.accepted = l.accepted
  early : l.data = none → l.terminators = 0
  closed : l.helos = 0 → s.messageOut.file = none
  busy : d.openable (newMessagePath s.id) = true → l.helos ≠ 0 → l.terminators = 0 →
    s.messageOut.file.isSome = true
  opened : l.Opened d (newMessagePath s.id) →
    s.messageOut = { file := some (d.files.denotes (newMessagePath s.id)) } ∧
    s.messagePath = newMessagePath s.id ∧
    d.files.lookup (newMessagePath s.id) = some (l.data.getD [])
  lost : ¬ l.Opened d (newMessagePath s.id) →
    s.messagePath = [] ∨ (s.messagePath = newMessagePath s.id ∧
      d.files.lookup (newMessagePath s.id) = none ∧ s.messageOut.file = none)

namespace Kept

variable {s : SMTPSession} {l : Ledger} {chunk : Bytes}

/-- What the invariant does not look at. -/
theorem congr {s' : SMTPSession} (h : Kept s d l) (hid : s'.id = s.id)
    (hmode : s'.receiveMessage = s.receiveMessage) (haccepted : s'.accepted = s.accepted)
    (hpath : s'.messagePath = s.messagePath) (hout : s'.messageOut = s.messageOut) :
    Kept s' d l where
  mode := by rw [hmode, h.mode]
  accepted := by rw [haccepted, h.accepted]
  early := h.early
  closed := by rw [hout]; exact h.closed
  busy := by rw [hout, hid]; exact h.busy
  opened := by rw [hout, hpath, hid]; exact h.opened
  lost := by rw [hout, hpath, hid]; exact h.lost

theorem start (id : UInt32) (buffer : Buffer) (d : Disk) :
    Kept (State.start id buffer d).session d {} where
  mode := rfl
  accepted := rfl
  early _ := rfl
  closed _ := rfl
  busy _ h := absurd rfl h
  opened h := absurd h.2.1 (by decide)
  lost _ := .inl rfl

theorem helo (h : Kept s d l) (hr : r.Spares d) (hdata : l.data = none) :
    Kept (s.processHelo r d).1 (s.processHelo r d).2.1
      { l with helos := l.helos + 1, accepted := [] } := by
  by_cases hfree : s.messageOut.file = none ∧ d.openable (newMessagePath s.id) = true
  · obtain ⟨hfile, hopen⟩ := hfree
    have hhelos : l.helos = 0 := by
      by_contra hne
      have hbusy := h.busy hopen hne (h.early hdata)
      rw [hfile] at hbusy
      cases hbusy
    have hgranted := hr.opening _ hopen
    have hlayout := Disk.openFile_layout (d := d) (r := r) (s := s.messageOut) (newMessagePath s.id)
    rw [processHelo_opened hfile hopen hgranted]
    refine ⟨h.mode, rfl, h.early, fun hzero => absurd hzero (Nat.succ_ne_zero _),
      fun _ _ _ => rfl, fun _ => ⟨?_, rfl, ?_⟩, fun hnot => absurd ⟨?_, ?_, h.early hdata⟩ hnot⟩
    · rw [hlayout.1]
    · rw [FileSystem.lookup, hlayout.1, (Disk.openFile_granted hfile hopen hgranted).2,
        FileSystem.create_content_self, hdata]
      rfl
    · rw [hlayout.openable, hopen]
    · simp [hhelos]
  · have hrefused : s.messageOut.file.isSome = true ∨ d.openable (newMessagePath s.id) = false := by
      rw [not_and_or] at hfree
      rcases hfree with hfile | hopen
      · exact .inl (Option.isSome_iff_ne_none.mpr hfile)
      · exact .inr (by simpa using hopen)
    rw [processHelo_refused (hrefused.imp_right .inl)]
    refine ⟨h.mode, rfl, h.early, fun hzero => absurd hzero (Nat.succ_ne_zero _),
      fun hopen _ _ => ?_, fun hopened => ?_, fun _ => .inl rfl⟩
    · rcases hrefused with hfile | hnot
      · exact hfile
      · rw [hnot] at hopen
        cases hopen
    · exfalso
      obtain ⟨hopen, hone, -⟩ := hopened
      have hfile := h.closed (Nat.succ.inj hone)
      rcases hrefused with hsome | hnot
      · rw [hfile] at hsome
        cases hsome
      · rw [hnot] at hopen
        cases hopen

theorem path (h : Kept s d l) : s.messagePath = [] ∨ s.messagePath = newMessagePath s.id := by
  by_cases hopened : l.Opened d (newMessagePath s.id)
  · exact .inr (h.opened hopened).2.1
  · exact (h.lost hopened).imp id And.left

theorem deleted {path : Bytes} (hpath : s.messagePath = [] ∨ s.messagePath = path)
    (hne : path ≠ []) (hr : d.hasFile path = true → r.removing path = false) :
    s.messagePath = [] ∨ (s.messagePath = path ∧
      (d.remove r s.messagePath).files.lookup path = none) := by
  refine hpath.imp id fun heq => ⟨heq, ?_⟩
  rw [heq]
  exact Disk.remove_lookup hne hr

theorem rset (h : Kept s d l) (hr : r.Spares d) (hdata : l.data = none) :
    Kept (s.processRset r d).1 (s.processRset r d).2.1 { l with helos := 0, accepted := [] } := by
  have hremoving : d.hasFile (newMessagePath s.id) = true →
      r.removing (newMessagePath s.id) = false :=
    fun hfile => hr.removing _ (Disk.present_of_file hfile)
  refine ⟨?_, rfl, h.early, fun _ => OfStream.close_file _, fun _ hne => absurd rfl hne,
    fun hopened => absurd hopened.2.1 Nat.zero_ne_one, fun _ => ?_⟩
  · rw [hdata]
    rfl
  · rcases deleted h.path (newMessagePath_ne_nil s.id) hremoving with hnil | ⟨heq, hnone⟩
    · exact .inl hnil
    · exact .inr ⟨heq, hnone, OfStream.close_file _⟩

theorem data (h : Kept s d l) (hdata : l.data = none) :
    Kept (s.processData d).1 (s.processData d).2.1
      (if (s.processData d).2.2 = sendResponse 354 then { l with data := some [] } else l) := by
  unfold processData
  split
  · rw [if_pos rfl]
    refine ⟨rfl, h.accepted, (fun hnone => nomatch hnone), h.closed, h.busy,
      fun hopened => ?_, h.lost⟩
    obtain ⟨hout, hpath, hlookup⟩ := h.opened hopened
    rw [hdata] at hlookup
    exact ⟨hout, hpath, hlookup⟩
  · rw [if_neg (by simp [sendResponse])]
    exact h

theorem mailFrom (h : Kept s d l) : Kept (s.processMailFrom d).1 (s.processMailFrom d).2.1 l := by
  rcases processMailFrom_cases s d with ⟨code, -, heq⟩ | ⟨-, -, heq⟩
  · rw [heq]
    exact h
  · rw [heq]
    exact h.congr rfl rfl rfl rfl rfl

theorem rcptTo (h : Kept s d l) :
    Kept (s.processRcptTo r d).1 (s.processRcptTo r d).2.1
      (if (s.processRcptTo r d).2.2 = sendResponse 250 then
        { l with accepted := l.accepted ++ [(s.getAddress, mailbox s.getAddress)] } else l) := by
  rcases processRcptTo_cases r s d with
    ⟨code, hcode, heq⟩ | ⟨-, hcount, -, user, domain, hsplit, -, heq⟩
  · rw [heq, if_neg (by simpa [sendResponse] using hcode)]
    exact h
  · have hmailbox : mailbox s.getAddress = mboxPath user domain := by rw [mailbox, hsplit]
    rw [heq, if_pos rfl]
    exact ⟨h.mode, by rw [accepted_store _ hcount, h.accepted, hmailbox], h.early, h.closed, h.busy,
      h.opened, h.lost⟩

theorem command (h : Kept s d l) (hr : r.Spares d) (hdata : l.data = none) :
    Kept (s.processCommand r d).1 (s.processCommand r d).2.1
      (l.command s (s.processCommand r d).2.2) := by
  unfold processCommand Ledger.command
  cases dispatch s.recvBuffer.bytes with
  | helo => exact h.helo hr hdata
  | data => exact h.data hdata
  | rset => exact h.rset hr hdata
  | mailFrom => exact h.mailFrom
  | rcptTo => exact h.rcptTo
  | vrfy => exact h
  | noop => exact h
  | quit => exact h
  | reply code => exact h

theorem text (h : Kept s d l) (hr : r.Whole) {bytes : Bytes} (hdata : l.data = some bytes)
    (hread : IsRead chunk) (hchunk : chunk ≠ terminator) (started : List Operation) :
    Kept ((s.fill chunk).processMessage r d).1 ((s.fill chunk).processMessage r d).2.1
      (l.text bytes chunk started) := by
  have hlayout := Disk.write_layout (d := d) (s := s.messageOut) chunk
  have hfile := Disk.write_file (d := d) (s := s.messageOut) chunk
  have hiff : (l.text bytes chunk started).Opened (d.write s.messageOut chunk).2
      (newMessagePath s.id) ↔ l.Opened d (newMessagePath s.id) := by
    simp only [Ledger.Opened, Ledger.text, hchunk, false_and, if_false, hlayout.openable]
  rw [processMessage_text hread hchunk, Disk.writeOut_whole hr]
  refine ⟨?_, h.accepted, (fun hnone => nomatch hnone), fun hzero => ?_, fun hopen hne hlast => ?_,
    fun hopened => ?_, fun hnot => ?_⟩
  · rw [show (l.text bytes chunk started).data.isSome = l.data.isSome by rw [hdata]; rfl, ← h.mode]
    rfl
  · exact hfile.trans (h.closed hzero)
  · rw [hlayout.openable] at hopen
    have hlast' : l.terminators = 0 := by simpa [Ledger.text, hchunk] using hlast
    exact (congrArg Option.isSome hfile).trans (h.busy hopen hne hlast')
  · obtain ⟨hout, hpath, hlookup⟩ := h.opened (hiff.mp hopened)
    obtain ⟨hsame, hfiles⟩ := Disk.write_open (d := d) (s := s.messageOut) (by rw [hout])
      (congrArg OfStream.file hout) chunk
    refine ⟨?_, hpath, ?_⟩
    · rw [hlayout.1]
      exact hsame.trans hout
    · rw [FileSystem.lookup, hdata] at hlookup
      rw [FileSystem.lookup, hfiles]
      simp only [FileSystem.append_toNaming, fill, FileSystem.append_content_self, hlookup,
        Option.map_some, Ledger.text, Option.getD_some]
  · rcases h.lost (mt hiff.mpr hnot) with hnil | ⟨hpath, hnone, hclosed⟩
    · exact .inl hnil
    · refine .inr ⟨hpath, ?_, hfile.trans hclosed⟩
      rw [(Disk.write_useless (.inr hclosed) chunk).1]
      exact hnone

theorem afterLoop_removing (h : Kept s d l) (hr : r.Spares d)
    (hafter : (afterLoop r s d).hasFile (newMessagePath s.id) = true) :
    r.removing (newMessagePath s.id) = false := by
  cases hfile : d.hasFile (newMessagePath s.id) with
  | true => exact hr.removing _ (Disk.present_of_file hfile)
  | false =>
    have habsent : d.hasFile s.messagePath = false := by
      rcases h.path with hnil | heq
      · rw [hnil]
        rfl
      · rw [heq, hfile]
    rw [afterLoop, deliver_absent habsent, hfile] at hafter
    cases hafter

theorem ended (h : Kept s d l) (hr : r.Spares d) {bytes : Bytes} (hdata : l.data = some bytes) :
    Kept ((s.fill terminator).processMessage r d).1 ((s.fill terminator).processMessage r d).2.1
      (l.text bytes terminator (sendResponse 250)) := by
  obtain ⟨unknown, heq⟩ := processMessage_terminator (r := r) s d
  have hended : (l.text bytes terminator (sendResponse 250)).terminators ≠ 0 := by
    simp [Ledger.text]
  rw [heq]
  refine ⟨?_, h.accepted, (fun hnone => nomatch hnone), fun _ => OfStream.close_file _,
    fun _ _ hzero => absurd hzero hended, fun hopened => absurd hopened.2.2 hended, fun _ => ?_⟩
  · rw [show (l.text bytes terminator (sendResponse 250)).data.isSome = l.data.isSome by
      rw [hdata]; rfl]
    exact h.mode
  · rcases deleted h.path (newMessagePath_ne_nil s.id) (h.afterLoop_removing hr)
      with hnil | ⟨hpath, hnone⟩
    · exact .inl hnil
    · exact .inr ⟨hpath, hnone, OfStream.close_file _⟩

/-- Which messages reach their recipients. -/
theorem delivered_iff (h : Kept s d l) (hr : r.Spares d) {bytes : Bytes}
    (hdata : l.data = some bytes) (hnew : ∀ recipient ∈ l.accepted,
      d.hasDirectory recipient.2 = true →
      d.present (PathName.append recipient.2 (messageName s.id)) = false) :
    (∀ recipient ∈ l.accepted, d.hasDirectory recipient.2 = true →
      ((afterLoop r s d).remove r s.messagePath).files.lookup
        (PathName.append recipient.2 (messageName s.id)) = some bytes) ↔
    (∀ recipient ∈ l.accepted, d.hasDirectory recipient.2 = false) ∨
      l.Opened d (newMessagePath s.id) := by
  constructor
  · intro hdelivered
    by_contra hcon
    obtain ⟨hsome, hnot⟩ := not_or.mp hcon
    simp only [not_forall, Bool.not_eq_false] at hsome
    obtain ⟨recipient, hmem, hdir⟩ := hsome
    have habsent : d.hasFile s.messagePath = false := by
      rcases h.lost hnot with hnil | ⟨hpath, hnone, -⟩
      · rw [hnil]
        rfl
      · rw [hpath]
        exact Disk.hasFile_eq_false hnone
    have hnone := (Copied.target_new (hnew recipient hmem hdir) hdir).2
    have hsome := hdelivered recipient hmem hdir
    rw [afterLoop, deliver_absent habsent, Disk.remove_absent habsent, FileSystem.lookup, hnone]
      at hsome
    cases hsome
  · rintro (hnone | hopened) recipient hmem hdir
    · rw [hnone recipient hmem] at hdir
      cases hdir
    · obtain ⟨-, hpath, hlookup⟩ := h.opened hopened
      rw [hdata, Option.getD_some] at hlookup
      have hnone := (Copied.target_new (hnew recipient hmem hdir) hdir).2
      have hlayout := ((Copied.refl d).deliver hr.toWhole hlookup s.accepted).layout
      have hmade := (Copied.refl d).deliver_made hr (newMessagePath_ne_nil s.id) hlookup
        (h.accepted ▸ hmem) hdir (by rw [filename_newMessagePath]; exact hnew recipient hmem hdir)
      rw [filename_newMessagePath] at hmade
      rw [hpath, Disk.remove_lookup_of_ne]
      · rw [afterLoop, hpath, FileSystem.lookup, hlayout.1]
        exact hmade
      · rw [afterLoop, hpath, hlayout.1]
        intro heq
        rw [heq] at hnone
        rw [FileSystem.lookup, hnone] at hlookup
        cases hlookup

/-- A read that is handled. -/
theorem received (h : Kept s d l) (hr : r.Spares d) (hread : IsRead chunk) :
    Kept ((s.fill chunk).onReceive r d).1 ((s.fill chunk).onReceive r d).2.1
      (l.read (s.fill chunk) chunk ((s.fill chunk).onReceive r d).2.2) := by
  have hmode : (s.fill chunk).receiveMessage = l.data.isSome := h.mode
  cases hdata : l.data with
  | none =>
    have hfill : Kept (s.fill chunk) d l := h.congr rfl rfl rfl rfl rfl
    rw [onReceive, hmode, hdata, Ledger.read, hdata]
    exact hfill.command hr hdata
  | some bytes =>
    rw [onReceive, hmode, hdata, Ledger.read, hdata]
    by_cases hchunk : chunk = terminator
    · subst hchunk
      obtain ⟨unknown, heq⟩ := processMessage_terminator (r := r) s d
      have hended := h.ended hr hdata
      rw [heq] at hended
      simp only [Option.isSome_some, if_true, heq]
      exact hended
    · exact h.text hr.toWhole hdata hread hchunk _

theorem step {p q : State × Ledger} (h : Kept p.1.session p.1.disk p.2) (hstep : Observed p q) :
    Kept q.1.session q.1.disk q.2 := by
  cases hstep with
  | received hst hassumed =>
    cases hst with
    | received _ hread => exact h.received hassumed.spares hread
  | sent hst =>
    cases hst with
    | sent _ =>
      unfold State.onSent
      split <;> exact h
  | failed hst =>
    cases hst with
    | failed _ => exact h

end Kept

/-- In every run, the terminator is answered with 250, and every accepted recipient whose
mailbox exists then has the bytes of the message exactly when there is none or the message
file was opened by the one HELO of the transaction. -/
theorem mail_delivered_iff {id : UInt32} {buffer : Buffer} {d₀ : Disk} {s t : State} {l : Ledger}
    {bytes : Bytes} (hrun : ReflTransGen Observed (State.start id buffer d₀, {}) (s, l))
    (hdata : l.data = some bytes) (hstep : Step s (.received terminator r) t)
    (hassumed : Assumed s l terminator r) :
    .send 250 ∈ t.pending ∧
    ((∀ recipient ∈ l.accepted, t.disk.hasDirectory recipient.2 = true →
        t.disk.files.lookup (PathName.append recipient.2 (messageName s.session.id)) = some bytes) ↔
      (∀ recipient ∈ l.accepted, s.disk.hasDirectory recipient.2 = false) ∨
        l.Opened s.disk (newMessagePath s.session.id)) := by
  have hkept : Kept s.session s.disk l :=
    @Transition.invariant _ Observed (fun p => Kept p.1.session p.1.disk p.2)
      (fun _ _ => Kept.step) _ _ (Kept.start id buffer d₀) hrun
  obtain ⟨unknown, heq⟩ := processMessage_terminator (r := r) s.session s.disk
  have hmode : (s.session.fill terminator).receiveMessage = true := by
    rw [show (s.session.fill terminator).receiveMessage = l.data.isSome from hkept.mode, hdata]
    rfl
  cases hstep with
  | received hpending hread =>
    have hreceived : s.onReceived terminator r = { s with
        session := { s.session.fill terminator with
          messageOut := s.session.messageOut.close.close
          unknownRecipients := unknown }
        disk := (afterLoop r s.session s.disk).remove r s.session.messagePath
        pending := s.pending.erase .receive ++ sendResponse 250 } := by
      rw [State.onReceived, onReceive, hmode, if_pos rfl, heq]
    have hlayout := (Disk.remove_layout (r := r) s.session.messagePath).trans
      (afterLoop_layout (r := r) s.session s.disk)
    rw [hreceived]
    refine ⟨List.mem_append_right _ (List.mem_singleton.mpr rfl), ?_⟩
    simp only [hlayout.hasDirectory]
    exact hkept.delivered_iff hassumed.spares hdata (hassumed.noFile (by simp [hdata]) rfl)

/-- A disk with the messages directory and the mailbox `a@b`. -/
def mailDisk : Disk where
  files := { Naming.verbatim with content := fun _ => none }
  isDirectory p := p = messagesRoot ∨ p = domainPath (chars "b") ∨
    p = mboxPath (chars "a") (chars "b")
  apart _ _ := rfl

def sessionStart : State := .start 1 (.full 0) mailDisk

def transaction : List Bytes :=
  [chars "MAIL FROM:<c@d>\r\n", chars "RCPT TO:<a@b>\r\n", chars "DATA\r\n", chars "hi\r\n"]

/-- The state and the ledger before the terminator of a transaction behind other commands. -/
def before (commands : List Bytes) : State × Ledger :=
  (commands ++ transaction).foldl exchange (sessionStart.settle, {})

theorem before_run {commands : List Bytes}
    (h : Readable (sessionStart.settle, {}) (commands ++ transaction)) :
    ReflTransGen Observed (sessionStart, {}) (before commands) :=
  (settle_run _ _).trans (dialogue_run h)

/-- The path of the message in the mailbox `a@b`. -/
def deliveredPath : Bytes :=
  PathName.append (mboxPath (chars "a") (chars "b")) (messageName 1)

/-- HELO, RSET and a transaction: the message is answered with 250 and is in no file. -/
theorem reset_loses_mail : ∃ (s t : State) (l : Ledger),
    ReflTransGen Observed (sessionStart, {}) (s, l) ∧ l.data = some (chars "hi\r\n") ∧
    Step s (.received terminator {}) t ∧ Assumed s l terminator {} ∧ .send 250 ∈ t.pending ∧
    (chars "a@b", mboxPath (chars "a") (chars "b")) ∈ l.accepted ∧
    t.disk.hasDirectory (mboxPath (chars "a") (chars "b")) = true ∧
    t.disk.files.lookup deliveredPath = none := by
  let p := before [chars "HELO\r\n", chars "RSET\r\n"]
  have hfacts : Readable (sessionStart.settle, {})
        ([chars "HELO\r\n", chars "RSET\r\n"] ++ transaction) ∧
      p.2.data = some (chars "hi\r\n") ∧ .receive ∈ p.1.pending ∧ NoFile p.1 p.2 ∧
      .send 250 ∈ (p.1.onReceived terminator {}).pending ∧
      (chars "a@b", mboxPath (chars "a") (chars "b")) ∈ p.2.accepted ∧
      (p.1.onReceived terminator {}).disk.hasDirectory (mboxPath (chars "a") (chars "b")) = true ∧
      (p.1.onReceived terminator {}).disk.files.lookup deliveredPath = none := by
    decide +kernel
  obtain ⟨hreadable, hdata, hpending, hnoFile, hafter⟩ := hfacts
  exact ⟨p.1, _, p.2, before_run hreadable, hdata, .received hpending terminator_isRead,
    ⟨spares_none _, fun _ _ => hnoFile⟩, hafter⟩

theorem mail_delivered_after_helo : ∃ t : State,
    Step (before [chars "HELO\r\n"]).1 (.received terminator {}) t ∧ .send 250 ∈ t.pending ∧
    t.disk.files.lookup deliveredPath = some (chars "hi\r\n") := by
  let p := before [chars "HELO\r\n"]
  have hfacts : Readable (sessionStart.settle, {}) ([chars "HELO\r\n"] ++ transaction) ∧
      p.2.data = some (chars "hi\r\n") ∧ .receive ∈ p.1.pending ∧ NoFile p.1 p.2 ∧
      p.1.session.id = 1 ∧ (chars "a@b", mboxPath (chars "a") (chars "b")) ∈ p.2.accepted ∧
      p.1.disk.openable (newMessagePath 1) = true ∧ p.2.helos = 1 ∧ p.2.terminators = 0 ∧
      (p.1.onReceived terminator {}).disk.hasDirectory (mboxPath (chars "a") (chars "b")) =
        true := by
    decide +kernel
  obtain ⟨hreadable, hdata, hpending, hnoFile, hid, haccepted, hopen, hhelo, hfirst, hdir⟩ := hfacts
  have hstep : Step p.1 (.received terminator {}) (p.1.onReceived terminator {}) :=
    .received hpending terminator_isRead
  have hrun : ReflTransGen Observed (sessionStart, {}) (p.1, p.2) := before_run hreadable
  obtain ⟨hsent, hiff⟩ := mail_delivered_iff hrun hdata hstep ⟨spares_none _, fun _ _ => hnoFile⟩
  rw [hid] at hiff
  have hdelivered := hiff.mpr (.inr ⟨hopen, hhelo, hfirst⟩)
    (chars "a@b", mboxPath (chars "a") (chars "b")) haccepted hdir
  exact ⟨_, hstep, hsent, hdelivered⟩

end Smtp
end NetworkProtocols
