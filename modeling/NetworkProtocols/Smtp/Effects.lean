import NetworkProtocols.Smtp.Delivery
import NetworkProtocols.Smtp.MailboxPaths

/-!
# What a read does to the disk

Of all the handlers three touch the disk: HELO opens the message, RSET removes it, and in message
mode a read is written to it or, when it is the terminator, has it delivered and removed.
-/

namespace NetworkProtocols
namespace Smtp

open Bytes SMTPSession PathName

/-- The stream of the message, its path and the disk behind a read. The other fields of the
session are left open. -/
inductive Effect (r : Refusals) (chunk : Bytes) (s : SMTPSession) (d : Disk) :
    SMTPSession → Disk → Prop
  | command {t} : s.receiveMessage = false → t.id = s.id → t.messageOut = s.messageOut →
      t.messagePath = s.messagePath → Effect r chunk s d t d
  | opened {t} : s.receiveMessage = false → t.receiveMessage = false → t.id = s.id →
      t.messageOut = (d.openFile r s.messageOut (newMessagePath s.id)).1 →
      t.messagePath = (if t.messageOut.fail then [] else newMessagePath s.id) →
      Effect r chunk s d t (d.openFile r s.messageOut (newMessagePath s.id)).2
  | reset {t} : s.receiveMessage = false → t.receiveMessage = false → t.id = s.id →
      t.messageOut = s.messageOut.close → t.messagePath = s.messagePath →
      Effect r chunk s d t (d.remove r s.messagePath)
  | text {t} : s.receiveMessage = true → t.receiveMessage = true → t.id = s.id →
      t.messageOut = (d.writeOut r s.messageOut chunk).1 → t.messagePath = s.messagePath →
      Effect r chunk s d t (d.writeOut r s.messageOut chunk).2
  | delivered {t} : s.receiveMessage = true → t.receiveMessage = true → t.id = s.id →
      t.messageOut = s.messageOut.close.close → t.messagePath = s.messagePath →
      Effect r chunk s d t ((afterLoop r s d).remove r s.messagePath)

variable {r : Refusals} {chunk : Bytes} {s : SMTPSession} {d : Disk}

theorem processHelo_effect (hmode : s.receiveMessage = false) :
    Effect r chunk s d ((s.fill chunk).processHelo r d).1
      ((s.fill chunk).processHelo r d).2.1 := by
  unfold processHelo createMessage
  dsimp only [fill]
  cases hfail : (d.openFile r s.messageOut (newMessagePath s.id)).1.fail with
  | true => exact .opened hmode hmode rfl rfl (by simp [hfail])
  | false => exact .opened hmode hmode rfl rfl (by simp [hfail])

theorem processCommand_effect (hmode : s.receiveMessage = false) :
    Effect r chunk s d ((s.fill chunk).processCommand r d).1
      ((s.fill chunk).processCommand r d).2.1 := by
  unfold processCommand
  cases dispatch (s.fill chunk).recvBuffer.bytes with
  | helo => exact processHelo_effect hmode
  | data =>
    change Effect r chunk s d ((s.fill chunk).processData d).1 ((s.fill chunk).processData d).2.1
    unfold processData
    split
    · exact .command hmode rfl rfl rfl
    · exact .command hmode rfl rfl rfl
  | mailFrom =>
    rcases processMailFrom_cases (s.fill chunk) d with ⟨_, -, heq⟩ | ⟨-, -, heq⟩
    · simp only [heq]
      exact .command hmode rfl rfl rfl
    · simp only [heq]
      exact .command hmode rfl rfl rfl
  | rcptTo =>
    rcases processRcptTo_cases r (s.fill chunk) d with
      ⟨_, -, heq⟩ | ⟨-, -, -, _, _, -, -, heq⟩
    · simp only [heq]
      exact .command hmode rfl rfl rfl
    · simp only [heq]
      exact .command hmode rfl rfl rfl
  | rset => exact .reset hmode rfl rfl rfl rfl
  | vrfy => exact .command hmode rfl rfl rfl
  | noop => exact .command hmode rfl rfl rfl
  | quit => exact .command hmode rfl rfl rfl
  | reply _ => exact .command hmode rfl rfl rfl

theorem processMessage_effect (hread : IsRead chunk) (hmode : s.receiveMessage = true) :
    Effect r chunk s d ((s.fill chunk).processMessage r d).1
      ((s.fill chunk).processMessage r d).2.1 := by
  by_cases hc : chunk = terminator
  · subst hc
    obtain ⟨unknown, heq⟩ := processMessage_terminator (r := r) s d
    rw [heq]
    exact .delivered hmode hmode rfl rfl rfl
  · rw [processMessage_text hread hc]
    exact .text hmode hmode rfl rfl rfl

theorem onReceive_effect (hread : IsRead chunk) :
    Effect r chunk s d ((s.fill chunk).onReceive r d).1 ((s.fill chunk).onReceive r d).2.1 := by
  unfold onReceive
  cases hmode : (s.fill chunk).receiveMessage with
  | true => exact processMessage_effect hread hmode
  | false => exact processCommand_effect hmode

theorem Step.effect {s t : State} {e : Event} (h : Step s e t) :
    (∃ chunk r, e = .received chunk r ∧ Effect r chunk s.session s.disk t.session t.disk) ∨
      ((∀ chunk r, e ≠ .received chunk r) ∧ t.session = s.session ∧ t.disk = s.disk) := by
  cases h with
  | @received chunk r _ hread => exact .inl ⟨chunk, r, rfl, onReceive_effect hread⟩
  | sent _ =>
    refine .inr ⟨nofun, ?_⟩
    unfold State.onSent
    split
    · exact ⟨rfl, rfl⟩
    · exact ⟨rfl, rfl⟩
  | failed _ => exact .inr ⟨nofun, rfl, rfl⟩

/-- The session has no file open but its message, and its path leads nowhere else. -/
structure Tidy (denotes : Bytes → Path) (id : UInt32) (s : SMTPSession) : Prop where
  number : s.id = id
  path : OwnMessage s
  out : s.messageOut.In fun p => p = denotes (newMessagePath id)

theorem Tidy.messagePath {denotes : Bytes → Path} {id : UInt32} (h : Tidy denotes id s) :
    s.messagePath = [] ∨ s.messagePath = newMessagePath id := by
  have hpath := h.path
  rwa [OwnMessage, h.number] at hpath

theorem tidy_start (denotes : Bytes → Path) (id : UInt32) (buffer : Buffer) :
    Tidy denotes id { id, recvBuffer := buffer } := ⟨rfl, .inl rfl, fun _ h => nomatch h⟩

theorem deliverTo_keeps (own : Path → Prop) (path : Bytes) (recipient : Recipient)
    (unknown : List Bytes) (d : Disk) :
    Disk.Keeps own (deliverTo r path recipient unknown d).2 d := by
  unfold deliverTo
  split
  · exact .refl own d
  split
  · exact Disk.copy_keeps own path recipient.2
  · exact .refl own d

theorem afterLoop_keeps (own : Path → Prop) (s : SMTPSession) (d : Disk) :
    Disk.Keeps own (afterLoop r s d) d := by
  unfold afterLoop
  induction s.accepted generalizing d with
  | nil => exact .refl own d
  | cons recipient recipients ih => exact (ih _).trans (deliverTo_keeps own _ recipient [] d)

section Tidy

variable {id : UInt32} {t : SMTPSession} {d' : Disk}

theorem Effect.layout (h : Effect r chunk s d t d') : Disk.SameLayout d' d := by
  cases h with
  | command => exact .refl d
  | opened => exact Disk.openFile_layout _
  | reset => exact Disk.remove_layout _
  | text => exact Disk.writeOut_layout _
  | delivered => exact (Disk.remove_layout _).trans (afterLoop_layout s d)

theorem Effect.tidy (hs : Tidy d.files.denotes id s) (h : Effect r chunk s d t d') :
    Tidy d.files.denotes id t := by
  have hpath := hs.messagePath
  have hclose := hs.out.close
  have hname : d.files.denotes (newMessagePath s.id) = d.files.denotes (newMessagePath id) := by
    rw [hs.number]
  cases h with
  | command _ hid hout hmessage =>
    exact ⟨hid.trans hs.number, by rwa [OwnMessage, hmessage, hid, hs.number],
      by simpa only [hout] using hs.out⟩
  | opened _ _ hid hout hmessage =>
    have hin := (Disk.openFile_frame (r := r) hs.out hname).1
    refine ⟨hid.trans hs.number, ?_, by rwa [hout]⟩
    rw [OwnMessage, hmessage, hid]
    split
    · exact .inl rfl
    · exact .inr rfl
  | reset _ _ hid hout hmessage =>
    exact ⟨hid.trans hs.number, by rwa [OwnMessage, hmessage, hid, hs.number], by rwa [hout]⟩
  | text _ _ hid hout hmessage =>
    have hin := (Disk.writeOut_frame (d := d) (r := r) hs.out chunk).1
    exact ⟨hid.trans hs.number, by rwa [OwnMessage, hmessage, hid, hs.number], by rwa [hout]⟩
  | delivered _ _ hid hout hmessage =>
    have hboth := hclose.close
    exact ⟨hid.trans hs.number, by rwa [OwnMessage, hmessage, hid, hs.number], by rwa [hout]⟩

/-- Of the files that were there a read changes the message of the session only. -/
theorem Effect.keeps (hs : Tidy d.files.denotes id s) (h : Effect r chunk s d t d') :
    Disk.Keeps (fun p => ¬ p = d.files.denotes (newMessagePath id)) d' d := by
  have hname : d.files.denotes (newMessagePath s.id) = d.files.denotes (newMessagePath id) := by
    rw [hs.number]
  have hmessage : s.messagePath = [] ∨
      d.files.denotes s.messagePath = d.files.denotes (newMessagePath id) :=
    hs.messagePath.imp_right (congrArg _)
  cases h with
  | command => exact .refl _ d
  | opened => exact (Disk.openFile_frame hs.out hname).2.keeps
  | reset => exact (Disk.remove_frame hmessage).keeps
  | text => exact (Disk.writeOut_frame hs.out chunk).2.keeps
  | delivered =>
    have hafter : s.messagePath = [] ∨ (afterLoop r s d).files.denotes s.messagePath =
        d.files.denotes (newMessagePath id) := by
      rw [(afterLoop_layout s d).1]
      exact hmessage
    have hremoved : Disk.AgreeOn (fun p => ¬ p = d.files.denotes (newMessagePath id))
        ((afterLoop r s d).remove r s.messagePath) _ := Disk.remove_frame hafter
    exact hremoved.keeps.trans (afterLoop_keeps _ s d)

theorem Step.tidy {s t : State} {e : Event} (hs : Tidy s.disk.files.denotes id s.session)
    (h : Step s e t) : Tidy s.disk.files.denotes id t.session := by
  rcases h.effect with ⟨chunk, r, -, heffect⟩ | ⟨-, hsession, -⟩
  · exact heffect.tidy hs
  · rw [hsession]
    exact hs

theorem Step.keeps {s t : State} {e : Event} (hs : Tidy s.disk.files.denotes id s.session)
    (h : Step s e t) :
    Disk.Keeps (fun p => ¬ p = s.disk.files.denotes (newMessagePath id)) t.disk s.disk := by
  rcases h.effect with ⟨chunk, r, -, heffect⟩ | ⟨-, -, hdisk⟩
  · exact heffect.keeps hs
  · rw [hdisk]
    exact .refl _ _

end Tidy

end Smtp
end NetworkProtocols
