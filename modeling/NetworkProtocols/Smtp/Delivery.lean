import NetworkProtocols.Smtp.Connection

/-!
# Copies of a message

The loop of `deliverMessage` copies the message file into every mailbox that is a directory,
if there is a message file. It changes no entry that was there.
-/

namespace NetworkProtocols
namespace Smtp

open Bytes

variable {d d' d₀ : Disk} {r : Refusals}

namespace SMTPSession

/-- The disk after the loop of `deliverMessage`. -/
def afterLoop (r : Refusals) (s : SMTPSession) (d : Disk) : Disk :=
  s.accepted.foldl (fun d recipient => (deliverTo r s.messagePath recipient [] d).2) d

theorem deliverTo_layout (path : Bytes) (recipient : Recipient) (unknown : List Bytes) (d : Disk) :
    Disk.SameLayout (deliverTo r path recipient unknown d).2 d := by
  unfold deliverTo
  split
  · exact .refl d
  · split
    · exact Disk.copy_layout path recipient.2
    · exact .refl d

theorem afterLoop_layout (s : SMTPSession) (d : Disk) : Disk.SameLayout (afterLoop r s d) d := by
  unfold afterLoop
  induction s.accepted generalizing d with
  | nil => exact .refl d
  | cons recipient recipients ih => exact (ih _).trans (deliverTo_layout _ recipient [] d)

theorem deliverMessage_eq (s : SMTPSession) (d : Disk) :
    ∃ unknown, deliverMessage r s d =
      ({ s with unknownRecipients := unknown }, afterLoop r s d) := by
  have hloop : ∀ (recipients : List Recipient) (unknown : List Bytes) (d : Disk),
      (recipients.foldl (fun done recipient =>
        deliverTo r s.messagePath recipient done.1 done.2) (unknown, d)).2 =
      recipients.foldl (fun d recipient => (deliverTo r s.messagePath recipient [] d).2) d := by
    intro recipients
    induction recipients with
    | nil => exact fun _ _ => rfl
    | cons recipient recipients ih =>
      intro unknown d
      have hstep : (deliverTo r s.messagePath recipient unknown d).2 =
          (deliverTo r s.messagePath recipient [] d).2 := by
        unfold deliverTo
        split
        · rfl
        · split <;> rfl
      rw [List.foldl_cons, List.foldl_cons, ih, hstep]
  exact ⟨_, Prod.ext rfl (hloop s.accepted [] d)⟩

theorem processMessage_terminator (s : SMTPSession) (d : Disk) :
    ∃ unknown, (s.fill terminator).processMessage r d = ({ s.fill terminator with
      messageOut := s.messageOut.close.close
      unknownRecipients := unknown }, (afterLoop r s d).remove r s.messagePath,
      sendResponse 250) := by
  obtain ⟨unknown, heq⟩ :=
    deliverMessage_eq (r := r)
      { s.fill terminator with messageOut := (s.fill terminator).messageOut.close } d
  refine ⟨unknown, ?_⟩
  rw [processMessage, if_pos ((isTerminator_iff terminator_isRead).mpr rfl)]
  dsimp only at heq ⊢
  rw [heq]
  rfl

end SMTPSession

open SMTPSession

theorem deliver_absent {path : Bytes} (h : d.hasFile path = false) (recipients : List Recipient) :
    recipients.foldl (fun d recipient => (deliverTo r path recipient [] d).2) d = d := by
  have hstep : ∀ recipient, (deliverTo r path recipient [] d).2 = d := by
    intro recipient
    unfold deliverTo
    split
    · rfl
    · split
      · exact Disk.copy_absent h
      · rfl
  induction recipients with
  | nil => rfl
  | cons recipient recipients ih => rw [List.foldl_cons, hstep, ih]

/-- Every entry is as in `d₀`, or it is new and holds the text. -/
structure Copied (text : Bytes) (d₀ d : Disk) : Prop where
  layout : Disk.SameLayout d d₀
  content : ∀ p, d.files.content p = d₀.files.content p ∨
    (d₀.files.content p = none ∧ d.files.content p = some text)

namespace Copied

variable {text : Bytes}

theorem refl (d : Disk) : Copied text d d := ⟨.refl d, fun _ => .inl rfl⟩

theorem keeps (h : Copied text d₀ d) {p : Path} {content : Bytes}
    (hp : d₀.files.content p = some content) : d.files.content p = some content := by
  rcases h.content p with hc | ⟨hnone, -⟩
  · rw [hc, hp]
  · rw [hp] at hnone
    cases hnone

theorem copy (h : Copied text d₀ d) (hr : r.Whole) {path : Bytes}
    (hpath : d.files.lookup path = some text) (dest : Bytes) :
    Copied text d₀ (d.copy r path dest) := by
  refine ⟨(Disk.copy_layout path dest).trans h.layout, fun p => ?_⟩
  rcases Disk.copy_content (r := r) (d := d) path dest p with hc | ⟨hnone, hc⟩
  · rw [hc]
    exact h.content p
  · right
    rw [hc, Disk.copied_whole hr, hpath]
    refine ⟨?_, rfl⟩
    rcases h.content p with hc₀ | ⟨hnone₀, -⟩
    · rw [← hc₀, hnone]
    · exact hnone₀

theorem lookup (h : Copied text d₀ d) {path : Bytes} (hpath : d₀.files.lookup path = some text) :
    d.files.lookup path = some text := by
  rw [FileSystem.lookup, h.layout.1]
  exact h.keeps hpath

variable {path : Bytes}

theorem deliverTo (h : Copied text d₀ d) (hr : r.Whole) (hpath : d₀.files.lookup path = some text)
    (recipient : Recipient) : Copied text d₀ (deliverTo r path recipient [] d).2 := by
  unfold SMTPSession.deliverTo
  split
  · exact h
  · split
    · exact h.copy hr (h.lookup hpath) recipient.2
    · exact h

theorem target_new {mailbox name : Bytes} (hnew : d₀.present (PathName.append mailbox name) = false)
    (hdir : d₀.hasDirectory mailbox = true) :
    PathName.append mailbox name ≠ [] ∧
    d₀.files.content (d₀.files.denotes (PathName.append mailbox name)) = none := by
  have hne : mailbox ≠ [] := by
    rintro rfl
    simp [Disk.hasDirectory] at hdir
  have happend := PathName.append_ne_nil hne name
  refine ⟨happend, Disk.vacant_content ?_⟩
  simp [Disk.vacant, hnew, happend]

/-- A turn for a mailbox without a file of the message's name puts the text there. -/
theorem deliverTo_made (h : Copied text d₀ d) (hr : r.Spares d₀) (hne : path ≠ [])
    (hpath : d₀.files.lookup path = some text) {recipient : Recipient}
    (hdir : d₀.hasDirectory recipient.2 = true)
    (hnew : d₀.present (PathName.append recipient.2 (PathName.filename path)) = false) :
    (SMTPSession.deliverTo r path recipient [] d).2.files.content
      (d₀.files.denotes (PathName.append recipient.2 (PathName.filename path))) = some text := by
  obtain ⟨htarget, hnone⟩ := target_new hnew hdir
  have hsource : d.hasFile path = true := Disk.hasFile_eq_true hne (h.lookup hpath)
  have hsource₀ : d₀.hasFile path = true := Disk.hasFile_eq_true hne hpath
  have hdir' : d.hasDirectory recipient.2 = true := by rw [h.layout.hasDirectory, hdir]
  have hcopying : r.copying path recipient.2 = false :=
    hr.copying _ _ (Disk.present_of_file hsource₀) (Disk.present_of_directory hdir)
  have hto : d.copyTarget path recipient.2 =
      PathName.append recipient.2 (PathName.filename path) := by
    rw [Disk.copyTarget, hdir', if_pos rfl]
  have hstep : (SMTPSession.deliverTo r path recipient [] d).2 = d.copy r path recipient.2 := by
    rw [SMTPSession.deliverTo, hr.status _ (Disk.present_of_directory hdir),
      Disk.present_of_directory hdir']
    rfl
  rw [hstep]
  cases hvacant : d.vacant (d.copyTarget path recipient.2) with
  | true =>
    have hmade := Disk.copy_made hsource hcopying hvacant
    rw [hto, h.layout.1] at hmade
    rw [hmade, Disk.copied_whole hr.toWhole, h.lookup hpath]
  | false =>
    -- an earlier turn for the same directory made the file
    have hcopy : d.copy r path recipient.2 = d := by simp [Disk.copy, hvacant]
    rw [hcopy]
    rcases h.content (d₀.files.denotes (PathName.append recipient.2 (PathName.filename path)))
      with hc | ⟨-, hc⟩
    · exfalso
      have hfile : d.hasFile (PathName.append recipient.2 (PathName.filename path)) = false :=
        Disk.hasFile_eq_false (by rw [h.layout.1, hc, hnone])
      have hdirectory : d.hasDirectory (PathName.append recipient.2 (PathName.filename path)) =
          false := by
        rw [h.layout.hasDirectory]
        rw [Disk.present, Bool.or_eq_false_iff] at hnew
        exact hnew.2
      rw [hto] at hvacant
      simp [Disk.vacant, Disk.present, hfile, hdirectory, htarget] at hvacant
    · exact hc

theorem deliver (h : Copied text d₀ d) (hr : r.Whole) (hpath : d₀.files.lookup path = some text)
    (recipients : List Recipient) :
    Copied text d₀ (recipients.foldl
      (fun d recipient => (SMTPSession.deliverTo r path recipient [] d).2) d) := by
  induction recipients generalizing d with
  | nil => exact h
  | cons first rest ih =>
    rw [List.foldl_cons]
    exact ih (h.deliverTo hr hpath first)

theorem deliver_made (h : Copied text d₀ d) (hr : r.Spares d₀) (hne : path ≠ [])
    (hpath : d₀.files.lookup path = some text) {recipients : List Recipient}
    {recipient : Recipient} (hmem : recipient ∈ recipients)
    (hdir : d₀.hasDirectory recipient.2 = true)
    (hnew : d₀.present (PathName.append recipient.2 (PathName.filename path)) = false) :
    (recipients.foldl (fun d recipient =>
      (SMTPSession.deliverTo r path recipient [] d).2) d).files.content
        (d₀.files.denotes (PathName.append recipient.2 (PathName.filename path))) = some text := by
  induction recipients generalizing d with
  | nil => cases hmem
  | cons first rest ih =>
    have hfirst := h.deliverTo hr.toWhole hpath first
    rw [List.foldl_cons]
    rcases List.mem_cons.mp hmem with rfl | hrest
    · have hmade := h.deliverTo_made hr hne hpath hdir hnew
      exact (deliver (refl _) hr.toWhole (hfirst.lookup hpath) rest).keeps hmade
    · exact ih hfirst hrest

end Copied

end Smtp
end NetworkProtocols
