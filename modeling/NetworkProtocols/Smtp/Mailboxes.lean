import NetworkProtocols.Smtp.Server

/-!
# The mail on a server

Many sessions write their messages, copy them into mailboxes and remove them, in any order. What
is in a mailbox is never written again, and it is a stretch of what one client sent.
-/

namespace NetworkProtocols
namespace Smtp

open Bytes SMTPSession Relation Transition

namespace SMTPServer

/-- Every session has only its message open. -/
structure Kept (disk : Disk) (s : SMTPServer) : Prop where
  layout : Disk.SameLayout s.disk disk
  tidy : ∀ i c, s.sessions i = some c → Tidy disk.files.denotes i c.session

variable {disk : Disk} {s t : SMTPServer}

/-- The files that are no message of a session, neither of this run nor of another one. -/
def IsMail (disk : Disk) (p : Path) : Prop := ∀ id, p ≠ disk.files.denotes (newMessagePath id)

theorem Kept.step {e : Event} (hs : Kept disk s) (h : Step s e t) :
    Kept disk t ∧ Disk.Keeps (IsMail disk) t.disk s.disk := by
  cases h with
  | accepted _ =>
    refine ⟨⟨hs.layout, fun i c hc => ?_⟩, .refl _ _⟩
    rcases entry_cases hc with ⟨rfl, rfl⟩ | ⟨-, hold⟩
    · exact tidy_start _ _ _
    · exact hs.tidy i c hold
  | acceptFailed => exact ⟨hs, .refl _ _⟩
  | @completed id c e u hc hst =>
    have htidy := hs.tidy id c hc
    have hdenotes := hs.layout.1
    rw [← hdenotes] at htidy
    have hkeeps := hst.keeps htidy
    refine ⟨⟨hkeeps.layout.trans hs.layout, fun i c' hc' => ?_⟩, hkeeps.layout, fun p hp => ?_⟩
    · rcases entry_cases hc' with ⟨rfl, rfl⟩ | ⟨-, hold⟩
      · rw [← hdenotes]
        exact hst.tidy htidy
      · exact hs.tidy i c' hold
    · refine hkeeps.content p ?_
      change p ≠ s.disk.files.denotes (newMessagePath id)
      rw [hdenotes]
      exact hp id

theorem kept_of_reachable (h : ReflTransGen (fun s t => ∃ e, Step s e t) { disk } s) :
    Kept disk s := by
  have hstep : ∀ u v, Kept disk u → (∃ e, Step u e v) → Kept disk v := by
    rintro u v hu ⟨e, hst⟩
    exact (hu.step hst).1
  have hstart : Kept disk { disk } := ⟨.refl disk, fun _ _ h => nomatch h⟩
  exact Transition.invariant hstep hstart h

/-- However the sessions go on, a file that is no message under way stays as it is. -/
theorem mail_kept (hs : ReflTransGen (fun s t => ∃ e, Step s e t) { disk } s)
    (h : ReflTransGen (fun s t => ∃ e, Step s e t) s t) {p : Path} (hp : IsMail disk p)
    {text : Bytes} (htext : s.disk.files.content p = some text) :
    t.disk.files.content p = some text := by
  have hboth : Kept disk t ∧ t.disk.files.content p = some text := by
    induction h with
    | refl => exact ⟨kept_of_reachable hs, htext⟩
    | tail _ hst ih =>
      obtain ⟨e, hst⟩ := hst
      obtain ⟨hkept, hkeeps⟩ := ih.1.step hst
      exact ⟨hkept, hkeeps.content p hp text ih.2⟩
  exact hboth.2

end SMTPServer

def Stretch (reads : List Bytes) (text : Bytes) : Prop :=
  ∃ chunks, chunks <:+: reads ∧ text = chunks.flatten

def Latest (reads : List Bytes) (text : Bytes) : Prop :=
  ∃ chunks, chunks <:+ reads ∧ text = chunks.flatten

section Stretch

variable {reads : List Bytes} {text chunk : Bytes}

theorem Stretch.more (h : Stretch reads text) (chunk : Bytes) :
    Stretch (reads ++ [chunk]) text := by
  obtain ⟨chunks, hchunks, rfl⟩ := h
  exact ⟨chunks, hchunks.trans (List.prefix_append reads [chunk]).isInfix, rfl⟩

theorem latest_nil (reads : List Bytes) : Latest reads [] := ⟨[], List.nil_suffix, rfl⟩

theorem Latest.stretch (h : Latest reads text) : Stretch reads text := by
  obtain ⟨chunks, hchunks, rfl⟩ := h
  exact ⟨chunks, hchunks.isInfix, rfl⟩

theorem Latest.add (h : Latest reads text) (chunk : Bytes) :
    Latest (reads ++ [chunk]) (text ++ chunk) := by
  obtain ⟨chunks, ⟨front, rfl⟩, rfl⟩ := h
  refine ⟨chunks ++ [chunk], ⟨front, by rw [List.append_assoc]⟩, ?_⟩
  rw [List.flatten_append, List.flatten_singleton]

end Stretch

/-- What a session that runs alone has written so far: its message, while it is open the latest
reads of it, and copies of it. -/
structure Written (disk : Disk) (id : UInt32) (reads : List Bytes) (s : SMTPSession) (d : Disk) :
    Prop where
  layout : Disk.SameLayout d disk
  tidy : Tidy disk.files.denotes id s
  message : s.messagePath ≠ [] → ∀ text,
    d.files.content (disk.files.denotes (newMessagePath id)) = some text → Stretch reads text
  growing : s.messageOut.file.isSome = true → ∀ text,
    d.files.content (disk.files.denotes (newMessagePath id)) = some text →
      (s.receiveMessage = false ∨ s.messageOut.fail = true → text = []) ∧ Latest reads text
  mails : ∀ p, p ≠ disk.files.denotes (newMessagePath id) → ∀ text,
    d.files.content p = some text → disk.files.content p = some text ∨ Stretch reads text

section Written

variable {disk d d' : Disk} {id : UInt32} {reads : List Bytes} {s t : SMTPSession} {r : Refusals}
variable {chunk : Bytes}

/-- What lies somewhere behind the loop lay there before, or is the message. -/
theorem afterLoop_content (hr : r.Whole) {p : Path} {text : Bytes}
    (h : (afterLoop r s d).files.content p = some text) :
    d.files.content p = some text ∨
      (s.messagePath ≠ [] ∧ d.files.lookup s.messagePath = some text) := by
  cases hfile : d.hasFile s.messagePath with
  | false =>
    rw [afterLoop, deliver_absent hfile] at h
    exact .inl h
  | true =>
    have hne : s.messagePath ≠ [] := by
      intro hnil
      simp [Disk.hasFile, hnil] at hfile
    obtain ⟨message, hmessage⟩ := Option.isSome_iff_exists.mp
      (show (d.files.lookup s.messagePath).isSome = true by
        simpa [Disk.hasFile, hne] using hfile)
    have hcopied := Copied.deliver (Copied.refl d) hr hmessage s.accepted
    rcases hcopied.content p with hsame | ⟨-, hnew⟩
    · exact .inl (hsame.symm.trans h)
    · exact .inr ⟨hne, hmessage.trans (hnew.symm.trans h)⟩

theorem Written.effect (h : Written disk id reads s d) (hr : r.Whole)
    (heffect : Effect r chunk s d t d') : Written disk id (reads ++ [chunk]) t d' := by
  have hdenotes := h.layout.1
  have htidy : Tidy d.files.denotes id s := by
    rw [hdenotes]
    exact h.tidy
  have htidy' := heffect.tidy htidy
  rw [hdenotes] at htidy'
  have hlayout := heffect.layout.trans h.layout
  have hname : d.files.denotes (newMessagePath s.id) = disk.files.denotes (newMessagePath id) := by
    rw [hdenotes, h.tidy.number]
  have hmails : ∀ p, p ≠ disk.files.denotes (newMessagePath id) → ∀ text,
      d.files.content p = some text →
        disk.files.content p = some text ∨ Stretch (reads ++ [chunk]) text :=
    fun p hp text htext => (h.mails p hp text htext).imp_right fun hs => hs.more chunk
  cases heffect with
  | command hmode _ hout hpath =>
    refine ⟨hlayout, htidy', fun hne text htext => ?_, fun hopen text htext => ?_, hmails⟩
    · rw [hpath] at hne
      exact (h.message hne text htext).more chunk
    · rw [hout] at hopen
      have hnil := (h.growing hopen text htext).1 (.inl hmode)
      exact ⟨fun _ => hnil, hnil ▸ latest_nil _⟩
  | opened hmode hmode' _ hout hpath =>
    rcases Disk.openFile_cases d r s.messageOut (newMessagePath s.id) with ⟨-, hfiles⟩ | hrefused
    · have hempty : ∀ text, (d.openFile r s.messageOut (newMessagePath s.id)).2.files.content
          (disk.files.denotes (newMessagePath id)) = some text → text = [] := by
        intro text htext
        rw [hfiles, hname, FileSystem.create_content_self] at htext
        exact (Option.some.inj htext).symm
      refine ⟨hlayout, htidy', fun _ text htext => ?_, fun _ text htext => ?_,
        fun p hp text htext => ?_⟩
      · rw [hempty text htext]
        exact (latest_nil _).stretch
      · rw [hempty text htext]
        exact ⟨fun _ => rfl, latest_nil _⟩
      · rw [hfiles, hname, FileSystem.create_content_of_ne _ _ hp] at htext
        exact hmails p hp text htext
    · rw [hrefused] at hout hlayout ⊢
      refine ⟨hlayout, htidy', fun hne => ?_, fun hopen text htext => ?_, hmails⟩
      · simp [hpath, hout] at hne
      · rw [hout] at hopen
        have hnil := (h.growing hopen text htext).1 (.inl hmode)
        exact ⟨fun _ => hnil, hnil ▸ latest_nil _⟩
  | reset _ _ _ hout hpath =>
    refine ⟨hlayout, htidy', fun hne text htext => ?_, fun hopen => ?_, fun p hp text htext =>
      hmails p hp text (Disk.remove_content htext)⟩
    · rw [hpath] at hne
      exact (h.message hne text (Disk.remove_content htext)).more chunk
    · simp [hout] at hopen
  | text hmode hmode' _ hout hpath =>
    rw [Disk.writeOut_whole hr] at hout hlayout ⊢
    by_cases huseless : s.messageOut.fail = true ∨ s.messageOut.file = none
    · obtain ⟨hdisk, hfile, -⟩ := Disk.write_useless (d := d) huseless chunk
      rw [hdisk] at hlayout ⊢
      refine ⟨hlayout, htidy', fun hne text htext => ?_, fun hopen text htext => ?_, hmails⟩
      · rw [hpath] at hne
        exact (h.message hne text htext).more chunk
      · rw [hout, hfile] at hopen
        have hfail : s.messageOut.fail = true := by
          refine huseless.resolve_right fun hnone => ?_
          rw [hnone] at hopen
          cases hopen
        have hnil := (h.growing hopen text htext).1 (.inr hfail)
        exact ⟨fun _ => hnil, hnil ▸ latest_nil _⟩
    · rw [not_or, Bool.not_eq_true, ← ne_eq, Option.ne_none_iff_isSome] at huseless
      obtain ⟨hfail, hopen⟩ := huseless
      obtain ⟨q, hq⟩ := Option.isSome_iff_exists.mp hopen
      obtain ⟨hstream, hfiles⟩ := Disk.write_open (d := d) hfail hq chunk
      obtain rfl : q = disk.files.denotes (newMessagePath id) := h.tidy.out q hq
      have hlatest : ∀ text, (d.write s.messageOut chunk).2.files.content
          (disk.files.denotes (newMessagePath id)) = some text →
            Latest (reads ++ [chunk]) text := by
        intro text htext
        rw [hfiles, FileSystem.append_content_self] at htext
        obtain ⟨before, hbefore, rfl⟩ := Option.map_eq_some_iff.mp htext
        exact (h.growing hopen before hbefore).2.add chunk
      refine ⟨hlayout, htidy', fun _ text htext => (hlatest text htext).stretch,
        fun _ text htext => ⟨fun hidle => ?_, hlatest text htext⟩, fun p hp text htext => ?_⟩
      · rw [hmode', hout, hstream, hfail] at hidle
        simp at hidle
      · rw [hfiles, FileSystem.append_content_of_ne _ _ _ hp] at htext
        exact hmails p hp text htext
  | delivered _ _ _ hout hpath =>
    have hbefore : ∀ p text, ((afterLoop r s d).remove r s.messagePath).files.content p =
        some text → d.files.content p = some text ∨ Stretch reads text := by
      intro p text htext
      rcases afterLoop_content hr (Disk.remove_content htext) with hold | ⟨hne, hmessage⟩
      · exact .inl hold
      · have hpath := h.tidy.messagePath.resolve_left hne
        rw [FileSystem.lookup, hpath, hdenotes] at hmessage
        exact .inr (h.message hne text hmessage)
    refine ⟨hlayout, htidy', fun hne text htext => ?_, fun hopen => ?_, fun p hp text htext => ?_⟩
    · rw [hpath] at hne
      rcases hbefore _ text htext with hold | hstretch
      · exact (h.message hne text hold).more chunk
      · exact hstretch.more chunk
    · simp [hout] at hopen
    · rcases hbefore p text htext with hold | hstretch
      · exact hmails p hp text hold
      · exact .inr (hstretch.more chunk)

/-- Every write goes through, and every copy that is begun. -/
def Unbroken (events : List Event) : Prop := ∀ chunk r, .received chunk r ∈ events → r.Whole

end Written

namespace SMTPServer

variable {disk : Disk} {s : SMTPServer} {events : List Event}

def Unbroken (events : List Event) : Prop :=
  ∀ id chunk r, .completed id (.received chunk r) ∈ events → r.Whole

theorem Unbroken.heard (h : Unbroken events) (id : UInt32) (s : SMTPServer) :
    Smtp.Unbroken (events.filterMap (heard id s)) := by
  intro chunk r hmem
  obtain ⟨e, he, heq⟩ := List.mem_filterMap.mp hmem
  cases e with
  | accepted _ => cases heq
  | acceptFailed => cases heq
  | completed i e =>
    simp only [SMTPServer.heard, Option.ite_none_right_eq_some, Option.some.injEq] at heq
    rw [heq.2] at he
    exact h i chunk r he

/-- What a session does the server does, when it is told nothing else. -/
theorem told_of_run {u v : State} {record : List Exchange}
    (h : ReflTransGen (Recorded Smtp.Step note) (u, []) (v, record))
    (hwhole : ∀ e ∈ record, e.refusals.Whole) {id : UInt32}
    (hrun : ReflTransGen (Recorded Step fun _ e => some e) ({ disk }, []) (told s id u, events))
    (hunbroken : Unbroken events) : ∃ events,
      ReflTransGen (Recorded Step fun _ e => some e) ({ disk }, []) (told s id v, events) ∧
        Unbroken events := by
  generalize hlast : (v, record) = last at h
  induction h generalizing v record with
  | refl =>
    obtain ⟨rfl, rfl⟩ := Prod.mk.inj hlast
    exact ⟨events, hrun, hunbroken⟩
  | tail _ hst ih =>
    cases hst with
    | @step u e v before hst =>
      obtain ⟨rfl, rfl⟩ := Prod.mk.inj hlast
      obtain ⟨events, hrun, hunbroken⟩ := ih
        (fun e he => hwhole e (List.mem_append_left _ he)) rfl
      have hnext : Step (told s id u) (.completed id e) (told (told s id u) id _) :=
        @Step.completed (told s id u) id u.connection e _ (Function.update_self _ _ _) hst
      have hsame : ∀ w, told (told s id u) id w = told s id w := by
        intro w
        simp only [told, Function.update_idem]
      rw [hsame] at hnext
      refine ⟨_, hrun.tail (.step hnext), fun i chunk r hmem => ?_⟩
      rcases List.mem_append.mp hmem with hbefore | hlast
      · exact hunbroken i chunk r hbefore
      · obtain ⟨-, rfl⟩ := Event.completed.inj (List.mem_singleton.mp hlast)
        exact hwhole ⟨_, _, r, chunk⟩ (List.mem_append_right _ (List.mem_singleton_self _))

theorem hear_whole (chunks : List Bytes) {p : State × List Exchange}
    (hp : ∀ e ∈ p.2, e.refusals.Whole) : ∀ e ∈ (chunks.foldl hear p).2, e.refusals.Whole := by
  induction chunks generalizing p with
  | nil => exact hp
  | cons chunk chunks ih =>
    refine ih fun e he => ?_
    rcases List.mem_append.mp he with hbefore | hlast
    · exact hp e hbefore
    · rw [List.mem_singleton.mp hlast]
      exact whole_none

def mailCommands : List Bytes :=
  envelopeCommands ++ [chars "DATA\r\n", chars "hi\r\n", terminator]

def withMail : SMTPServer := told { nextSessionId := 1, disk := mailDisk } 1
  (conversation sessionStart mailCommands).1

theorem withMail_run : ∃ events,
    ReflTransGen (Recorded Step fun _ e => some e) ({ disk := mailDisk }, []) (withMail, events) ∧
      Unbroken events := by
  have hheard : Heard (sessionStart.settle, []) mailCommands := by decide +kernel
  have haccepted : Step { disk := mailDisk } (.accepted (.full 0))
      (told { nextSessionId := 1, disk := mailDisk } 1 sessionStart) :=
    @Step.accepted { disk := mailDisk } (.full 0) rfl
  refine told_of_run (conversation_run hheard) (hear_whole mailCommands nofun)
    (.single (.step haccepted)) fun i chunk r hmem => ?_
  cases List.mem_singleton.mp hmem

theorem withMail_reachable : ReflTransGen (fun s t => ∃ e, Step s e t) { disk := mailDisk }
    withMail := by
  obtain ⟨events, hrun, -⟩ := withMail_run
  exact Recorded.steps hrun

theorem withMail_content : withMail.disk.files.content deliveredPath = some (chars "hi\r\n") := by
  decide +kernel

theorem isMail_deliveredPath : IsMail mailDisk deliveredPath := by
  intro id h
  have hfront := congrArg (List.take 5) h
  change deliveredPath.take 5 = (newMessagePath id).take 5 at hfront
  rw [newMessagePath_eq, List.take_append_of_le_length (by decide)] at hfront
  exact absurd hfront (by decide)

theorem mail_kept_hello :
    ∃ t, Step withMail (.accepted (.full 0)) t ∧
      t.disk.files.content deliveredPath = some (chars "hi\r\n") := by
  have hst := @Step.accepted withMail (.full 0) rfl
  exact ⟨_, hst, mail_kept withMail_reachable (.single ⟨_, hst⟩) isMail_deliveredPath
    withMail_content⟩

end SMTPServer

end Smtp
end NetworkProtocols
