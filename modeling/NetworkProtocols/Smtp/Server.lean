import NetworkProtocols.Smtp.Effects

/-!
# The sessions of a server

`SMTPServer` numbers its sessions and never removes one; `closeSession` is empty. All of them
write into the same directories. A message file is named after the number of its session, in the
mailboxes too, so what the sessions do to the disk lies apart.
-/

namespace NetworkProtocols
namespace Smtp

open Bytes SMTPSession PathName

/-- A session with its pending operations, without the disk. -/
structure Connection where
  session : SMTPSession
  pending : List Operation
  closed : Bool

/-- The session on a disk. -/
def Connection.on (c : Connection) (disk : Disk) : State where
  session := c.session
  disk := disk
  pending := c.pending
  closed := c.closed

def State.connection (s : State) : Connection where
  session := s.session
  pending := s.pending
  closed := s.closed

structure SMTPServer where
  nextSessionId : UInt32 := 0
  sessions : UInt32 → Option Connection := fun _ => none
  disk : Disk

namespace SMTPServer

/-- The completion of an accept, or of an operation of a session. -/
inductive Event
  | accepted (recvBuffer : Buffer)
  | acceptFailed
  | completed (id : UInt32) (e : Smtp.Event)

/-- One completion. An accept that comes round to a number in use is left out: it destroys a
session that has operations pending. -/
inductive Step : SMTPServer → Event → SMTPServer → Prop
  | accepted {s recvBuffer} : s.sessions (s.nextSessionId + 1) = none →
      Step s (.accepted recvBuffer) { s with
        nextSessionId := s.nextSessionId + 1
        sessions := Function.update s.sessions (s.nextSessionId + 1)
          (some (State.start (s.nextSessionId + 1) recvBuffer s.disk).connection) }
  | acceptFailed {s} : Step s .acceptFailed s
  | completed {s id c e t} : s.sessions id = some c → Smtp.Step (c.on s.disk) e t →
      Step s (.completed id e) { s with
        sessions := Function.update s.sessions id (some t.connection)
        disk := t.disk }

end SMTPServer

theorem digits_leftpad (n : ℕ) : Nat.ofDigitChars 10 ((Nat.toDigits 10 n).leftpad 5 '0') 0 = n := by
  rw [List.leftpad, Nat.ofDigitChars_append, Nat.ofDigitChars_replicate_zero, Nat.mul_zero,
    Nat.ofDigitChars_ten_toDigits]

theorem char_of_byte {c : Char} (h : c.isDigit = true) :
    Char.ofNat (UInt8.ofNat c.toNat).toNat = c := by
  simp only [Char.isDigit, Bool.and_eq_true, decide_eq_true_eq] at h
  have hhigh : c.toNat ≤ 57 := h.2
  rw [UInt8.toNat_ofNat', Nat.mod_eq_of_lt (by omega), Char.ofNat_toNat]

theorem isDigit_of_mem_leftpad {n : ℕ} {c : Char} (h : c ∈ (Nat.toDigits 10 n).leftpad 5 '0') :
    c.isDigit = true := by
  rw [List.leftpad, List.mem_append, List.mem_replicate] at h
  rcases h with ⟨-, rfl⟩ | h
  · decide
  · exact Nat.isDigit_of_mem_toDigits (by decide) (by decide) h

theorem messageName_injective : Function.Injective messageName := by
  intro id id' h
  have hdigits := List.append_cancel_left (List.append_cancel_right h)
  have hback := congrArg (List.map fun b : Byte => Char.ofNat b.toNat) hdigits
  have hid : ∀ id : UInt32, ((((Nat.toDigits 10 id.toNat).leftpad 5 '0').map
      fun c => UInt8.ofNat c.toNat).map fun b : Byte => Char.ofNat b.toNat) =
        (Nat.toDigits 10 id.toNat).leftpad 5 '0' := by
    intro id
    rw [List.map_map]
    exact (List.map_congr_left fun c hc => char_of_byte (isDigit_of_mem_leftpad hc)).trans
      (List.map_id' _)
  rw [hid, hid] at hback
  have hnat := congrArg (Nat.ofDigitChars 10 · 0) hback
  simp only [digits_leftpad] at hnat
  exact UInt32.toNat.inj hnat

def Own (denotes : Bytes → Path) (id : UInt32) (p : Path) : Prop :=
  ∃ name, filename name = messageName id ∧ denotes name = p

/-- No link leads from a message to another one with a different name. -/
def Unlinked (d : Disk) : Prop :=
  ∀ name name' id id', filename name = messageName id → filename name' = messageName id' →
    d.files.denotes name = d.files.denotes name' → filename name = filename name'

theorem Unlinked.apart {d : Disk} (h : Unlinked d) {id id' : UInt32} (hne : id ≠ id') {p : Path}
    (hp : Own d.files.denotes id p) : ¬ Own d.files.denotes id' p := by
  obtain ⟨name, hname, rfl⟩ := hp
  rintro ⟨name', hname', heq⟩
  have hsame := h name name' id id' hname hname' heq.symm
  rw [hname, hname'] at hsame
  exact hne (messageName_injective hsame)

section Own

variable {denotes : Bytes → Path} {id : UInt32} {s : SMTPSession} {d d' : Disk} {r : Refusals}

theorem own_newMessagePath (denotes : Bytes → Path) (id : UInt32) :
    Own denotes id (denotes (newMessagePath id)) := ⟨_, filename_newMessagePath id, rfl⟩

theorem filename_append_messageName {dest : Bytes} (hne : dest ≠ []) (id : UInt32) :
    filename (append dest (messageName id)) = messageName id := by
  have hslash := slash_notMem_messageName id
  by_cases hlast : dest.getLast? = some slash
  · obtain ⟨front, rfl⟩ : ∃ front, dest = front ++ [slash] :=
      ⟨dest.dropLast, (List.dropLast_append_getLast? slash hlast).symm⟩
    rw [append, if_pos (.inr (.inl hlast)), List.append_assoc, List.singleton_append,
      filename_append hslash]
  · have hname : messageName id ≠ [] := by simp [messageName, chars]
    have hhead : (messageName id).head? ≠ some slash := fun h => hslash (List.mem_of_head? h)
    rw [append, if_neg, filename_append hslash]
    rintro (h | h | h | h)
    · exact hne h
    · exact hlast h
    · exact hname h
    · exact hhead h

theorem own_copyTarget {dest : Bytes} (hdir : d.hasDirectory dest = true) :
    Own denotes id (denotes (d.copyTarget (newMessagePath id) dest)) := by
  have hne : dest ≠ [] := by
    rintro rfl
    simp [Disk.hasDirectory] at hdir
  rw [Disk.copyTarget, if_pos hdir, filename_newMessagePath]
  exact ⟨_, filename_append_messageName hne id, rfl⟩

theorem Tidy.message (h : Tidy denotes id s) :
    s.messagePath = [] ∨ Own denotes id (denotes s.messagePath) := by
  rcases h.messagePath with hnil | hpath
  · exact .inl hnil
  · rw [hpath]
    exact .inr (own_newMessagePath denotes id)

end Own

/-- The handlers do the same, up to the list of unknown recipients, which nothing reads. -/
structure Alike (own : Path → Prop) (o o' : Outcome) : Prop where
  session : ∃ unknown, o'.1 = { o.1 with unknownRecipients := unknown }
  disk : Disk.AgreeOn own o.2.1 o'.2.1
  started : o'.2.2 = o.2.2

section Handlers

variable {id : UInt32} {s : SMTPSession} {d d' : Disk} {r : Refusals}

theorem Alike.same {own : Path → Prop} (h : Disk.AgreeOn own d d') (t : SMTPSession)
    (unknown : List Bytes) (started : List Operation) :
    Alike own (t, d, started) ({ t with unknownRecipients := unknown }, d', started) :=
  ⟨⟨unknown, rfl⟩, h, rfl⟩

theorem deliverTo_no_directory {path : Bytes} {recipient : Recipient} {unknown : List Bytes}
    (h : d.hasDirectory recipient.2 = false) :
    (deliverTo r path recipient unknown d).2 = d := by
  unfold deliverTo
  split
  · rfl
  split
  · rename_i hpresent
    refine Disk.copy_refused (.inr (.inr ?_))
    rw [Disk.copyTarget, h, if_neg (by simp), Disk.vacant, hpresent]
    simp
  · rfl

theorem deliverTo_frame {path : Bytes} (hpath : path = [] ∨ path = newMessagePath id)
    (recipient : Recipient) (unknown : List Bytes) (d : Disk) :
    Disk.AgreeOn (fun p => ¬ Own d.files.denotes id p)
      (deliverTo r path recipient unknown d).2 d := by
  cases hdir : d.hasDirectory recipient.2 with
  | false =>
    rw [deliverTo_no_directory hdir]
    exact .refl _ d
  | true =>
    unfold deliverTo
    split
    · exact .refl _ d
    split
    · rcases hpath with rfl | rfl
      · rw [Disk.copy_refused (.inl rfl)]
        exact .refl _ d
      · exact Disk.copy_frame (own_copyTarget hdir)
    · exact .refl _ d

theorem deliverTo_alike {path : Bytes} (hpath : path = [] ∨ path = newMessagePath id)
    (recipient : Recipient) (unknown unknown' : List Bytes)
    (h : Disk.AgreeOn (Own d.files.denotes id) d d') :
    Disk.AgreeOn (Own d.files.denotes id) (deliverTo r path recipient unknown d).2
      (deliverTo r path recipient unknown' d').2 := by
  have hdir' := h.1.hasDirectory recipient.2
  cases hdir : d.hasDirectory recipient.2 with
  | false =>
    rw [deliverTo_no_directory hdir, deliverTo_no_directory (hdir' ▸ hdir)]
    exact h
  | true =>
    have hpresent := Disk.present_of_directory hdir
    have hpresent' := Disk.present_of_directory (hdir' ▸ hdir)
    simp only [deliverTo, hpresent, hpresent', if_true]
    split
    · exact h
    · rcases hpath with rfl | rfl
      · rw [Disk.copy_refused (.inl rfl), Disk.copy_refused (.inl rfl)]
        exact h
      · exact h.copy (own_newMessagePath _ id) (own_copyTarget hdir)

theorem afterLoop_frame (hs : Tidy d.files.denotes id s) :
    Disk.AgreeOn (fun p => ¬ Own d.files.denotes id p) (afterLoop r s d) d := by
  have hall : ∀ (recipients : List Recipient) (e : Disk), Disk.SameLayout e d →
      Disk.AgreeOn (fun p => ¬ Own d.files.denotes id p)
        (recipients.foldl (fun e recipient => (deliverTo r s.messagePath recipient [] e).2) e)
        e := by
    intro recipients
    induction recipients with
    | nil => exact fun e _ => .refl _ e
    | cons recipient recipients ih =>
      intro e he
      have hturn := deliverTo_frame (r := r) hs.messagePath recipient [] e
      rw [he.1] at hturn
      exact (ih _ (hturn.1.trans he)).trans hturn
  exact hall s.accepted d (.refl d)

/-- A read changes entries of the session only. -/
theorem Effect.frame {chunk : Bytes} {t : SMTPSession} (hs : Tidy d.files.denotes id s)
    (h : Effect r chunk s d t d') : Disk.AgreeOn (fun p => ¬ Own d.files.denotes id p) d' d := by
  have hname : d.files.denotes (newMessagePath s.id) = d.files.denotes (newMessagePath id) := by
    rw [hs.number]
  have hown : ∀ p, ¬ Own d.files.denotes id p → ¬ p = d.files.denotes (newMessagePath id) := by
    rintro p hp rfl
    exact hp (own_newMessagePath _ id)
  cases h with
  | command => exact .refl _ d
  | opened => exact (Disk.openFile_frame hs.out hname).2.mono hown
  | reset => exact Disk.remove_frame hs.message
  | text => exact (Disk.writeOut_frame hs.out chunk).2.mono hown
  | delivered =>
    have hmessage : s.messagePath = [] ∨
        Own d.files.denotes id ((afterLoop r s d).files.denotes s.messagePath) := by
      rw [(afterLoop_layout s d).1]
      exact hs.message
    exact (Disk.remove_frame hmessage).trans (afterLoop_frame hs)

theorem afterLoop_alike (hs : Tidy d.files.denotes id s)
    (h : Disk.AgreeOn (Own d.files.denotes id) d d') :
    Disk.AgreeOn (Own d.files.denotes id) (afterLoop r s d) (afterLoop r s d') := by
  have hall : ∀ (recipients : List Recipient) (e e' : Disk), Disk.SameLayout e d →
      Disk.AgreeOn (Own d.files.denotes id) e e' →
      Disk.AgreeOn (Own d.files.denotes id)
        (recipients.foldl (fun e recipient => (deliverTo r s.messagePath recipient [] e).2) e)
        (recipients.foldl (fun e recipient => (deliverTo r s.messagePath recipient [] e).2)
          e') := by
    intro recipients
    induction recipients with
    | nil => exact fun _ _ _ h => h
    | cons recipient recipients ih =>
      intro e e' he h
      have hlayout := deliverTo_layout (r := r) s.messagePath recipient [] e
      rw [← he.1] at h
      have hturn := deliverTo_alike (r := r) hs.messagePath recipient [] [] h
      rw [he.1] at hturn
      exact ih _ _ (hlayout.trans he) hturn
  exact hall s.accepted d d' (.refl d) h

theorem processHelo_alike (h : Disk.AgreeOn (Own d.files.denotes id) d d')
    (unknown : List Bytes) :
    Alike (Own d.files.denotes id) (s.processHelo r d)
      (processHelo r { s with unknownRecipients := unknown } d') := by
  obtain ⟨hstream, hdisk⟩ := h.openFile (r := r) (s := s.messageOut) (newMessagePath s.id)
  unfold processHelo createMessage
  dsimp only
  rw [← hstream]
  cases hfail : (d.openFile r s.messageOut (newMessagePath s.id)).1.fail with
  | true => exact ⟨⟨unknown, rfl⟩, hdisk, rfl⟩
  | false => exact ⟨⟨unknown, rfl⟩, hdisk, rfl⟩

/-- `processRcptTo` asks the disk for directories only, and for what `exists` says of them. -/
theorem processRcptTo_alike (h : Disk.AgreeOn (Own d.files.denotes id) d d')
    (unknown : List Bytes) :
    Alike (Own d.files.denotes id) (s.processRcptTo r d)
      (processRcptTo r { s with unknownRecipients := unknown } d') := by
  have hguard : ∀ name, (!d.present name || !d.hasDirectory name) =
      (!d'.present name || !d'.hasDirectory name) := by
    intro name
    rw [← h.1.hasDirectory]
    cases hdir : d.hasDirectory name with
    | false => simp
    | true =>
      rw [Disk.present_of_directory hdir, Disk.present_of_directory (h.1.hasDirectory name ▸ hdir)]
  have haddress : getAddress { s with unknownRecipients := unknown } = s.getAddress := rfl
  simp only [processRcptTo, haddress, ← hguard]
  split
  · exact .same h s unknown _
  split
  · exact .same h s unknown _
  split
  · exact .same h s unknown _
  cases splitAddress s.getAddress with
  | none => exact .same h s unknown _
  | some parts =>
    obtain ⟨user, domain⟩ := parts
    dsimp only
    split
    · exact .same h s unknown _
    split
    · exact .same h s unknown _
    · exact ⟨⟨unknown, rfl⟩, h, rfl⟩

theorem processCommand_alike (hs : Tidy d.files.denotes id s)
    (h : Disk.AgreeOn (Own d.files.denotes id) d d') (unknown : List Bytes) :
    Alike (Own d.files.denotes id) (s.processCommand r d)
      (processCommand r { s with unknownRecipients := unknown } d') := by
  unfold processCommand
  dsimp only
  cases dispatch s.recvBuffer.bytes with
  | helo => exact processHelo_alike h unknown
  | data =>
    change Alike _ (s.processData d) (processData { s with unknownRecipients := unknown } d')
    unfold processData
    dsimp only
    split
    · exact ⟨⟨unknown, rfl⟩, h, rfl⟩
    · exact .same h s unknown _
  | mailFrom =>
    change Alike _ (s.processMailFrom d)
      (processMailFrom { s with unknownRecipients := unknown } d')
    have haddress : getAddress { s with unknownRecipients := unknown } = s.getAddress := rfl
    simp only [processMailFrom, haddress]
    split
    · exact .same h s unknown _
    split
    · exact .same h s unknown _
    · exact ⟨⟨unknown, rfl⟩, h, rfl⟩
  | rcptTo => exact processRcptTo_alike h unknown
  | rset => exact ⟨⟨unknown, rfl⟩, h.remove hs.message, rfl⟩
  | vrfy => exact .same h s unknown _
  | noop => exact .same h s unknown _
  | quit => exact .same h s unknown _
  | reply _ => exact .same h s unknown _

theorem processMessage_alike (hs : Tidy d.files.denotes id s)
    (h : Disk.AgreeOn (Own d.files.denotes id) d d') (unknown : List Bytes) :
    Alike (Own d.files.denotes id) (s.processMessage r d)
      (processMessage r { s with unknownRecipients := unknown } d') := by
  unfold processMessage
  dsimp only
  split
  · have hclosed : Tidy d.files.denotes id { s with messageOut := s.messageOut.close } :=
      ⟨hs.number, hs.path, hs.out.close⟩
    obtain ⟨unknown₁, heq₁⟩ :=
      deliverMessage_eq (r := r) { s with messageOut := s.messageOut.close } d
    obtain ⟨unknown₂, heq₂⟩ := deliverMessage_eq (r := r)
      { s with messageOut := s.messageOut.close, unknownRecipients := unknown } d'
    have hloop := afterLoop_alike (r := r) hclosed h
    have hmessage : s.messagePath = [] ∨ Own d.files.denotes id ((afterLoop r
        { s with messageOut := s.messageOut.close } d).files.denotes s.messagePath) := by
      rw [(afterLoop_layout (r := r) _ d).1]
      exact hs.message
    simp only [heq₁, heq₂, deleteMessage]
    exact ⟨⟨unknown₂, rfl⟩, hloop.remove hmessage, rfl⟩
  · obtain ⟨hstream, hdisk⟩ :=
      h.writeOut (r := r) (s := s.messageOut) (s.recvBuffer.bytes.take s.recvLength)
    refine ⟨⟨unknown, ?_⟩, hdisk, rfl⟩
    rw [hstream]

end Handlers

/-- The session on the shared disk is like the one that runs alone. -/
structure Beside (denotes : Bytes → Path) (id : UInt32) (c : Connection) (disk : Disk)
    (t : State) : Prop where
  session : ∃ unknown, t.session = { c.session with unknownRecipients := unknown }
  pending : t.pending = c.pending
  closed : t.closed = c.closed
  disk : Disk.AgreeOn (Own denotes id) disk t.disk
  tidy : Tidy denotes id c.session

section Beside

variable {denotes : Bytes → Path} {id : UInt32} {c : Connection} {disk : Disk} {s t u : State}

theorem onReceive_alike {s : SMTPSession} {d d' : Disk} (r : Refusals)
    (hs : Tidy d.files.denotes id s) (h : Disk.AgreeOn (Own d.files.denotes id) d d')
    (unknown : List Bytes) :
    Alike (Own d.files.denotes id) (s.onReceive r d)
      (onReceive r { s with unknownRecipients := unknown } d') := by
  unfold onReceive
  dsimp only
  split
  · exact processMessage_alike hs h unknown
  · exact processCommand_alike hs h unknown

theorem Step.frame {e : Event} (hs : Tidy s.disk.files.denotes id s.session)
    (h : Step s e t) :
    Disk.AgreeOn (fun p => ¬ Own s.disk.files.denotes id p) t.disk s.disk := by
  rcases h.effect with ⟨chunk, r, -, heffect⟩ | ⟨-, -, hdisk⟩
  · exact heffect.frame hs
  · rw [hdisk]
    exact .refl _ _

/-- What the session does among the others it does alone. -/
theorem Beside.own (hdenotes : disk.files.denotes = denotes) {e : Event}
    (h : Beside denotes id c disk t) (hst : Step (c.on disk) e u) :
    ∃ v, Step t e v ∧ Beside denotes id u.connection u.disk v := by
  subst hdenotes
  obtain ⟨⟨unknown, hsession⟩, hpending, hclosed, hdisk, htidy⟩ := h
  have hafter := hst.tidy htidy
  cases hst with
  | @received chunk r hreceive hread =>
    have hfill : Tidy disk.files.denotes id (c.session.fill chunk) :=
      ⟨htidy.number, htidy.path, htidy.out⟩
    have halike := onReceive_alike r hfill hdisk unknown
    have hsame : t.session.fill chunk =
        { c.session.fill chunk with unknownRecipients := unknown } := by
      rw [hsession]
      rfl
    refine ⟨_, .received (hpending ▸ hreceive) hread, ?_, ?_, hclosed, ?_, hafter⟩
    · simp only [State.onReceived, hsame]
      exact halike.session
    · simp only [State.onReceived, hsame, hpending]
      exact congrArg _ halike.started
    · simp only [State.onReceived, hsame]
      exact halike.disk
  | @sent code hsend =>
    refine ⟨_, .sent (hpending ▸ hsend), ?_⟩
    unfold State.onSent
    split
    · exact ⟨⟨unknown, hsession⟩, congrArg (List.erase · _) hpending, rfl, hdisk, htidy⟩
    · exact ⟨⟨unknown, hsession⟩, congrArg (List.erase · _ ++ _) hpending, hclosed, hdisk, htidy⟩
  | @failed op hop =>
    exact ⟨_, .failed (hpending ▸ hop), ⟨⟨unknown, hsession⟩, congrArg (List.erase · _) hpending,
      rfl, hdisk, htidy⟩⟩

theorem Beside.others {disk' : Disk} (h : Beside denotes id c disk t)
    (hdisk : Disk.AgreeOn (Own denotes id) disk' disk) : Beside denotes id c disk' t :=
  ⟨h.session, h.pending, h.closed, hdisk.trans h.disk, h.tidy⟩

end Beside

namespace SMTPServer

open Relation Transition

/-- What a session is told: its completions. -/
def heard (id : UInt32) (_ : SMTPServer) : Event → Option Smtp.Event
  | .completed i e => if i = id then some e else none
  | _ => none

/-- A session is as it would be alone after what it was told. -/
structure Apart (disk : Disk) (id : UInt32) (s : SMTPServer) (events : List Smtp.Event) :
    Prop where
  layout : Disk.SameLayout s.disk disk
  tidy : ∀ i c, s.sessions i = some c → Tidy disk.files.denotes i c.session
  unstarted : s.sessions id = none →
    events = [] ∧ Disk.AgreeOn (Own disk.files.denotes id) s.disk disk
  started : ∀ c, s.sessions id = some c → ∃ recvBuffer t,
    ReflTransGen (Recorded Smtp.Step fun _ e => some e) (State.start id recvBuffer disk, [])
      (t, events) ∧ Beside disk.files.denotes id c s.disk t

section Apart

variable {disk : Disk} {id : UInt32} {s t : SMTPServer} {events : List Smtp.Event}

theorem entry_cases {sessions : UInt32 → Option Connection} {i j : UInt32} {x c : Connection}
    (h : Function.update sessions i (some x) j = some c) :
    (j = i ∧ x = c) ∨ (j ≠ i ∧ sessions j = some c) := by
  by_cases hj : j = i
  · subst hj
    rw [Function.update_self] at h
    exact .inl ⟨rfl, Option.some.inj h⟩
  · rw [Function.update_of_ne hj] at h
    exact .inr ⟨hj, h⟩

theorem no_entry {sessions : UInt32 → Option Connection} {i j : UInt32} {x : Connection}
    (h : Function.update sessions i (some x) j = none) : j ≠ i ∧ sessions j = none := by
  by_cases hj : j = i
  · subst hj
    rw [Function.update_self] at h
    cases h
  · rw [Function.update_of_ne hj] at h
    exact ⟨hj, h⟩

theorem Apart.accepted (h : Apart disk id s events) {recvBuffer : Buffer}
    (hnew : s.sessions (s.nextSessionId + 1) = none) :
    Apart disk id { s with
      nextSessionId := s.nextSessionId + 1
      sessions := Function.update s.sessions (s.nextSessionId + 1)
        (some (State.start (s.nextSessionId + 1) recvBuffer s.disk).connection) } events := by
  have htidy := tidy_start disk.files.denotes (s.nextSessionId + 1) recvBuffer
  refine ⟨h.layout, fun i c hc => ?_, fun hnone => ?_, fun c hc => ?_⟩
  · rcases entry_cases hc with ⟨rfl, rfl⟩ | ⟨-, hold⟩
    · exact htidy
    · exact h.tidy i c hold
  · exact h.unstarted (no_entry hnone).2
  · rcases entry_cases hc with ⟨rfl, rfl⟩ | ⟨-, hold⟩
    · obtain ⟨rfl, hdisk⟩ := h.unstarted hnew
      exact ⟨recvBuffer, _, .refl, ⟨[], rfl⟩, rfl, rfl, hdisk, htidy⟩
    · exact h.started c hold

theorem Apart.completed (hlinks : Unlinked disk) (h : Apart disk id s events) {i : UInt32}
    {c : Connection} {e : Smtp.Event} {u : State} (hc : s.sessions i = some c)
    (hst : Smtp.Step (c.on s.disk) e u) :
    Apart disk id { s with
      sessions := Function.update s.sessions i (some u.connection)
      disk := u.disk } (events ++ (heard id s (.completed i e)).toList) := by
  have htidy := h.tidy i c hc
  have hdenotes : s.disk.files.denotes = disk.files.denotes :=
    congrArg Naming.denotes h.layout.1
  have hafter := hst.tidy (hdenotes ▸ htidy)
  have hframe : Disk.AgreeOn (fun p => ¬ Own disk.files.denotes i p) u.disk s.disk := by
    rw [← hdenotes]
    exact hst.frame (hdenotes ▸ htidy)
  refine ⟨hframe.1.trans h.layout, fun j c' hc' => ?_, fun hnone => ?_, fun c' hc' => ?_⟩
  · rcases entry_cases hc' with ⟨rfl, rfl⟩ | ⟨-, hold⟩
    · rw [← hdenotes]
      exact hafter
    · exact h.tidy j c' hold
  · obtain ⟨hi, hold⟩ := no_entry hnone
    obtain ⟨rfl, hdisk⟩ := h.unstarted hold
    have hforeign := hframe.mono fun p hp => hlinks.apart hi hp
    refine ⟨?_, hforeign.trans hdisk⟩
    rw [heard, if_neg (Ne.symm hi)]
    rfl
  · rcases entry_cases hc' with ⟨rfl, rfl⟩ | ⟨hi, hold⟩
    · obtain ⟨recvBuffer, t, hrun, hbeside⟩ := h.started c hc
      obtain ⟨v, hv, hafter⟩ := hbeside.own hdenotes hst
      rw [heard, if_pos rfl]
      exact ⟨recvBuffer, v, hrun.tail (.step hv), hafter⟩
    · obtain ⟨recvBuffer, t, hrun, hbeside⟩ := h.started c' hold
      have hforeign := hframe.mono fun p hp => hlinks.apart hi hp
      rw [heard, if_neg (Ne.symm hi), Option.toList_none, List.append_nil]
      exact ⟨recvBuffer, t, hrun, hbeside.others hforeign⟩

end Apart

def told (s : SMTPServer) (id : UInt32) (t : State) : SMTPServer :=
  { s with sessions := Function.update s.sessions id (some t.connection), disk := t.disk }

def fresh (id : UInt32) : State := .start id (.full 0) mailDisk
def helo : Bytes := chars "HELO\r\n"

end SMTPServer

end Smtp
end NetworkProtocols
