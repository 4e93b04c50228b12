import NetworkProtocols.Lib.History
import NetworkProtocols.Smtp.MessageMode
import NetworkProtocols.Smtp.Recipients

/-!
# HELO as one step

HELO clears the recipients and the return address before it opens the message file, and a refused
`open` clears the path and sets the error bit of a stream that may be open. An open stream refuses
every `open`.
-/

namespace NetworkProtocols
namespace Smtp

open Bytes SMTPSession Transition History

def openMessage (s : SMTPSession) : Option (Path × Bool) :=
  s.messageOut.file.map fun p => (p, s.messageOut.fail)

namespace Exchange

def diskAfter (e : Exchange) : Disk := (e.session.onReceive e.refusals e.disk).2.1

def Creatable (e : Exchange) : Prop :=
  e.disk.openable (newMessagePath e.session.id) = true ∧
    e.refusals.opening (newMessagePath e.session.id) = false

instance (e : Exchange) : Decidable e.Creatable := inferInstanceAs (Decidable (_ ∧ _))

/-- A refused HELO leaves the transaction as it was, and one whose file can be created is accepted,
with the empty file open. -/
structure AtomicHelo (e : Exchange) : Prop where
  refused : e.Answered 451 →
    e.after.returnAddress = e.session.returnAddress ∧ e.after.rcptCount = e.session.rcptCount ∧
    e.after.lastCommand = e.session.lastCommand ∧ e.after.messagePath = e.session.messagePath ∧
    openMessage e.after = openMessage e.session
  accepted : e.Creatable → e.Answered 250 ∧
    e.after.messageOut =
      { file := some (e.diskAfter.files.denotes (newMessagePath e.session.id)) } ∧
    e.diskAfter.files.lookup (newMessagePath e.session.id) = some []

def Clears (e : Exchange) : Prop := e.Is .helo 250 ∨ e.Is .helo 451 ∨ e.Is .rset 250

/-- A sender or a recipient is accepted. -/
def Fills (e : Exchange) : Prop := e.Is .mailFrom 250 ∨ e.Is .rcptTo 250

instance (e : Exchange) : Decidable e.Clears := inferInstanceAs (Decidable (_ ∨ _ ∨ _))
instance (e : Exchange) : Decidable e.Fills := inferInstanceAs (Decidable (_ ∨ _))

end Exchange

def FileClosed (record : List Exchange) : Prop := ¬ Since (·.Is .rset 250) (·.Is .helo 250) record

/-- The latest HELO, if any, was refused, and no sender and no recipient has been accepted since it
or since the last RSET. -/
def NothingToLose (record : List Exchange) : Prop :=
  ¬ Since (·.Is .helo 451) (·.Is .helo 250) record ∧ ¬ Since Exchange.Clears Exchange.Fills record

instance (record : List Exchange) : Decidable (FileClosed record) :=
  inferInstanceAs (Decidable (¬ _))
instance (record : List Exchange) : Decidable (NothingToLose record) :=
  inferInstanceAs (Decidable (_ ∧ _))

/-- What a HELO comes behind: a closed file where it can create one, and no transaction where it
cannot. -/
def Exchange.WellTimed (before : List Exchange) (e : Exchange) : Prop :=
  if e.Creatable then FileClosed before else NothingToLose before

instance (before : List Exchange) (e : Exchange) : Decidable (e.WellTimed before) :=
  inferInstanceAs (Decidable (if e.Creatable then FileClosed before else NothingToLose before))

namespace Exchange

variable {e : Exchange}

/-- The state that a HELO leaves, by its stream and the disk. -/
theorem helo_cases (h : e.handler = some .helo) :
    (e.Creatable ∧ e.session.messageOut.file = none ∧ e.Answered 250 ∧
      e.after = { e.session with
        returnAddress := []
        rcptCount := 0
        lastCommand := .helo
        messageOut := { file := some (e.disk.files.denotes (newMessagePath e.session.id)) }
        messagePath := newMessagePath e.session.id } ∧
      e.diskAfter = (e.disk.openFile e.refusals e.session.messageOut
        (newMessagePath e.session.id)).2) ∨
    (¬ (e.Creatable ∧ e.session.messageOut.file = none) ∧ e.Answered 451 ∧
      e.after = { e.session with
        returnAddress := []
        rcptCount := 0
        messageOut := { e.session.messageOut with fail := true }
        messagePath := [] }) := by
  obtain ⟨hmode, hdispatch⟩ := handler_eq_some.mp h
  have hrun : e.session.onReceive e.refusals e.disk = e.session.processHelo e.refusals e.disk := by
    rw [onReceive_command hmode, processCommand, hdispatch]
  by_cases hgranted : e.Creatable ∧ e.session.messageOut.file = none
  · obtain ⟨hcreatable, hfile⟩ := hgranted
    rw [processHelo_opened hfile hcreatable.1 hcreatable.2] at hrun
    exact .inl ⟨hcreatable, hfile, (returned hrun).1, (returned hrun).2, by rw [diskAfter, hrun]⟩
  · have hrefused : e.session.messageOut.file.isSome = true ∨
        e.disk.openable (newMessagePath e.session.id) = false ∨
        e.refusals.opening (newMessagePath e.session.id) = true := by
      rw [not_and_or, Creatable, not_and_or, Bool.not_eq_true, Bool.not_eq_false] at hgranted
      rcases hgranted with hdenied | hfile
      · exact .inr hdenied
      · exact .inl (Option.isSome_iff_ne_none.mpr hfile)
    rw [processHelo_refused hrefused] at hrun
    exact .inr ⟨hgranted, (returned hrun).1, (returned hrun).2⟩

theorem not_answered {code code' : UInt16} (h : e.Answered code) (hne : code ≠ code') :
    ¬ e.Answered code' := fun h' => hne (h.unique h')

/-- When one HELO is atomic, by the state it finds. -/
theorem atomicHelo_iff (h : e.handler = some .helo) :
    e.AtomicHelo ↔ if e.Creatable then e.session.messageOut.file = none else
      (e.session.returnAddress = [] ∧ e.session.rcptCount = 0) ∧ e.session.messagePath = [] ∧
      (e.session.messageOut.file = none ∨ e.session.messageOut.fail = true) := by
  by_cases hc : e.Creatable
  · rw [if_pos hc]
    rcases helo_cases h with ⟨-, hfile, h250, hafter, hdisk⟩ | ⟨hno, h451, -⟩
    · have hlayout : e.diskAfter.files.toNaming = e.disk.files.toNaming :=
        hdisk ▸ (Disk.openFile_layout _).1
      have hfiles : e.diskAfter.files = _ :=
        hdisk ▸ (Disk.openFile_granted hfile hc.1 hc.2).2
      refine iff_of_true ⟨fun h451 => absurd h451 (not_answered h250 (by decide)),
        fun _ => ⟨h250, by rw [hafter, hlayout], ?_⟩⟩ hfile
      rw [FileSystem.lookup, hlayout, hfiles, FileSystem.create_content_self]
    · exact iff_of_false (fun hatomic => not_answered h451 (by decide) (hatomic.accepted hc).1)
        fun hfile => hno ⟨hc, hfile⟩
  · rw [if_neg hc]
    obtain ⟨-, h451, hafter⟩ := (helo_cases h).resolve_left fun hopened => hc hopened.1
    have hopen : openMessage e.after = openMessage e.session ↔
        e.session.messageOut.file = none ∨ e.session.messageOut.fail = true := by
      rw [hafter, openMessage, openMessage]
      cases e.session.messageOut.file with
      | none => simp
      | some p => cases e.session.messageOut.fail <;> simp
    constructor
    · intro hatomic
      obtain ⟨haddress, hcount, -, hpath, hfile⟩ := hatomic.refused h451
      rw [hafter] at haddress hcount hpath
      exact ⟨⟨haddress.symm, hcount.symm⟩, hpath.symm, hopen.mp hfile⟩
    · rintro ⟨⟨haddress, hcount⟩, hpath, hfile⟩
      refine ⟨fun _ => ⟨?_, ?_, ?_, ?_, hopen.mpr hfile⟩, fun hcreatable => absurd hcreatable hc⟩
      · rw [hafter, haddress]
      · rw [hafter, hcount]
      · rw [hafter]
      · rw [hafter, hpath]

/-- What a command other than HELO does to the message file. -/
theorem messageOut_cases (hmode : e.session.receiveMessage = false) (h : e.handler ≠ some .helo) :
    e.after.messagePath = e.session.messagePath ∧ e.after.messageOut =
      if e.Is .rset 250 then e.session.messageOut.close else e.session.messageOut := by
  obtain ⟨hstarted, hafter⟩ := returned (onReceive_command hmode)
  have hhandler : e.handler = some (dispatch e.session.recvBuffer.bytes) :=
    handler_eq_some.mpr ⟨hmode, rfl⟩
  have hsame : e.handler ≠ some .rset → e.after.messagePath = e.session.messagePath →
      e.after.messageOut = e.session.messageOut → e.after.messagePath = e.session.messagePath ∧
        e.after.messageOut =
          if e.Is .rset 250 then e.session.messageOut.close else e.session.messageOut := by
    intro hne hpath hout
    exact ⟨hpath, hout.trans (if_neg fun his => hne his.1).symm⟩
  unfold processCommand at hstarted hafter
  generalize dispatch e.session.recvBuffer.bytes = handler at hhandler hstarted hafter
  cases handler with
  | helo => exact absurd hhandler h
  | rset =>
    have his : e.Is .rset 250 := ⟨hhandler, hstarted⟩
    rw [hafter, if_pos his]
    exact ⟨rfl, rfl⟩
  | data =>
    change e.after = (e.session.processData e.disk).1 at hafter
    unfold processData at hafter
    split at hafter
    · exact hsame (by simp [hhandler]) (by rw [hafter]) (by rw [hafter])
    · exact hsame (by simp [hhandler]) (by rw [hafter]) (by rw [hafter])
  | mailFrom =>
    rcases processMailFrom_cases e.session e.disk with ⟨_, -, heq⟩ | ⟨-, -, heq⟩
    · exact hsame (by simp [hhandler]) (by rw [hafter, heq]) (by rw [hafter, heq])
    · exact hsame (by simp [hhandler]) (by rw [hafter, heq]) (by rw [hafter, heq])
  | rcptTo =>
    rcases processRcptTo_cases e.refusals e.session e.disk with
      ⟨_, -, heq⟩ | ⟨-, -, -, _, _, -, -, heq⟩
    · exact hsame (by simp [hhandler]) (by rw [hafter, heq]) (by rw [hafter, heq])
    · exact hsame (by simp [hhandler]) (by rw [hafter, heq]) (by rw [hafter, heq])
  | vrfy => exact hsame (by simp [hhandler]) (by rw [hafter]; rfl) (by rw [hafter]; rfl)
  | noop => exact hsame (by simp [hhandler]) (by rw [hafter]; rfl) (by rw [hafter]; rfl)
  | quit => exact hsame (by simp [hhandler]) (by rw [hafter]; rfl) (by rw [hafter]; rfl)
  | reply _ => exact hsame (by simp [hhandler]) (by rw [hafter]) (by rw [hafter])

theorem command_before (h : e.after.receiveMessage = false) :
    e.session.receiveMessage = false := by
  cases hmode : e.session.receiveMessage with
  | false => rfl
  | true =>
    have hkept : e.after.envelope = e.session.envelope := by
      rw [after, onReceive, hmode, if_pos rfl]
      exact (processMessage_envelope _ _ _).2
    have hsame : e.after.receiveMessage = e.session.receiveMessage :=
      congrArg Envelope.receiveMessage hkept
    rw [h, hmode] at hsame
    cases hsame

end Exchange

/-- What the message file and the path of a session in command mode say about the reads. -/
structure Told (s : SMTPSession) (record : List Exchange) : Prop where
  file : s.messageOut.file.isSome = true ↔ Since (·.Is .rset 250) (·.Is .helo 250) record
  path : s.messagePath = [] ↔ ¬ Since (·.Is .helo 451) (·.Is .helo 250) record
  useless : s.messagePath = [] → s.messageOut.file = none ∨ s.messageOut.fail = true

section Step

variable {e : Exchange} {record : List Exchange}

/-- An accepted HELO opens its file; a refused one leaves no path and a stream of no use. -/
theorem Told.helo (h : Told e.session record) (hhelo : e.handler = some .helo) :
    Told e.after (record ++ [e]) := by
  have hrset : ¬ e.Is .rset 250 := fun his => by simpa [hhelo] using his.1
  rcases Exchange.helo_cases hhelo with ⟨-, -, h250, hafter, -⟩ | ⟨-, h451, hafter⟩
  · have his : e.Is .helo 250 := ⟨hhelo, h250⟩
    have hpath : Since (·.Is .helo 451) (·.Is .helo 250) (record ++ [e]) :=
      since_concat_self (fun his' => Exchange.not_answered h250 (by decide) his'.2) his
    refine ⟨?_, ?_, ?_⟩
    · rw [hafter]
      exact iff_of_true rfl (since_concat_self hrset his)
    · rw [hafter]
      exact iff_of_false (newMessagePath_ne_nil _) (not_not_intro hpath)
    · rw [hafter]
      exact fun hnil => absurd hnil (newMessagePath_ne_nil _)
  · have his : e.Is .helo 451 := ⟨hhelo, h451⟩
    refine ⟨?_, ?_, ?_⟩
    · have hsame : Since (·.Is .rset 250) (·.Is .helo 250) (record ++ [e]) ↔
          Since (·.Is .rset 250) (·.Is .helo 250) record :=
        since_concat_of_not hrset fun his' => Exchange.not_answered h451 (by decide) his'.2
      rw [hsame, hafter]
      exact h.file
    · rw [hafter]
      exact iff_of_true rfl (not_since_concat his)
    · rw [hafter]
      exact fun _ => .inr rfl

theorem Told.other (h : Told e.session record) (hmode : e.session.receiveMessage = false)
    (hhelo : e.handler ≠ some .helo) : Told e.after (record ++ [e]) := by
  have hnot {code : UInt16} : ¬ e.Is .helo code := fun his => hhelo his.1
  obtain ⟨hpath, hout⟩ := Exchange.messageOut_cases hmode hhelo
  have htold : e.after.messagePath = [] ↔
      ¬ Since (·.Is .helo 451) (·.Is .helo 250) (record ++ [e]) := by
    have hsame : Since (·.Is .helo 451) (·.Is .helo 250) (record ++ [e]) ↔
        Since (·.Is .helo 451) (·.Is .helo 250) record := since_concat_of_not hnot hnot
    rw [hpath, hsame]
    exact h.path
  by_cases hrset : e.Is .rset 250
  · -- a RSET closes the file, whatever the path says
    rw [if_pos hrset] at hout
    have hclosed : e.after.messageOut.file = none := by
      rw [hout, OfStream.close]
      split
      · rfl
      · rename_i hfile
        simpa using hfile
    refine ⟨?_, htold, fun _ => .inl hclosed⟩
    rw [hclosed]
    exact iff_of_false (by simp) (not_since_concat hrset)
  · rw [if_neg hrset] at hout
    have hsame : Since (·.Is .rset 250) (·.Is .helo 250) (record ++ [e]) ↔
        Since (·.Is .rset 250) (·.Is .helo 250) record := since_concat_of_not hrset hnot
    refine ⟨?_, htold, ?_⟩
    · rw [hout, hsame]
      exact h.file
    · rw [hpath, hout]
      exact h.useless

theorem Told.step (hmode : e.session.receiveMessage = false) (h : Told e.session record) :
    Told e.after (record ++ [e]) := by
  by_cases hhelo : e.handler = some .helo
  · exact h.helo hhelo
  · exact h.other hmode hhelo

end Step

def Cleared (v : Envelope) (record : List Exchange) : Prop :=
  (v.returnAddress = [] ∧ v.rcptCount = 0) ↔ ¬ Since Exchange.Clears Exchange.Fills record

theorem Cleared.step {e : Exchange} {record : List Exchange}
    (h : Cleared e.session.envelope record) : Cleared e.after.envelope (record ++ [e]) := by
  have hkeep : e.after.envelope.returnAddress = e.session.envelope.returnAddress →
      e.after.envelope.rcptCount = e.session.envelope.rcptCount → ¬ e.Clears → ¬ e.Fills →
      Cleared e.after.envelope (record ++ [e]) := by
    intro haddress hcount hclears hfills
    unfold Cleared
    rw [since_concat_of_not hclears hfills, haddress, hcount]
    exact h
  cases e.effect with
  | text hnone _ _ heq =>
    exact hkeep (by rw [heq]) (by rw [heq]) (by simp [Exchange.Clears, Exchange.Is, hnone])
      (by simp [Exchange.Fills, Exchange.Is, hnone])
  | helo his heq =>
    rw [heq]
    exact iff_of_true ⟨rfl, rfl⟩ (not_since_concat (.inl his))
  | heloRefused his heq =>
    rw [heq]
    exact iff_of_true ⟨rfl, rfl⟩ (not_since_concat (.inr (.inl his)))
  | rset his heq =>
    rw [heq]
    exact iff_of_true ⟨rfl, rfl⟩ (not_since_concat (.inr (.inr his)))
  | data his heq =>
    exact hkeep (by rw [heq]) (by rw [heq]) (by simp [Exchange.Clears, Exchange.Is, his.1])
      (by simp [Exchange.Fills, Exchange.Is, his.1])
  | dataAgain hhandler _ _ _ heq =>
    exact hkeep (by rw [heq]) (by rw [heq]) (by simp [Exchange.Clears, Exchange.Is, hhandler])
      (by simp [Exchange.Fills, Exchange.Is, hhandler])
  | mailFrom his haddress heq =>
    rw [heq]
    refine iff_of_false (fun hnil => haddress hnil.1)
      (not_not_intro (since_concat_self ?_ (.inl his)))
    simp [Exchange.Clears, Exchange.Is, his.1]
  | rcptTo his htakes heq =>
    rw [heq]
    refine iff_of_false (fun hzero => ?_) (not_not_intro (since_concat_self ?_ (.inr his)))
    · -- there is room, so the count does not wrap
      have hroom : e.session.rcptCount.toNat < 100 := htakes.room
      have hcount : (e.session.rcptCount.toNat + 1) % 256 = 0 := congrArg UInt8.toNat hzero.2
      omega
    · simp [Exchange.Clears, Exchange.Is, his.1]
  | vrfy hvrfy _ heq =>
    exact hkeep (by rw [heq]) (by rw [heq]) (by simp [Exchange.Clears, Exchange.Is, hvrfy])
      (by simp [Exchange.Fills, Exchange.Is, hvrfy])
  | reply his hplain hrefused heq =>
    have hnot {handler : Handler} {code : UInt16} (h' : e.Is handler code) := his.handler_eq h'.1
    refine hkeep (by rw [heq]) (by rw [heq]) ?_ ?_
    · rintro (h' | h' | h') <;>
      · rw [hnot h'] at hplain
        simp at hplain
    · rintro (h' | h')
      · exact hrefused (.inl (hnot h')) (his.code_eq h')
      · exact hrefused (.inr (hnot h')) (his.code_eq h')

/-- A HELO is atomic exactly behind the commands that it is well timed for: one that can create
its file behind none that did, and one that cannot behind no transaction. -/
theorem helo_atomic_iff {id : UInt32} {buffer : Buffer} {d : Disk} {s : State}
    {record : List Exchange} (hrun : Run id buffer d s record) :
    Along (fun before e => e.handler = some .helo →
      (e.AtomicHelo ↔ e.WellTimed before)) record := by
  have htold : Along (fun before e => e.session.receiveMessage = false →
      Told e.session before) record := by
    refine hrun.sessionAlong (fun s record => s.receiveMessage = false → Told s record) ?_ ?_ ?_
    · exact fun _ => ⟨iff_of_false Bool.false_ne_true not_since_nil, iff_of_true rfl not_since_nil,
        fun _ => .inl rfl⟩
    · exact fun s record chunk h hmode => ⟨(h hmode).file, (h hmode).path, (h hmode).useless⟩
    · intro record e h hmode
      have hcommand := e.command_before hmode
      exact (h hcommand).step hcommand
  have hcleared : Along (fun before e => Cleared e.session.envelope before) record :=
    hrun.along (iff_of_true ⟨rfl, rfl⟩ not_since_nil) fun _ _ => Cleared.step
  intro before e after hrecord hhelo
  have hmode := (Exchange.handler_eq_some.mp hhelo).1
  have htold := htold before e after hrecord hmode
  have hcleared : (e.session.returnAddress = [] ∧ e.session.rcptCount = 0) ↔ _ :=
    hcleared before e after hrecord
  rw [Exchange.atomicHelo_iff hhelo, Exchange.WellTimed]
  by_cases hc : e.Creatable
  · rw [if_pos hc, if_pos hc, FileClosed, ← htold.file]
    simp
  · rw [if_neg hc, if_neg hc, NothingToLose, ← htold.path, ← hcleared]
    constructor
    · exact fun ⟨htransaction, hpath, _⟩ => ⟨hpath, htransaction⟩
    · exact fun ⟨hpath, htransaction⟩ => ⟨htransaction, hpath, htold.useless hpath⟩

/-- The first HELO of a session is atomic. -/
theorem helo_atomic_first :
    (nextRead (conversation sessionStart []) (chars "HELO\r\n")).AtomicHelo := by
  let helo := nextRead (conversation sessionStart []) (chars "HELO\r\n")
  have hfacts : Heard (sessionStart.settle, []) ([] ++ [chars "HELO\r\n"]) ∧
      helo.handler = some .helo ∧ helo.WellTimed (conversation sessionStart []).2 := by
    decide +kernel
  obtain ⟨hheard, hhelo, htimed⟩ := hfacts
  exact (helo_atomic_iff (conversation_next hheard) _ _ _ rfl hhelo).mpr htimed

/-- A second HELO is refused, though its file can be created, and the sender is lost. -/
theorem helo_not_atomic : ∃ (s : State) (before : List Exchange) (helo : Exchange),
    Run 1 (.full 0) mailDisk s (before ++ [helo]) ∧ helo.Is .helo 451 ∧ helo.Creatable ∧
    helo.session.returnAddress = chars "c@d" ∧ helo.after.returnAddress = [] ∧
    ¬ helo.AtomicHelo := by
  let helo := nextRead (conversation sessionStart (envelopeCommands.take 2)) (chars "HELO\r\n")
  have hfacts : Heard (sessionStart.settle, []) (envelopeCommands.take 2 ++ [chars "HELO\r\n"]) ∧
      helo.Is .helo 451 ∧ helo.Creatable ∧ helo.session.returnAddress = chars "c@d" ∧
      helo.after.returnAddress = [] := by
    decide +kernel
  obtain ⟨hheard, hhelo, hcreatable, hbefore, hafter⟩ := hfacts
  refine ⟨_, _, _, conversation_next hheard, hhelo, hcreatable, hbefore, hafter, fun hatomic => ?_⟩
  exact Exchange.not_answered hhelo.2 (by decide) (hatomic.accepted hcreatable).1

end Smtp
end NetworkProtocols
