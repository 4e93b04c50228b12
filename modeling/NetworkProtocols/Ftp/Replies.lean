import NetworkProtocols.Ftp.CommandLines
import NetworkProtocols.Ftp.PassiveAddress

/-!
# The replies on the control connection

A reply quotes the current directory, a username, or the argument of a USER. A line that is
executed has no line end in it, and none is formed where paths are joined: what a client reads up
to the next CR LF is one reply.
-/

namespace NetworkProtocols
namespace Ftp

open Bytes Lines

/-- The separator that is put between two paths is no part of a line end. -/
theorem cut_append_path {left right : Bytes} (hleft : cut left = none) (hright : cut right = none) :
    cut (PathName.append left right) = none := by
  unfold PathName.append
  split
  · rename_i hjoin
    rcases hjoin with rfl | hlast | rfl | hhead
    · exact hright
    · refine cut_append_eq_none hleft hright (.inl ?_)
      rw [hlast]
      decide
    · rwa [List.append_nil]
    · refine cut_append_eq_none hleft hright (.inr ?_)
      rw [hhead]
      decide
  · have hslash : cut ([PathName.slash] ++ right) = none :=
      cut_append_eq_none (by decide) hright (.inl (by decide))
    exact cut_append_eq_none hleft hslash
      (.inr fun hhead => absurd (Option.some.inj hhead) (by decide))

theorem cut_of_mem_elements {path part : Bytes} (h : cut path = none)
    (hpart : part ∈ PathName.elements path) : cut part = none := by
  have hbehind : ∀ rest, rest <:+: path → ∀ part ∈ PathName.elementsBehind rest,
      cut part = none := by
    intro rest hrest part hpart
    simp only [PathName.elementsBehind, List.mem_append, List.mem_ite_nil_right,
      List.mem_singleton] at hpart
    rcases hpart with ⟨-, rfl⟩ | hpart | ⟨-, rfl⟩
    · decide
    · exact cut_of_infix ((infix_of_mem_splitOn (List.mem_of_mem_filter hpart)).trans hrest) h
    · decide
  by_cases hname : PathName.rootName path = []
  · rw [PathName.elements_of_rootName hname] at hpart
    exact hbehind path List.infix_rfl part hpart
  · obtain ⟨rest, hpath, -, -⟩ := (PathName.rootName_cases path).resolve_left hname
    rw [PathName.elements_append hpath hname] at hpart
    rcases List.mem_cons.mp hpart with rfl | hpart
    · have hprefix : PathName.rootName path <+: path := ⟨rest, hpath.symm⟩
      exact cut_of_infix hprefix.isInfix h
    · have hsuffix : rest <:+ path := ⟨_, hpath.symm⟩
      exact hbehind rest hsuffix.isInfix part hpart

theorem cut_parentPath {path : Bytes} (h : cut path = none) :
    cut (PathName.parentPath path) = none := by
  have hjoin : ∀ (parts : List Bytes) (front : Bytes), (∀ part ∈ parts, cut part = none) →
      cut front = none → cut (parts.foldl PathName.append front) = none := by
    intro parts
    induction parts with
    | nil => exact fun _ _ hfront => hfront
    | cons part parts ih =>
      intro front hparts hfront
      rw [List.forall_mem_cons] at hparts
      exact ih _ hparts.2 (cut_append_path hfront hparts.1)
  refine hjoin _ [] (fun part hpart => ?_) cut_nil
  exact cut_of_mem_elements h (List.dropLast_subset _ hpart)

theorem cut_cwdTarget {s : FTPSession} {args : Bytes} (hdir : cut s.currDir = none)
    (hargs : cut args = none) : cut (s.cwdTarget args) = none := by
  unfold FTPSession.cwdTarget
  split
  · exact cut_parentPath hdir
  split
  · exact cut_append_path hdir hargs
  · exact hdir

def Execution.Whole (x : Execution) : Prop := ∀ reply ∈ x.replies, cut reply = none

theorem Execution.Whole.message {x : Execution} (h : x.Whole) {msg : Bytes}
    (hmsg : cut msg = none) : (x.sendMessageToClient msg).Whole := by
  intro reply hreply
  rcases List.mem_append.mp hreply with hreply | hreply
  · exact h reply hreply
  · exact List.mem_singleton.mp hreply ▸ hmsg

theorem Execution.whole_start (s : FTPSession) (d : Disk) : (Execution.start s d).Whole :=
  fun _ hreply => nomatch hreply

section Handlers

variable (o : Outcomes) (users : UsersDB) (s : FTPSession) (args : Bytes)

theorem handleCwd_whole (hdir : cut s.currDir = none) (hargs : cut args = none) :
    ((Execution.start s o.disk).handleCwd o args).Whole := by
  unfold Execution.handleCwd
  dsimp only
  split
  · exact Execution.whole_start s o.disk
  split
  · exact .message (by exact Execution.whole_start s o.disk)
      (cut_append_eq_none (by decide) (cut_cwdTarget hdir hargs) (.inl (by decide)))
  · exact .message (by exact Execution.whole_start s o.disk) (by decide)

theorem handleDele_whole : ((Execution.start s o.disk).handleDele o args).Whole := by
  unfold Execution.handleDele
  dsimp only
  split
  · split
    · exact Execution.whole_start s o.disk
    split
    · split
      · exact .message (by exact Execution.whole_start s o.disk) (by decide)
      · exact .message (by exact Execution.whole_start s o.disk) (by decide)
    · exact .message (by exact Execution.whole_start s o.disk) (by decide)
  · exact .message (Execution.whole_start s o.disk) (by decide)

theorem handleMkd_whole : ((Execution.start s o.disk).handleMkd o args).Whole := by
  unfold Execution.handleMkd
  dsimp only
  split
  · split
    · exact .message (by exact Execution.whole_start s o.disk) (by decide)
    · exact .message (by exact Execution.whole_start s o.disk) (by decide)
  · exact .message (Execution.whole_start s o.disk) (by decide)

theorem handleRmd_whole : ((Execution.start s o.disk).handleRmd o args).Whole := by
  unfold Execution.handleRmd
  dsimp only
  split
  · split
    · split
      · exact .message (by exact Execution.whole_start s o.disk) (by decide)
      · exact .message (by exact Execution.whole_start s o.disk) (by decide)
    · exact .message (by exact Execution.whole_start s o.disk) (by decide)
  · exact .message (Execution.whole_start s o.disk) (by decide)

theorem handlePass_whole (huser : cut s.username = none) :
    ((Execution.start s o.disk).handlePass users args).Whole := by
  rcases handlePass_cases users args (.start s o.disk) with
    ⟨-, heq⟩ | ⟨-, -, heq⟩ | ⟨password, -, -, heq⟩
  · rw [heq]
    exact Execution.whole_start s o.disk
  · rw [heq]
    exact Execution.whole_start s o.disk
  · rw [heq]
    refine .message (Execution.whole_start s o.disk) ?_
    split
    · exact cut_append_eq_none (cut_append_eq_none (by decide) huser (.inl (by decide)))
        (by decide) (.inr (by decide))
    · decide

theorem handleNlst_whole : ((Execution.start s o.disk).handleNlst o args).Whole := by
  have hstart := Execution.whole_start s o.disk
  unfold Execution.handleNlst
  split
  · exact .message hstart (by decide)
  by_cases hdir : o.refuses .status (s.joined args) = false ∧
      o.disk.hasDirectory (s.joined args) = true
  · rw [readDirectory_found o s args hdir.1 hdir.2]
    cases o.listing (s.joined args) with
    | none => exact hstart
    | some lines =>
      cases lines with
      | nil => exact Execution.Whole.message (by exact hstart) (by decide)
      | cons line lines =>
        dsimp only
        obtain ⟨sent, hsent⟩ := sendAscii_eq o (line :: lines) (Execution.sendMessageToClient _ _)
        rw [hsent]
        refine Execution.Whole.message ?_ (by decide)
        exact Execution.Whole.message (by exact hstart) (by decide)
  · rw [readDirectory_missing o s args hdir]
    exact Execution.Whole.message (by exact hstart) (by decide)

theorem sendFile_whole {x : Execution} (h : x.Whole) (path : Bytes) :
    (x.sendFile o path).2.Whole := by
  unfold Execution.sendFile
  dsimp only
  cases x.session.transferType with
  | binary =>
    obtain ⟨sent, hsent⟩ := sendBlocks_eq o o.available ((x.readable o path).getD [])
      (Execution.called (x.sendMessageToClient _) .read path (x.readable o path).isSome)
    dsimp only
    rw [hsent]
    exact h.message (by decide)
  | ascii =>
    obtain ⟨sent, hsent⟩ := sendLines_eq o (split ((x.readable o path).getD []) LF)
      (Execution.called (x.sendMessageToClient _) .read path (x.readable o path).isSome)
    dsimp only
    rw [hsent]
    exact h.message (by decide)

theorem handleRetr_whole : ((Execution.start s o.disk).handleRetr o args).Whole := by
  have hstart := Execution.whole_start s o.disk
  unfold Execution.handleRetr
  split
  · exact .message hstart (by decide)
  dsimp only
  split
  · exact hstart
  split
  · exact .message (by exact hstart) (by decide)
  have hsent := sendFile_whole o
    (x := (Execution.start s o.disk).called .status (s.joined args)
      (!o.refuses .status (s.joined args))) hstart (s.joined args)
  split
  · exact hsent.message (by decide)
  · exact hsent

theorem handleStor_whole : ((Execution.start s o.disk).handleStor o args).Whole := by
  have hready : cut s.transferType.ready = none := by cases s.transferType <;> decide
  unfold Execution.handleStor
  split
  · exact .message (Execution.whole_start s o.disk) (by decide)
  dsimp only
  split
  · exact .message (Execution.Whole.message (Execution.whole_start s o.disk) hready) (by decide)
  · exact .message (Execution.Whole.message (Execution.whole_start s o.disk) hready) (by decide)

theorem handleType_whole : ((Execution.start s o.disk).handleType args).Whole := by
  unfold Execution.handleType
  split
  · split
    · exact .message (by exact Execution.whole_start s o.disk) (by decide)
    split
    · exact .message (by exact Execution.whole_start s o.disk) (by decide)
    · exact .message (Execution.whole_start s o.disk) (by decide)
  · exact .message (Execution.whole_start s o.disk) (by decide)

theorem handleUser_whole (hargs : cut args = none) :
    ((Execution.start s o.disk).handleUser users args).Whole := by
  unfold Execution.handleUser
  split
  · exact Execution.Whole.message (Execution.whole_start s o.disk)
      (cut_append_eq_none (by decide) hargs (.inl (by decide)))
  · exact Execution.whole_start s o.disk

theorem handlePort_whole : ((Execution.start s o.disk).handlePort o args).Whole := by
  unfold Execution.handlePort
  cases portArguments args with
  | error fault => exact Execution.whole_start s o.disk
  | ok target =>
    dsimp only
    unfold Execution.openDataConnectionActive
    split
    · exact Execution.whole_start s o.disk
    dsimp only
    split
    · exact .message (by exact Execution.whole_start s o.disk) (by decide)
    · exact Execution.whole_start s o.disk

theorem cut_passiveReply (port : UInt16) : cut (passiveReply port) = none := by
  have hfields : cut (passiveFields port).text = none := by
    refine cut_of_notMem fun hmem => ?_
    rcases (passiveFields_valid port).mem_text hmem with hdigit | hcomma
    · exact absurd hdigit (by decide)
    · exact absurd hcomma (by decide)
  exact cut_append_eq_none (cut_append_eq_none (by decide) hfields (.inl (by decide)))
    (by decide) (.inr (by decide))

theorem handlePasv_whole : ((Execution.start s o.disk).handlePasv o).Whole := by
  intro reply hreply
  rw [handlePasv_replies, List.mem_singleton] at hreply
  rw [hreply]
  exact cut_passiveReply s.dataPort

theorem handleEpsv_whole : ((Execution.start s o.disk).handleEpsv o).Whole := by
  have hport : cut (decimal s.dataPort.toNat) = none :=
    cut_of_notMem fun hmem => absurd (isDigit_of_mem_decimal hmem) (by decide)
  have hreply : cut (chars "229 Entering Extended Passive Mode (|||" ++
      decimal s.dataPort.toNat ++ chars "|)") = none :=
    cut_append_eq_none (cut_append_eq_none (by decide) hport (.inl (by decide))) (by decide)
      (.inr (by decide))
  obtain ⟨dataSocket, acceptor, heq⟩ := openDataConnectionPassive_eq o s.dataPort
    ((Execution.start s o.disk).sendMessageToClient _)
  have hreplies := congrArg Execution.replies heq
  intro reply hmem
  have hlast : reply ∈ (Execution.sendMessageToClient (.start s o.disk) _).replies :=
    hreplies ▸ hmem
  exact (Execution.whole_start s o.disk).message hreply reply hlast

/-- A line without a line end in it is answered by replies without one, if the current directory
and the username have none. -/
theorem executeCommand_whole {line : Bytes} (hline : cut line = none)
    (hdir : cut s.currDir = none) (huser : cut s.username = none) :
    (executeCommand o users line (.start s o.disk)).Whole := by
  have hstart := Execution.whole_start s o.disk
  have hargs : cut (parseCommand line).2 = none :=
    cut_of_infix (List.drop_suffix _ line).isInfix hline
  unfold executeCommand
  generalize parseCommand line = parsed at hargs ⊢
  obtain ⟨command, args⟩ := parsed
  dsimp only
  cases command with
  | cwd => exact handleCwd_whole o s args hdir hargs
  | dele => exact handleDele_whole o s args
  | eprt => exact handlePort_whole o s _
  | epsv => exact handleEpsv_whole o s
  | feat =>
    exact ((hstart.message (by decide)).message (by decide)).message (by decide)
  | list => exact handleNlst_whole o s args
  | nlst => exact handleNlst_whole o s args
  | mkd => exact handleMkd_whole o s args
  | pass => exact handlePass_whole o users s args huser
  | pasv => exact handlePasv_whole o s
  | port => exact handlePort_whole o s _
  | pwd =>
    exact hstart.message (cut_append_eq_none (cut_append_eq_none (by decide) hdir
      (.inl (by decide))) (by decide) (.inr (by decide)))
  | quit => exact hstart.message (by decide)
  | retr => exact handleRetr_whole o s args
  | rmd => exact handleRmd_whole o s args
  | syst => exact hstart.message (by decide)
  | stor => exact handleStor_whole o s args
  | type => exact handleType_whole o s args
  | user => exact handleUser_whole o users s args hargs
  | unknown => exact hstart.message (by decide)

end Handlers

section Runs

open Relation Transition

variable {users : UsersDB} {outcomes : ℕ → Outcomes} {dataPort : UInt16} {rootDir : Bytes}
  {w : Worker} {record : List Call}

def greeting : Bytes := chars "220 myhost.mydomain FTP-server (version 1.0) ready"

/-- What a session quotes has no line end in it, and neither has a reply; the replies are the
greeting and those of the commands on record. -/
structure Quotable (users : UsersDB) (w : Worker) (record : List Call) : Prop where
  currDir : cut w.session.currDir = none
  username : cut w.session.username = none
  whole : ∀ reply ∈ w.replies, cut reply = none
  answered : w.replies = greeting :: record.flatMap fun c => (c.execute users).replies

theorem Changes.quotable {o : Outcomes} {s t : FTPSession} {args : Bytes} {command : Command}
    (h : Changes o users s args command t) (hargs : cut args = none)
    (hdir : cut s.currDir = none) (huser : cut s.username = none) :
    cut t.currDir = none ∧ cut t.username = none := by
  cases h with
  | same => exact ⟨hdir, huser⟩
  | closed => exact ⟨hdir, huser⟩
  | opened => exact ⟨hdir, huser⟩
  | cwd => exact ⟨cut_cwdTarget hdir hargs, huser⟩
  | quit => exact ⟨hdir, huser⟩
  | type => exact ⟨hdir, huser⟩
  | user => exact ⟨hdir, hargs⟩

theorem Quotable.receive (h : Quotable users w record) (arrival : Arrival) :
    Quotable users (w.receive users outcomes arrival).1
      (record ++ (w.note users outcomes arrival).toList) := by
  have hidle : ∀ w' : Worker, w'.session = w.session → w'.replies = w.replies →
      Quotable users w' (record ++ (none : Option Call).toList) := by
    intro w' hsession hreplies
    rw [Option.toList_none, List.append_nil]
    exact ⟨hsession ▸ h.currDir, hsession ▸ h.username, hreplies ▸ h.whole,
      hreplies.trans h.answered⟩
  unfold Worker.note
  cases hopen : w.ctrlSocket with
  | false =>
    have hreceive : w.receive users outcomes arrival = (w, none) := by
      cases arrival <;> simp [Worker.receive, hopen]
    rw [hreceive]
    exact hidle w rfl rfl
  | true =>
    cases arrival with
    | failed value =>
      rw [Worker.receive, hopen]
      exact hidle _ rfl rfl
    | received bytes =>
      cases hcut : cut (w.sb ++ bytes) with
      | none =>
        rw [receive_incomplete hopen hcut]
        exact hidle _ rfl rfl
      | some parts =>
        obtain ⟨line, rest⟩ := parts
        have hline := cut_first hcut
        have hargs : cut (parseCommand line).2 = none :=
          cut_of_infix (List.drop_suffix _ line).isInfix hline
        have hwhole := executeCommand_whole (outcomes w.executed) users w.session hline h.currDir
          h.username
        obtain ⟨hdir, huser⟩ := (executeCommand_changes (outcomes w.executed) users w.session
          line).quotable hargs h.currDir h.username
        simp only [Worker.receive, hopen, hcut, Bool.not_true, Bool.false_eq_true, if_false]
        refine ⟨hdir, huser, fun reply hreply => ?_, ?_⟩
        · rcases List.mem_append.mp hreply with hreply | hreply
          · exact h.whole reply hreply
          · exact hwhole reply hreply
        · dsimp only
          rw [h.answered, Option.toList_some, List.flatMap_append, List.flatMap_singleton,
            List.cons_append]

/-- What a client reads from the control connection are the replies to its commands, one after
the other: whatever the lines were that it sent, none makes a reply that is read as two. -/
theorem replies_recovered (hroot : cut rootDir = none)
    (hrun : Run users outcomes dataPort rootDir w record) :
    (lines (fun _ => false) 0 (wire w.replies)).map Prod.snd =
      greeting :: record.flatMap fun c => (c.execute users).replies := by
  have hstart : Quotable users (Worker.start dataPort rootDir) [] := by
    refine ⟨hroot, cut_nil, fun reply hreply => ?_, rfl⟩
    rw [List.mem_singleton.mp hreply]
    decide
  have hstep : ∀ p q : Worker × List Call, Quotable users p.1 p.2 →
      Recorded (Worker.Step users outcomes) (Worker.note users outcomes) p q →
        Quotable users q.1 q.2 := by
    rintro ⟨w, record⟩ _ hquotable ⟨rfl⟩
    exact hquotable.receive _
  have hquotable := Transition.invariant hstep hstart hrun
  rw [lines_wire hquotable.whole, hquotable.answered]

/-- A session that is asked where it is. -/
theorem replies_recovered_pwd :
    (lines (fun _ => false) 0 (wire ((Worker.start 10020 (chars "/home")).work (fun _ => none)
      (fun _ => { disk := homeDisk }) [.received (chars "PWD\r\n")]).1.replies)).map Prod.snd =
        greeting :: [Call.mk 0 (chars "PWD") (.start 10020 (chars "/home"))
          { disk := homeDisk }].flatMap fun c => (c.execute fun _ => none).replies :=
  replies_recovered (by decide) (Worker.work_run [.received (chars "PWD\r\n")])

end Runs

end Ftp
end NetworkProtocols
