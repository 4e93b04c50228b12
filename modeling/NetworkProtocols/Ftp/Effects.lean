import NetworkProtocols.Ftp.Store

/-!
# What a command does

Of each command: the path that it passes to the file system, when an exception leaves it, and
when it has an effect there. What has no effect leaves the disk as it was and sends nothing on
the data connection.
-/

namespace NetworkProtocols
namespace Ftp

open Bytes

/-- The path that a command passes to the file system, if it comes to that. -/
def FTPSession.usedPath (s : FTPSession) (args : Bytes) : Command → Option Bytes
  | .cwd => some (s.cwdTarget args)
  | .dele => if matchesFile args then some (s.joined args) else none
  | .mkd | .rmd => if matchesDirectory args then some (s.joined args) else none
  | .list | .nlst | .retr | .stor => if s.dataSocket then some (s.joined args) else none
  | _ => none

/-- Too few fields, or a port or an address that cannot be read. -/
def BadPort (o : Outcomes) (args : Bytes) : Prop :=
  match portArguments args with
  | .error _ => True
  | .ok (host, _) => o.addressValid host = false

/-- An exception leaves the command. -/
def Throws (o : Outcomes) (users : UsersDB) (s : FTPSession) (args : Bytes) : Command → Prop
  | .cwd => o.refuses .status (s.cwdTarget args) = true
  | .dele => matchesFile args = true ∧ o.refuses .status (s.joined args) = true
  | .eprt => BadPort o (parseExtendedArguments args)
  | .pass => s.username ≠ [] ∧ users s.username = none
  | .port => BadPort o (stripParentheses args)
  | .retr => s.dataSocket = true ∧ o.refuses .status (s.joined args) = true
  | _ => False

/-- The command comes to list, read, write, create or remove what its path names. -/
def Reaches (o : Outcomes) (s : FTPSession) (args : Bytes) : Command → Prop
  | .list | .nlst => s.dataSocket = true ∧ o.refuses .status (s.joined args) = false ∧
      o.disk.hasDirectory (s.joined args) = true ∧ (o.listing (s.joined args)).isSome = true
  | .retr => s.dataSocket = true ∧ o.refuses .status (s.joined args) = false ∧
      o.disk.hasFile (s.joined args) = true ∧ o.refuses .read (s.joined args) = false
  | .stor => s.dataSocket = true ∧ CanStore o args (.start s o.disk)
  | .dele => matchesFile args = true ∧ o.refuses .status (s.joined args) = false ∧
      o.disk.hasFile (s.joined args) = true ∧ o.refuses .remove (s.joined args) = false
  | .mkd => matchesDirectory args = true ∧ o.disk.vacant (s.joined args) = true ∧
      o.refuses .create (s.joined args) = false
  | .rmd => matchesDirectory args = true ∧ o.refuses .status (s.joined args) = false ∧
      o.disk.hasDirectory (s.joined args) = true ∧ o.refuses .remove (s.joined args) = false
  | _ => False

instance Reaches.decide (o : Outcomes) (s : FTPSession) (args : Bytes) :
    (command : Command) → Decidable (Reaches o s args command)
  | .list | .nlst | .retr | .dele | .rmd => inferInstanceAs (Decidable (_ ∧ _ ∧ _ ∧ _))
  | .stor => inferInstanceAs (Decidable (_ ∧ _))
  | .mkd => inferInstanceAs (Decidable (_ ∧ _ ∧ _))
  | .cwd | .eprt | .epsv | .feat | .pass | .pasv | .port | .pwd | .quit | .syst | .type | .user
  | .unknown => .isFalse not_false

/-- A call that listed, read, wrote, created or removed something. -/
def FileCall.Effective (call : FileCall) : Prop := call.granted = true ∧ call.access ≠ .status

instance (call : FileCall) : Decidable call.Effective := inferInstanceAs (Decidable (_ ∧ _))

def Execution.HasEffect (x : Execution) : Prop := ∃ call ∈ x.calls, call.Effective

instance (x : Execution) : Decidable x.HasEffect := inferInstanceAs (Decidable (∃ _ ∈ _, _))

/-- The calls of a command and the exception that left it are as they are said to be. -/
structure Accounted (o : Outcomes) (path : Option Bytes) (throws reaches : Prop) (y : Execution) :
    Prop where
  paths : ∀ call ∈ y.calls, path = some call.path
  passed : path ≠ none → y.calls ≠ []
  fault : y.fault ≠ none ↔ throws
  effect : y.HasEffect ↔ reaches
  quiet : ¬ reaches → y.disk = o.disk ∧ y.sent = []

section Sending

variable (o : Outcomes)

theorem sendDataToClient_eq (data : Bytes) (x : Execution) :
    ∃ sent, (x.sendDataToClient o data).2 = { x with sent := sent } := by
  unfold Execution.sendDataToClient
  split
  · exact ⟨_, rfl⟩
  · exact ⟨_, rfl⟩

theorem sendBlocks_eq (available : List ℕ) (content : Bytes) (x : Execution) :
    ∃ sent, (sendBlocks o available content x).2 = { x with sent := sent } := by
  induction available generalizing content x with
  | nil => exact ⟨x.sent, rfl⟩
  | cons n available ih =>
    rw [sendBlocks]
    split
    · exact ⟨x.sent, rfl⟩
    · obtain ⟨sent, hsent⟩ := sendDataToClient_eq o
        (content.take (min (min n sendBufferSize) content.length)) x
      split
      · rename_i heq
        rw [heq] at hsent
        exact ⟨sent, hsent⟩
      · rename_i heq
        rw [heq] at hsent
        obtain rfl : _ = _ := hsent
        exact ih _ _

theorem sendLines_eq (lines : List Bytes) (x : Execution) :
    ∃ sent, (sendLines o lines x).2 = { x with sent := sent } := by
  induction lines generalizing x with
  | nil => exact ⟨x.sent, rfl⟩
  | cons line lines ih =>
    obtain ⟨sent, hsent⟩ := sendDataToClient_eq o (line ++ [CR, LF]) x
    rw [sendLines]
    split
    · rename_i heq
      rw [heq] at hsent
      exact ⟨sent, hsent⟩
    · rename_i heq
      rw [heq] at hsent
      obtain rfl : _ = _ := hsent
      exact ih _

theorem sendAscii_eq (lines : List Bytes) (x : Execution) :
    ∃ sent, lines.foldl (fun x s => x.sendAsciiDataToClient o s) x = { x with sent := sent } := by
  induction lines generalizing x with
  | nil => exact ⟨x.sent, rfl⟩
  | cons line lines ih =>
    obtain ⟨sent, hsent⟩ := sendDataToClient_eq o (line ++ [CR, LF]) x
    rw [List.foldl_cons, Execution.sendAsciiDataToClient, hsent]
    exact ih _

end Sending

section Handlers

variable {o : Outcomes} {path : Option Bytes} {throws reaches : Prop} {y : Execution}

theorem Accounted.idle (hpath : path = none) (hcalls : y.calls = [])
    (hfault : y.fault ≠ none ↔ throws) (hreaches : ¬ reaches) (hdisk : y.disk = o.disk)
    (hsent : y.sent = []) : Accounted o path throws reaches y where
  paths := by simp [hcalls]
  passed h := absurd hpath h
  fault := hfault
  effect := by simp [Execution.HasEffect, hcalls, hreaches]
  quiet _ := ⟨hdisk, hsent⟩

theorem Accounted.looked {p : Bytes} {granted : Bool} (hpath : path = some p)
    (hcalls : y.calls = [⟨.status, p, granted⟩]) (hfault : y.fault ≠ none ↔ throws)
    (hreaches : ¬ reaches) (hdisk : y.disk = o.disk) (hsent : y.sent = []) :
    Accounted o path throws reaches y where
  paths := by simp [hcalls, hpath]
  passed _ := by simp [hcalls]
  fault := hfault
  effect := by simp [Execution.HasEffect, FileCall.Effective, hcalls, hreaches]
  quiet _ := ⟨hdisk, hsent⟩

/-- A command that ends with one call beside those that look at the path. -/
theorem Accounted.acted {p : Bytes} {access : Access} {granted : Bool} (looks : List FileCall)
    (hpath : path = some p) (hcalls : y.calls = looks ++ [⟨access, p, granted⟩])
    (hlooks : ∀ call ∈ looks, call.access = .status ∧ call.path = p) (haccess : access ≠ .status)
    (hfault : y.fault ≠ none ↔ throws) (hreaches : reaches ↔ granted = true)
    (hquiet : granted = false → y.disk = o.disk ∧ y.sent = []) :
    Accounted o path throws reaches y where
  paths call hcall := by
    rw [hcalls] at hcall
    rcases List.mem_append.mp hcall with hlook | hlast
    · rw [hpath, (hlooks call hlook).2]
    · rw [hpath, List.mem_singleton.mp hlast]
  passed _ := by simp [hcalls]
  fault := hfault
  effect := by
    rw [hreaches]
    constructor
    · rintro ⟨call, hcall, hgranted, hother⟩
      rw [hcalls] at hcall
      rcases List.mem_append.mp hcall with hlook | hlast
      · exact absurd (hlooks call hlook).1 hother
      · rwa [List.mem_singleton.mp hlast] at hgranted
    · intro hgranted
      exact ⟨⟨access, p, granted⟩, by rw [hcalls]; simp, hgranted, haccess⟩
  quiet h := hquiet (by rwa [hreaches, Bool.not_eq_true] at h)

variable (o) (users : UsersDB) (s : FTPSession) (args : Bytes)

theorem handleCwd_accounted : Accounted o (s.usedPath args .cwd) (Throws o users s args .cwd)
    (Reaches o s args .cwd) ((Execution.start s o.disk).handleCwd o args) := by
  unfold Execution.handleCwd
  dsimp only [Execution.start, Execution.called]
  by_cases hstatus : o.refuses .status (s.cwdTarget args) = true
  · rw [if_pos hstatus]
    exact .looked rfl rfl (iff_of_true (by simp [Execution.raise]) hstatus) not_false rfl rfl
  · rw [if_neg hstatus]
    split
    · exact .looked rfl rfl (iff_of_false (by simp [Execution.sendMessageToClient]) hstatus)
        not_false rfl rfl
    · exact .looked rfl rfl (iff_of_false (by simp [Execution.sendMessageToClient]) hstatus)
        not_false rfl rfl

theorem handleDele_accounted : Accounted o (s.usedPath args .dele) (Throws o users s args .dele)
    (Reaches o s args .dele) ((Execution.start s o.disk).handleDele o args) := by
  unfold Execution.handleDele
  dsimp only [Execution.start, Execution.called]
  split
  · rename_i hname
    have hpath : s.usedPath args .dele = some (s.joined args) := if_pos hname
    split
    · rename_i hstatus
      exact .looked hpath rfl (by simp [Execution.raise, Throws, hname, hstatus])
        (by simp [Reaches, hstatus]) rfl rfl
    · rename_i hstatus
      have hfault : ¬ Throws o users s args .dele := fun h => hstatus h.2
      split
      · rename_i hfile
        rw [Bool.and_eq_true] at hfile
        rw [← apply_ite (Execution.sendMessageToClient _)]
        refine .acted [_] hpath rfl (by simp) nofun
          (by simp [Execution.sendMessageToClient, hfault]) ?_ ?_
        · simp [Reaches, Disk.removeEntry_fst, hname, hstatus, hfile.2]
        · exact fun h => ⟨Disk.removeEntry_snd h, rfl⟩
      · rename_i hfile
        refine .looked hpath rfl (by simp [Execution.sendMessageToClient, hfault]) ?_ rfl rfl
        rintro ⟨-, -, hhas, -⟩
        rw [hhas, Disk.present_of_file hhas] at hfile
        exact hfile rfl
  · rename_i hname
    exact .idle (if_neg hname) rfl
      (by simp [Execution.sendMessageToClient, Throws, hname]) (fun h => hname h.1) rfl rfl

theorem handleMkd_accounted : Accounted o (s.usedPath args .mkd) (Throws o users s args .mkd)
    (Reaches o s args .mkd) ((Execution.start s o.disk).handleMkd o args) := by
  unfold Execution.handleMkd
  dsimp only [Execution.start, Execution.called]
  split
  · rename_i hname
    rw [← apply_ite (Execution.sendMessageToClient _)]
    refine .acted [] (if_pos hname) rfl nofun nofun
      (by simp [Execution.sendMessageToClient, Throws]) ?_ ?_
    · simp [Reaches, Disk.createDirectory_fst, hname, and_comm]
    · exact fun h => ⟨Disk.createDirectory_snd h, rfl⟩
  · rename_i hname
    exact .idle (if_neg hname) rfl
      (by simp [Execution.sendMessageToClient, Throws]) (fun h => hname h.1) rfl rfl

theorem handleRmd_accounted : Accounted o (s.usedPath args .rmd) (Throws o users s args .rmd)
    (Reaches o s args .rmd) ((Execution.start s o.disk).handleRmd o args) := by
  unfold Execution.handleRmd
  dsimp only [Execution.start, Execution.called]
  split
  · rename_i hname
    have hpath : s.usedPath args .rmd = some (s.joined args) := if_pos hname
    split
    · rename_i hdir
      simp only [Bool.and_eq_true, Bool.not_eq_true'] at hdir
      rw [← apply_ite (Execution.sendMessageToClient _)]
      refine .acted [_] hpath rfl (by simp) nofun
        (by simp [Execution.sendMessageToClient, Throws]) ?_ ?_
      · simp [Reaches, Disk.removeEntry_fst, hname, hdir.1.1, hdir.2]
      · exact fun h => ⟨Disk.removeEntry_snd h, rfl⟩
    · rename_i hdir
      refine .looked hpath rfl (by simp [Execution.sendMessageToClient, Throws]) ?_ rfl rfl
      rintro ⟨-, hstatus, hhas, -⟩
      rw [hstatus, hhas, Disk.present_of_directory hhas] at hdir
      exact hdir rfl
  · rename_i hname
    exact .idle (if_neg hname) rfl
      (by simp [Execution.sendMessageToClient, Throws]) (fun h => hname h.1) rfl rfl

theorem readDirectory_found (h : o.refuses .status (s.joined args) = false)
    (hdir : o.disk.hasDirectory (s.joined args) = true) :
    (Execution.start s o.disk).readDirectory o args = (o.listing (s.joined args),
      { Execution.start s o.disk with calls := [⟨.status, s.joined args, true⟩,
        ⟨.list, s.joined args, (o.listing (s.joined args)).isSome⟩] }) := by
  unfold Execution.readDirectory
  simp [Execution.start, Execution.called, h, hdir, Disk.present_of_directory hdir]

theorem readDirectory_missing (h : ¬ (o.refuses .status (s.joined args) = false ∧
      o.disk.hasDirectory (s.joined args) = true)) :
    (Execution.start s o.disk).readDirectory o args = (some [],
      { Execution.start s o.disk with
        calls := [⟨.status, s.joined args, !o.refuses .status (s.joined args)⟩] }) := by
  unfold Execution.readDirectory
  dsimp only [Execution.start, Execution.called]
  rw [if_pos]
  · rfl
  · cases hstatus : o.refuses .status (s.joined args) with
    | true => rfl
    | false => simp [show o.disk.hasDirectory (s.joined args) = false by simpa [hstatus] using h]

/-- NLST on an open data connection looks at its path, lists a directory if one is there, and
closes the connection. -/
theorem handleNlst_cases (h : s.dataSocket = true) :
    (¬ (o.refuses .status (s.joined args) = false ∧ o.disk.hasDirectory (s.joined args) = true) ∧
      ∃ replies, (Execution.start s o.disk).handleNlst o args =
        { session := { s with dataSocket := false, acceptor := false }, disk := o.disk,
          replies := replies,
          calls := [⟨.status, s.joined args, !o.refuses .status (s.joined args)⟩] }) ∨
    (o.refuses .status (s.joined args) = false ∧ o.disk.hasDirectory (s.joined args) = true) ∧
      ∃ replies sent, (Execution.start s o.disk).handleNlst o args =
        { session := { s with dataSocket := false, acceptor := false }, disk := o.disk,
          replies := replies, sent := sent,
          calls := [⟨.status, s.joined args, true⟩,
            ⟨.list, s.joined args, (o.listing (s.joined args)).isSome⟩] } ∧
        (o.listing (s.joined args) = none → sent = []) := by
  have hsocket : (Execution.start s o.disk).session.dataSocket = true := h
  unfold Execution.handleNlst
  rw [hsocket, Bool.not_true, if_neg (by decide)]
  by_cases hdir : o.refuses .status (s.joined args) = false ∧
      o.disk.hasDirectory (s.joined args) = true
  · refine .inr ⟨hdir, ?_⟩
    rw [readDirectory_found o s args hdir.1 hdir.2]
    cases o.listing (s.joined args) with
    | none => exact ⟨_, _, rfl, fun _ => rfl⟩
    | some lines =>
      cases lines with
      | nil => exact ⟨_, _, rfl, fun _ => rfl⟩
      | cons line lines =>
        dsimp only
        obtain ⟨sent, hsent⟩ := sendAscii_eq o (line :: lines) (Execution.sendMessageToClient _ _)
        rw [hsent]
        exact ⟨_, _, rfl, fun hnone => absurd hnone (Option.some_ne_none _)⟩
  · rw [readDirectory_missing o s args hdir]
    exact .inl ⟨hdir, _, rfl⟩

theorem handleNlst_accounted {command : Command} (hc : command = .list ∨ command = .nlst) :
    Accounted o (s.usedPath args command) (Throws o users s args command)
      (Reaches o s args command) ((Execution.start s o.disk).handleNlst o args) := by
  have hthrows : ¬ Throws o users s args command := by rcases hc with rfl | rfl <;> exact not_false
  have hreaches : Reaches o s args command ↔ Reaches o s args .list := by
    rcases hc with rfl | rfl <;> exact Iff.rfl
  have hused : s.usedPath args command = if s.dataSocket then some (s.joined args) else none := by
    rcases hc with rfl | rfl <;> rfl
  have hfault : (none : Option Fault) ≠ none ↔ Throws o users s args command :=
    iff_of_false (not_not.mpr rfl) hthrows
  rw [hused, hreaches]
  cases hopen : s.dataSocket with
  | false =>
    have hclosed : (Execution.start s o.disk).session.dataSocket = false := hopen
    unfold Execution.handleNlst
    rw [hclosed, if_neg (by decide), Bool.not_false, if_pos rfl]
    exact .idle rfl rfl hfault (by simp [Reaches, hopen]) rfl rfl
  | true =>
    rw [if_pos rfl]
    rcases handleNlst_cases o s args hopen with
      ⟨hmissing, replies, heq⟩ | ⟨hdir, replies, sent, heq, hsent⟩
    · rw [heq]
      exact .looked rfl rfl hfault (fun h => hmissing ⟨h.2.1, h.2.2.1⟩) rfl rfl
    · have hlisted : Reaches o s args .list ↔ (o.listing (s.joined args)).isSome = true := by
        simp [Reaches, hopen, hdir]
      rw [heq]
      refine .acted [_] rfl rfl (by simp) nofun hfault hlisted fun hnone => ⟨rfl, hsent ?_⟩
      rwa [Option.isSome_eq_false_iff, Option.isNone_iff_eq_none] at hnone

theorem readable_isSome (x : Execution) (path : Bytes) :
    (x.readable o path).isSome = (x.disk.hasFile path && !o.refuses .read path) := by
  unfold Execution.readable
  split
  · rename_i h
    rw [h]
    rw [Bool.and_eq_true, Disk.hasFile, Bool.and_eq_true] at h
    exact h.1.2
  · rename_i h
    rw [Bool.not_eq_true] at h
    rw [h]
    rfl

theorem sendBlocks_nil (available : List ℕ) (x : Execution) :
    sendBlocks o available [] x = (true, x) := by
  cases available with
  | nil => rfl
  | cons n available => simp [sendBlocks]

/-- A transfer makes one call, and sends something only if that is granted. -/
theorem sendFile_eq (path : Bytes) (x : Execution) :
    ∃ ready sent, (x.sendFile o path).2 = { x with
        replies := x.replies ++ [ready]
        sent := sent
        calls := x.calls ++ [⟨.read, path, x.disk.hasFile path && !o.refuses .read path⟩] } ∧
      ((x.disk.hasFile path && !o.refuses .read path) = false → sent = x.sent) := by
  have hread := readable_isSome o x path
  unfold Execution.sendFile
  dsimp only
  rw [hread]
  have hnil : (x.disk.hasFile path && !o.refuses .read path) = false →
      (x.readable o path).getD [] = [] := by
    intro h
    rw [h, Option.isSome_eq_false_iff, Option.isNone_iff_eq_none] at hread
    rw [hread]
    rfl
  cases x.session.transferType with
  | binary =>
    obtain ⟨sent, hsent⟩ := sendBlocks_eq o o.available ((x.readable o path).getD [])
      ((x.sendMessageToClient (chars
        "150 Data connection (binary mode) is ready to transfer file")).called .read path
        (x.disk.hasFile path && !o.refuses .read path))
    refine ⟨_, sent, hsent, fun h => ?_⟩
    rw [hnil h, sendBlocks_nil] at hsent
    exact (congrArg Execution.sent hsent).symm
  | ascii =>
    obtain ⟨sent, hsent⟩ := sendLines_eq o (split ((x.readable o path).getD []) LF)
      ((x.sendMessageToClient (chars
        "150 Data connection (ASCII mode) is ready to transfer file.")).called .read path
        (x.disk.hasFile path && !o.refuses .read path))
    refine ⟨_, sent, hsent, fun h => ?_⟩
    rw [hnil h] at hsent
    exact (congrArg Execution.sent hsent).symm

/-- RETR on an open data connection is left by an exception, finds that the path does not
exist, or transfers a file and closes the connection. -/
theorem handleRetr_cases (h : s.dataSocket = true) :
    (o.refuses .status (s.joined args) = true ∧ (Execution.start s o.disk).handleRetr o args =
      ((Execution.start s o.disk).called .status (s.joined args) false).raise .exception) ∨
    (o.refuses .status (s.joined args) = false ∧ o.disk.present (s.joined args) = false ∧
      (Execution.start s o.disk).handleRetr o args =
        ((Execution.start s o.disk).called .status (s.joined args) true).sendMessageToClient
          (chars "550 File does not exist")) ∨
    (o.refuses .status (s.joined args) = false ∧ o.disk.present (s.joined args) = true) ∧
      ∃ replies sent, (Execution.start s o.disk).handleRetr o args =
        { session := { s with dataSocket := false, acceptor := false }, disk := o.disk,
          replies := replies, sent := sent,
          calls := [⟨.status, s.joined args, true⟩, ⟨.read, s.joined args,
            o.disk.hasFile (s.joined args) && !o.refuses .read (s.joined args)⟩] } ∧
        ((o.disk.hasFile (s.joined args) && !o.refuses .read (s.joined args)) = false →
          sent = []) := by
  have hsocket : (Execution.start s o.disk).session.dataSocket = true := h
  unfold Execution.handleRetr
  rw [hsocket, Bool.not_true, if_neg (by decide)]
  dsimp only [Execution.start, Execution.called]
  cases hstatus : o.refuses .status (s.joined args) with
  | true => exact .inl ⟨rfl, rfl⟩
  | false =>
    right
    rw [if_neg (by decide)]
    cases hpresent : o.disk.present (s.joined args) with
    | false => exact .inl ⟨rfl, rfl, rfl⟩
    | true =>
      obtain ⟨ready, sent, heq, hsent⟩ := sendFile_eq o (s.joined args)
        { session := s, disk := o.disk, calls := [⟨.status, s.joined args, true⟩] }
      refine .inr ⟨⟨rfl, rfl⟩, ?_⟩
      simp only [Bool.not_false, Bool.not_true, List.nil_append]
      rw [if_neg (by decide), heq]
      split
      · exact ⟨_, _, rfl, hsent⟩
      · exact ⟨_, _, rfl, hsent⟩

theorem handleRetr_accounted : Accounted o (s.usedPath args .retr) (Throws o users s args .retr)
    (Reaches o s args .retr) ((Execution.start s o.disk).handleRetr o args) := by
  cases hopen : s.dataSocket with
  | false =>
    have hclosed : (Execution.start s o.disk).session.dataSocket = false := hopen
    unfold Execution.handleRetr
    rw [hclosed, Bool.not_false, if_pos rfl]
    exact .idle (by simp [FTPSession.usedPath, hopen]) rfl
      (iff_of_false (not_not.mpr rfl) (by simp [Throws, hopen])) (by simp [Reaches, hopen]) rfl rfl
  | true =>
    have hpath : s.usedPath args .retr = some (s.joined args) := if_pos hopen
    rcases handleRetr_cases o s args hopen with
      ⟨hstatus, heq⟩ | ⟨hstatus, hmissing, heq⟩ | ⟨⟨hstatus, -⟩, replies, sent, heq, hsent⟩
    · rw [heq]
      exact .looked hpath rfl (iff_of_true (Option.some_ne_none _) ⟨hopen, hstatus⟩)
        (by simp [Reaches, hstatus]) rfl rfl
    · rw [heq]
      refine .looked hpath rfl (iff_of_false (not_not.mpr rfl) (by simp [Throws, hstatus]))
        (fun h => ?_) rfl rfl
      rw [Disk.present_of_file h.2.2.1] at hmissing
      cases hmissing
    · rw [heq]
      exact .acted [_] hpath rfl (by simp) nofun
        (iff_of_false (not_not.mpr rfl) (by simp [Throws, hstatus]))
        (by simp [Reaches, hopen, hstatus]) fun h => ⟨rfl, hsent h⟩

theorem handleStor_accounted : Accounted o (s.usedPath args .stor) (Throws o users s args .stor)
    (Reaches o s args .stor) ((Execution.start s o.disk).handleStor o args) := by
  cases hopen : s.dataSocket with
  | false =>
    have hclosed : (Execution.start s o.disk).session.dataSocket = false := hopen
    unfold Execution.handleStor
    rw [hclosed, Bool.not_false, if_pos rfl]
    exact .idle (by simp [FTPSession.usedPath, hopen]) rfl
      (iff_of_false (not_not.mpr rfl) not_false) (by simp [Reaches, hopen]) rfl rfl
  | true =>
    rw [handleStor_eq o args (.start s o.disk) hopen]
    refine .acted [] (if_pos hopen) rfl nofun nofun
      (iff_of_false (not_not.mpr rfl) not_false) ?_ ?_
    · have hreaches : Reaches o s args .stor ↔ CanStore o args (.start s o.disk) :=
        and_iff_right hopen
      rw [hreaches]
      by_cases hstore : CanStore o args (.start s o.disk)
      · exact iff_of_true hstore (by rw [(storFile_opened hstore).1]; rfl)
      · exact iff_of_false hstore (by rw [storFile_refused hstore]; nofun)
    · intro hfile
      refine ⟨?_, rfl⟩
      have hstore : ¬ CanStore o args (.start s o.disk) := by
        intro hstore
        rw [(storFile_opened hstore).1] at hfile
        cases hfile
      dsimp only
      rw [storFile_refused hstore, receivePieces_failed _ rfl]
      rfl

theorem openDataConnectionPassive_eq (port : UInt16) (x : Execution) :
    ∃ dataSocket acceptor, (x.openDataConnectionPassive o port).2 = { x with
      session := { x.session with dataSocket := dataSocket, acceptor := acceptor } } := by
  unfold Execution.openDataConnectionPassive
  split
  · exact ⟨_, _, rfl⟩
  split
  · exact ⟨_, _, rfl⟩
  dsimp only
  split
  · exact ⟨_, true, rfl⟩
  split
  · exact ⟨_, true, rfl⟩
  split
  · exact ⟨_, true, rfl⟩
  split
  · exact ⟨_, true, rfl⟩
  · exact ⟨true, true, rfl⟩

/-- PORT makes no call to the file system and fails for a bad argument. -/
theorem handlePort_eq (x : Execution) : ∃ dataSocket replies endpoints fault,
    x.handlePort o args = { x with
      session := { x.session with dataSocket := dataSocket }
      replies := replies
      endpoints := endpoints
      fault := fault } ∧
    (x.fault = none → (fault ≠ none ↔ BadPort o args)) := by
  unfold Execution.handlePort BadPort
  cases portArguments args with
  | error fault => exact ⟨_, _, _, _, rfl, fun _ => iff_of_true nofun trivial⟩
  | ok target =>
    obtain ⟨host, port⟩ := target
    dsimp only
    unfold Execution.openDataConnectionActive
    cases haddr : o.addressValid host with
    | false => exact ⟨_, _, _, _, rfl, fun _ => iff_of_true nofun rfl⟩
    | true =>
      simp only [Bool.not_true, Bool.false_eq_true, if_false]
      split
      · exact ⟨_, _, _, _, rfl, fun h => iff_of_false (not_not.mpr h) nofun⟩
      · exact ⟨_, _, _, _, rfl, fun h => iff_of_false (not_not.mpr h) nofun⟩

theorem handlePort_accounted :
    Accounted o none (BadPort o args) False ((Execution.start s o.disk).handlePort o args) := by
  obtain ⟨dataSocket, replies, endpoints, fault, heq, hfault⟩ :=
    handlePort_eq o args (.start s o.disk)
  rw [heq]
  exact .idle rfl rfl (hfault rfl) not_false rfl rfl

/-- PASS without a username, with one that is unknown, and with the password of one. -/
theorem handlePass_cases (x : Execution) :
    (x.session.username = [] ∧ x.handlePass users args = x) ∨
    (x.session.username ≠ [] ∧ users x.session.username = none ∧
      x.handlePass users args = x.raise .exception) ∨
    ∃ password, x.session.username ≠ [] ∧ users x.session.username = some password ∧
      x.handlePass users args = x.sendMessageToClient (if password = args then
        chars "230 User " ++ x.session.username ++ chars " logged in"
      else chars "530 login authentication failed") := by
  unfold Execution.handlePass UsersDB.passwordIsValid
  by_cases hname : x.session.username = []
  · exact .inl ⟨hname, if_neg (not_not.mpr hname)⟩
  · rw [if_pos hname]
    right
    cases hknown : users x.session.username with
    | none => exact .inl ⟨hname, rfl, rfl⟩
    | some password =>
      refine .inr ⟨password, hname, rfl, ?_⟩
      rw [Option.map_some]
      cases hequal : password == args with
      | true => rw [if_pos (beq_iff_eq.mp hequal)]
      | false => rw [if_neg (beq_eq_false_iff_ne.mp hequal)]

theorem handlePass_accounted : Accounted o (s.usedPath args .pass) (Throws o users s args .pass)
    (Reaches o s args .pass) ((Execution.start s o.disk).handlePass users args) := by
  rcases handlePass_cases users args (.start s o.disk) with
    ⟨hname, heq⟩ | ⟨hname, hunknown, heq⟩ | ⟨password, hname, hknown, heq⟩
  · rw [heq]
    exact .idle rfl rfl (iff_of_false (not_not.mpr rfl) fun h => h.1 hname) not_false rfl rfl
  · rw [heq]
    exact .idle rfl rfl (iff_of_true (Option.some_ne_none _) ⟨hname, hunknown⟩) not_false rfl rfl
  · have hthrows : ¬ Throws o users s args .pass := fun h =>
      Option.some_ne_none _ (hknown.symm.trans h.2)
    rw [heq]
    exact .idle rfl rfl (iff_of_false (not_not.mpr rfl) hthrows) not_false rfl rfl

theorem handleType_eq (x : Execution) : ∃ transferType replies, x.handleType args = { x with
    session := { x.session with transferType := transferType }, replies := replies } := by
  unfold Execution.handleType
  split
  · split
    · exact ⟨_, _, rfl⟩
    split
    · exact ⟨_, _, rfl⟩
    · exact ⟨_, _, rfl⟩
  · exact ⟨_, _, rfl⟩

theorem handleUser_eq (x : Execution) : ∃ username replies, x.handleUser users args = { x with
    session := { x.session with username := username }, replies := replies } := by
  unfold Execution.handleUser
  split
  · exact ⟨_, _, rfl⟩
  · exact ⟨_, _, rfl⟩

/-- What the definitions say of a command holds. -/
theorem executeCommand_accounted (line : Bytes) :
    Accounted o (s.usedPath (parseCommand line).2 (parseCommand line).1)
      (Throws o users s (parseCommand line).2 (parseCommand line).1)
      (Reaches o s (parseCommand line).2 (parseCommand line).1)
      (executeCommand o users line (.start s o.disk)) := by
  unfold executeCommand
  obtain ⟨command, args⟩ := parseCommand line
  have hidle : ∀ {y : Execution} {throws : Prop}, y.calls = [] → y.fault = none → ¬ throws →
      y.disk = o.disk → y.sent = [] → Accounted o none throws False y := by
    intro y throws hcalls hfault hthrows hdisk hsent
    exact .idle rfl hcalls (iff_of_false (not_not.mpr hfault) hthrows) not_false hdisk hsent
  cases command with
  | cwd => exact handleCwd_accounted o users s args
  | dele => exact handleDele_accounted o users s args
  | eprt => exact handlePort_accounted o s _
  | epsv =>
    obtain ⟨dataSocket, acceptor, heq⟩ := openDataConnectionPassive_eq o s.dataPort
      ((Execution.start s o.disk).sendMessageToClient _)
    exact hidle (congrArg _ heq) (congrArg _ heq) not_false (congrArg _ heq) (congrArg _ heq)
  | feat => exact hidle rfl rfl not_false rfl rfl
  | list => exact handleNlst_accounted o users s args (.inl rfl)
  | nlst => exact handleNlst_accounted o users s args (.inr rfl)
  | mkd => exact handleMkd_accounted o users s args
  | pass => exact handlePass_accounted o users s args
  | pasv =>
    obtain ⟨dataSocket, acceptor, heq⟩ := openDataConnectionPassive_eq o s.dataPort
      ((Execution.start s o.disk).sendMessageToClient _)
    exact hidle (congrArg _ heq) (congrArg _ heq) not_false (congrArg _ heq) (congrArg _ heq)
  | port => exact handlePort_accounted o s _
  | pwd => exact hidle rfl rfl not_false rfl rfl
  | quit => exact hidle rfl rfl not_false rfl rfl
  | retr => exact handleRetr_accounted o users s args
  | rmd => exact handleRmd_accounted o users s args
  | syst => exact hidle rfl rfl not_false rfl rfl
  | stor => exact handleStor_accounted o users s args
  | type =>
    obtain ⟨transferType, replies, heq⟩ := handleType_eq args (.start s o.disk)
    exact hidle (congrArg _ heq) (congrArg _ heq) not_false (congrArg _ heq) (congrArg _ heq)
  | user =>
    obtain ⟨username, replies, heq⟩ := handleUser_eq users args (.start s o.disk)
    exact hidle (congrArg _ heq) (congrArg _ heq) not_false (congrArg _ heq) (congrArg _ heq)
  | unknown => exact hidle rfl rfl not_false rfl rfl

end Handlers

end Ftp
end NetworkProtocols
