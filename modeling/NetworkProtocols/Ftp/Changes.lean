import NetworkProtocols.Ftp.Effects

/-!
# What becomes of the session

A command changes one thing of the session: the state of the two sockets, the current
directory, the type of transfers, the username, or that the loop goes on.
-/

namespace NetworkProtocols
namespace Ftp

open Bytes

section Handlers

variable (o : Outcomes) (users : UsersDB) (s : FTPSession) (args : Bytes)

theorem handleDele_session : ((Execution.start s o.disk).handleDele o args).session = s := by
  unfold Execution.handleDele
  dsimp only
  split
  · split
    · rfl
    split
    · split <;> rfl
    · rfl
  · rfl

theorem handleMkd_session : ((Execution.start s o.disk).handleMkd o args).session = s := by
  unfold Execution.handleMkd
  dsimp only
  split
  · split <;> rfl
  · rfl

theorem handleRmd_session : ((Execution.start s o.disk).handleRmd o args).session = s := by
  unfold Execution.handleRmd
  dsimp only
  split
  · split
    · split <;> rfl
    · rfl
  · rfl

theorem handlePass_session : ((Execution.start s o.disk).handlePass users args).session = s := by
  rcases handlePass_cases users args (.start s o.disk) with
    ⟨-, heq⟩ | ⟨-, -, heq⟩ | ⟨password, -, -, heq⟩
  · rw [heq]
    rfl
  · rw [heq]
    rfl
  · rw [heq]
    rfl

def FTPSession.closed (s : FTPSession) : FTPSession :=
  { s with dataSocket := false, acceptor := false }

theorem handleNlst_session (h : s.dataSocket = true) :
    ((Execution.start s o.disk).handleNlst o args).session = s.closed := by
  rcases handleNlst_cases o s args h with ⟨-, replies, heq⟩ | ⟨-, replies, sent, heq, -⟩
  · rw [heq]
    rfl
  · rw [heq]
    rfl

theorem handleStor_session (h : s.dataSocket = true) :
    ((Execution.start s o.disk).handleStor o args).session = s.closed := by
  rw [handleStor_eq o args (.start s o.disk) h]
  rfl

theorem handleRetr_session (h : s.dataSocket = true) :
    ((Execution.start s o.disk).handleRetr o args).session =
      if o.refuses .status (s.joined args) = false ∧ o.disk.present (s.joined args) = true then
        s.closed else s := by
  rcases handleRetr_cases o s args h with
    ⟨hstatus, heq⟩ | ⟨-, hmissing, heq⟩ | ⟨hpresent, replies, sent, heq, -⟩
  · rw [heq, if_neg fun h => Bool.false_ne_true (h.1.symm.trans hstatus)]
    rfl
  · rw [heq, if_neg fun h => Bool.false_ne_true (hmissing.symm.trans h.2)]
    rfl
  · rw [heq, if_pos hpresent]
    rfl

theorem handlePort_session : ∃ dataSocket acceptor,
    ((Execution.start s o.disk).handlePort o args).session =
      { s with dataSocket := dataSocket, acceptor := acceptor } := by
  obtain ⟨dataSocket, replies, endpoints, fault, heq, -⟩ := handlePort_eq o args (.start s o.disk)
  exact ⟨dataSocket, s.acceptor, by rw [heq]; rfl⟩

theorem handleEpsv_session : ∃ dataSocket acceptor,
    ((Execution.start s o.disk).handleEpsv o).session =
      { s with dataSocket := dataSocket, acceptor := acceptor } := by
  obtain ⟨dataSocket, acceptor, heq⟩ := openDataConnectionPassive_eq o s.dataPort
    ((Execution.start s o.disk).sendMessageToClient _)
  exact ⟨dataSocket, acceptor, congrArg _ heq⟩

theorem handlePasv_session : ∃ dataSocket acceptor,
    ((Execution.start s o.disk).handlePasv o).session =
      { s with dataSocket := dataSocket, acceptor := acceptor } := by
  obtain ⟨dataSocket, acceptor, heq⟩ := openDataConnectionPassive_eq o s.dataPort
    ((Execution.start s o.disk).sendMessageToClient _)
  exact ⟨dataSocket, acceptor, congrArg _ heq⟩

theorem unconnected_session (h : s.dataSocket = false) :
    ((Execution.start s o.disk).handleNlst o args).session = s ∧
    ((Execution.start s o.disk).handleRetr o args).session = s ∧
    ((Execution.start s o.disk).handleStor o args).session = s := by
  have hclosed : (Execution.start s o.disk).session.dataSocket = false := h
  unfold Execution.handleNlst Execution.handleRetr Execution.handleStor
  rw [hclosed]
  exact ⟨rfl, rfl, rfl⟩

def transfers : List Command := [.list, .nlst, .retr, .stor]
def opens : List Command := [.eprt, .epsv, .pasv, .port]

/-- What a command may change of a session. -/
inductive Changes : Command → FTPSession → Prop
  | same {command : Command} (other : command ≠ .quit)
    (unknown : command = .user → users.usernameIsKnown args = false) : Changes command s
  | closed {command : Command} (transfer : command ∈ transfers) : Changes command s.closed
  | opened {command : Command} (opening : command ∈ opens) (dataSocket acceptor : Bool) :
    Changes command { s with dataSocket := dataSocket, acceptor := acceptor }
  | cwd (found : o.disk.hasDirectory (s.cwdTarget args) = true) :
    Changes .cwd { s with currDir := s.cwdTarget args }
  | quit : Changes .quit { s with quitCmdLoop := true }
  | type (transferType : TransferType) : Changes .type { s with transferType := transferType }
  | user (known : users.usernameIsKnown args = true) : Changes .user { s with username := args }

variable {command : Command} {t : FTPSession}

theorem Changes.kept (hother : command ∉ [.quit, .user]) (h : t = s) :
    Changes o users s args command t := by
  subst h
  rw [List.mem_pair, not_or] at hother
  exact .same hother.1 fun huser => absurd huser hother.2

theorem Changes.closes (htransfer : command ∈ transfers) (h : t = s.closed) :
    Changes o users s args command t := by
  subst h
  exact .closed htransfer

theorem Changes.opens (hopening : command ∈ Ftp.opens)
    (h : ∃ dataSocket acceptor, t = { s with dataSocket := dataSocket, acceptor := acceptor }) :
    Changes o users s args command t := by
  obtain ⟨dataSocket, acceptor, rfl⟩ := h
  exact .opened hopening _ _

theorem handleCwd_changes : Changes o users s args .cwd
    ((Execution.start s o.disk).handleCwd o args).session := by
  unfold Execution.handleCwd
  dsimp only
  split
  · exact .kept o users s args (by decide) rfl
  split
  · rename_i hfound
    rw [Bool.and_eq_true] at hfound
    exact .cwd hfound.2
  · exact .kept o users s args (by decide) rfl

theorem handleUser_changes : Changes o users s args .user
    ((Execution.start s o.disk).handleUser users args).session := by
  unfold Execution.handleUser
  split
  · rename_i hknown
    exact .user hknown
  · rename_i hunknown
    exact .same nofun fun _ => Bool.not_eq_true _ ▸ hunknown

theorem handleNlst_changes (hlist : command ∈ [.list, .nlst]) :
    Changes o users s args command ((Execution.start s o.disk).handleNlst o args).session := by
  rw [List.mem_pair] at hlist
  cases hopen : s.dataSocket with
  | true =>
    refine .closes o users s args ?_ (handleNlst_session o s args hopen)
    rcases hlist with rfl | rfl <;> decide
  | false =>
    refine .kept o users s args ?_ (unconnected_session o s args hopen).1
    rcases hlist with rfl | rfl <;> decide

theorem handleRetr_changes :
    Changes o users s args .retr ((Execution.start s o.disk).handleRetr o args).session := by
  cases hopen : s.dataSocket with
  | true =>
    have hsession := handleRetr_session o s args hopen
    split at hsession
    · exact .closes o users s args (by decide) hsession
    · exact .kept o users s args (by decide) hsession
  | false => exact .kept o users s args (by decide) (unconnected_session o s args hopen).2.1

theorem handleStor_changes :
    Changes o users s args .stor ((Execution.start s o.disk).handleStor o args).session := by
  cases hopen : s.dataSocket with
  | true => exact .closes o users s args (by decide) (handleStor_session o s args hopen)
  | false => exact .kept o users s args (by decide) (unconnected_session o s args hopen).2.2

theorem executeCommand_changes (line : Bytes) :
    Changes o users s (parseCommand line).2 (parseCommand line).1
      (executeCommand o users line (.start s o.disk)).session := by
  unfold executeCommand
  obtain ⟨command, args⟩ := parseCommand line
  dsimp only
  cases command with
  | cwd => exact handleCwd_changes o users s args
  | dele => exact .kept o users s args (by decide) (handleDele_session o s args)
  | eprt => exact .opens o users s args (by decide) (handlePort_session o s _)
  | epsv => exact .opens o users s args (by decide) (handleEpsv_session o s)
  | feat => exact .kept o users s args (by decide) rfl
  | list => exact handleNlst_changes o users s args (by decide)
  | nlst => exact handleNlst_changes o users s args (by decide)
  | mkd => exact .kept o users s args (by decide) (handleMkd_session o s args)
  | pass => exact .kept o users s args (by decide) (handlePass_session o users s args)
  | pasv => exact .opens o users s args (by decide) (handlePasv_session o s)
  | port => exact .opens o users s args (by decide) (handlePort_session o s _)
  | pwd => exact .kept o users s args (by decide) rfl
  | quit => exact .quit
  | retr => exact handleRetr_changes o users s args
  | rmd => exact .kept o users s args (by decide) (handleRmd_session o s args)
  | syst => exact .kept o users s args (by decide) rfl
  | stor => exact handleStor_changes o users s args
  | type =>
    obtain ⟨transferType, replies, heq⟩ := handleType_eq args (.start s o.disk)
    exact congrArg Execution.session heq ▸ .type transferType
  | user => exact handleUser_changes o users s args
  | unknown => exact .kept o users s args (by decide) rfl

/-- Only QUIT ends the loop. -/
theorem executeCommand_quit (line : Bytes) :
    (executeCommand o users line (.start s o.disk)).session.quitCmdLoop =
      (s.quitCmdLoop || (parseCommand line).1 == .quit) := by
  have hchanges := executeCommand_changes o users s line
  generalize (executeCommand o users line (.start s o.disk)).session = t at hchanges
  generalize (parseCommand line).1 = command at hchanges ⊢
  cases hchanges with
  | same other _ => simp [other]
  | closed transfer =>
    have hother : command ≠ .quit := by
      rintro rfl
      exact absurd transfer (by decide)
    simp [hother, FTPSession.closed]
  | opened opening _ _ =>
    have hother : command ≠ .quit := by
      rintro rfl
      exact absurd opening (by decide)
    simp [hother]
  | cwd _ => simp
  | quit => simp
  | type _ => simp
  | user _ => simp

/-- Only a USER with a username that is known changes the username. -/
theorem executeCommand_username (line : Bytes) :
    (executeCommand o users line (.start s o.disk)).session.username =
      if (parseCommand line).1 = .user ∧ users.usernameIsKnown (parseCommand line).2 = true then
        (parseCommand line).2 else s.username := by
  have hchanges := executeCommand_changes o users s line
  generalize (executeCommand o users line (.start s o.disk)).session = t at hchanges
  generalize (parseCommand line).2 = args at hchanges ⊢
  generalize (parseCommand line).1 = command at hchanges ⊢
  cases hchanges with
  | same _ unknown =>
    rw [if_neg]
    rintro ⟨huser, hknown⟩
    rw [unknown huser] at hknown
    cases hknown
  | closed transfer =>
    rw [if_neg]
    · rfl
    rintro ⟨rfl, -⟩
    exact absurd transfer (by decide)
  | opened opening _ _ =>
    rw [if_neg]
    rintro ⟨rfl, -⟩
    exact absurd opening (by decide)
  | cwd _ => rfl
  | quit => rfl
  | type _ => rfl
  | user known => rw [if_pos ⟨rfl, known⟩]

end Handlers

end Ftp
end NetworkProtocols
