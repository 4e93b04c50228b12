import NetworkProtocols.Ftp.Changes

/-!
# A data connection for one transfer

RETR, STOR, LIST and NLST close the data socket and the acceptor before they return; a RETR of a
path that does not exist leaves both as they are.
-/

namespace NetworkProtocols
namespace Ftp

open Bytes

def FTPSession.Closed (s : FTPSession) : Prop := s.dataSocket = false ∧ s.acceptor = false

instance (s : FTPSession) : Decidable s.Closed := inferInstanceAs (Decidable (_ ∧ _))

def FTPSession.after (s : FTPSession) (users : UsersDB) (commands : List (Outcomes × Bytes)) :
    FTPSession :=
  commands.foldl (fun s p => (executeCommand p.1 users p.2 (.start s p.1.disk)).session) s

variable {s : FTPSession} {users : UsersDB}

theorem FTPSession.Closed.execute (h : s.Closed) (o : Outcomes) {line : Bytes}
    (hline : (parseCommand line).1 ∉ opens) :
    (executeCommand o users line (.start s o.disk)).session.Closed := by
  have hchanges := executeCommand_changes o users s line
  generalize (executeCommand o users line (.start s o.disk)).session = t at hchanges
  generalize (parseCommand line).1 = command at hchanges hline
  cases hchanges with
  | same _ _ => exact h
  | closed _ => exact ⟨rfl, rfl⟩
  | opened opening _ _ => exact absurd opening hline
  | cwd _ => exact h
  | quit => exact h
  | type _ => exact h
  | user _ => exact h

theorem FTPSession.Closed.after (h : s.Closed) {commands : List (Outcomes × Bytes)}
    (hlines : ∀ p ∈ commands, (parseCommand p.2).1 ∉ opens) : (s.after users commands).Closed := by
  induction commands generalizing s with
  | nil => exact h
  | cons p commands ih =>
    obtain ⟨hline, hrest⟩ := List.forall_mem_cons.mp hlines
    exact ih (h.execute p.1 hline) hrest

/-- A transfer leaves the connection closed, and the next command to open one finds it so. -/
def ServesOne (users : UsersDB) (s : FTPSession) : Prop :=
  s.Closed ∧ ∀ commands : List (Outcomes × Bytes),
    (∀ p ∈ commands, (parseCommand p.2).1 ∉ opens) → (s.after users commands).Closed

/-- A transfer on an open connection that no exception leaves closes it, unless it is a RETR of
a path that does not exist. -/
theorem transfer_closes_iff (o : Outcomes) (users : UsersDB) (s : FTPSession) (line : Bytes)
    (hopen : s.dataSocket = true) (hcommand : (parseCommand line).1 ∈ transfers)
    (hfault : (executeCommand o users line (.start s o.disk)).fault = none) :
    ServesOne users (executeCommand o users line (.start s o.disk)).session ↔
      ¬ ((parseCommand line).1 = .retr ∧
        o.disk.present (s.joined (parseCommand line).2) = false) := by
  have hthrows := (executeCommand_accounted o users s line).fault
  have hserves : ∀ t : FTPSession, ServesOne users t ↔ t.Closed :=
    fun t => ⟨And.left, fun h => ⟨h, fun _ hlines => h.after hlines⟩⟩
  have hclosed : s.closed.Closed := ⟨rfl, rfl⟩
  rw [hfault] at hthrows
  rw [hserves]
  unfold executeCommand
  generalize parseCommand line = parsed at hcommand hthrows ⊢
  obtain ⟨command, args⟩ := parsed
  change command ∈ transfers at hcommand
  cases command with
  | list => simpa [handleNlst_session o s args hopen] using hclosed
  | nlst => simpa [handleNlst_session o s args hopen] using hclosed
  | stor => simpa [handleStor_session o s args hopen] using hclosed
  | retr =>
    have hstatus : o.refuses .status (s.joined args) = false := by
      simpa [Throws, hopen] using hthrows
    have hsession := handleRetr_session o s args hopen
    cases hpresent : o.disk.present (s.joined args) with
    | true =>
      rw [if_pos ⟨hstatus, hpresent⟩] at hsession
      rw [hsession]
      exact iff_of_true hclosed fun h => absurd h.2 (by decide)
    | false =>
      rw [if_neg fun h => Bool.false_ne_true (hpresent.symm.trans h.2)] at hsession
      rw [hsession]
      exact iff_of_false (fun h => Bool.false_ne_true (h.1.symm.trans hopen))
        (fun h => h ⟨rfl, rfl⟩)
  | _ => exact absurd hcommand (by decide)

/-- A RETR of a file that is there closes the connection. -/
theorem transfer_closes_file : ServesOne (fun _ => none)
    (executeCommand { disk := homeDisk } (fun _ => none) (chars "RETR f")
      (.start connected homeDisk)).session :=
  (transfer_closes_iff { disk := homeDisk } (fun _ => none) connected (chars "RETR f") rfl
    (by decide +kernel) (by decide +kernel)).mpr (by decide +kernel)

/-- A RETR of a file that is not there is answered 550, and the data connection stays open: a
PASV behind it opens none. -/
theorem missing_file_keeps_connection :
    let x := executeCommand { disk := homeDisk } (fun _ => none) (chars "RETR x")
      (.start connected homeDisk)
    x.fault = none ∧ x.replies = [chars "550 File does not exist"] ∧ ¬ x.session.Closed ∧
      (Execution.openDataConnectionPassive { disk := homeDisk } x.session.dataPort
        (.start x.session homeDisk)).1 = false := by
  decide +kernel

end Ftp
end NetworkProtocols
