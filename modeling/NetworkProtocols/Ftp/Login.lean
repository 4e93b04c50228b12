import NetworkProtocols.Ftp.Changes
import NetworkProtocols.Ftp.Worker

/-!
# File access and login

USER and PASS check the name and the password and tell the client what comes of it. Nothing
of that is kept but the username, and no other command asks for it.
-/

namespace NetworkProtocols
namespace Ftp

open Bytes Relation Transition

namespace Call

variable (users : UsersDB) (c : Call)

def command : Command := (parseCommand c.line).1
def args : Bytes := (parseCommand c.line).2

def LoggedIn : Prop :=
  c.command = .pass ∧ ∃ reply ∈ (c.execute users).replies, chars "230" <+: reply

def Reaches : Prop := Ftp.Reaches c.outcomes c.session c.args c.command

instance : Decidable (c.LoggedIn users) := inferInstanceAs (Decidable (_ ∧ _))

instance : Decidable c.Reaches := Reaches.decide _ _ _ _

theorem effect_iff : (c.execute users).HasEffect ↔ c.Reaches :=
  (executeCommand_accounted c.outcomes users c.session c.line).effect

theorem execute_pass (hpass : c.command = .pass) : c.execute users =
    (Execution.start c.session c.outcomes.disk).handlePass users c.args := by
  have hcommand : (parseCommand c.line).1 = .pass := hpass
  simp only [execute, executeCommand, hcommand]
  rfl

/-- PASS is answered with 230 for the password of the username that is stored. -/
theorem loggedIn_iff : c.LoggedIn users ↔ c.command = .pass ∧ c.session.username ≠ [] ∧
    users c.session.username = some c.args := by
  refine and_congr_right fun hpass => ?_
  rw [execute_pass users c hpass]
  rcases handlePass_cases users c.args (.start c.session c.outcomes.disk) with
    ⟨hname, heq⟩ | ⟨hname, hunknown, heq⟩ | ⟨password, hname, hknown, heq⟩
  · rw [heq]
    exact iff_of_false (by simp [Execution.start]) fun h => h.1 hname
  · have hne : users c.session.username ≠ some c.args :=
      fun h => Option.some_ne_none _ (h.symm.trans hunknown)
    rw [heq]
    exact iff_of_false (by simp [Execution.start, Execution.raise]) fun h => hne h.2
  · have hnonempty : c.session.username ≠ [] := hname
    have hstored : users c.session.username = some password := hknown
    rw [heq, hstored, and_iff_right hnonempty, Option.some_inj]
    by_cases hpassword : password = c.args
    · simp [Execution.start, Execution.sendMessageToClient, hpassword, chars]
    · simp [Execution.start, Execution.sendMessageToClient, hpassword, chars]

end Call

/-- The username after some commands, and whether its password was given since the start. -/
def login (users : UsersDB) (record : List Call) : Bytes × Bool :=
  record.foldl (fun state c =>
    if c.command = .user ∧ users.usernameIsKnown c.args = true then (c.args, state.2)
    else if c.command = .pass ∧ state.1 ≠ [] ∧ users state.1 = some c.args then (state.1, true)
    else state) ([], false)

/-- The session remembers the username, and the record the password. -/
structure Remembers (users : UsersDB) (s : FTPSession) (record : List Call) : Prop where
  username : s.username = (login users record).1
  password : (∃ c ∈ record, c.LoggedIn users) ↔ (login users record).2 = true

theorem login_concat (users : UsersDB) (record : List Call) (c : Call) :
    login users (record ++ [c]) =
      if c.command = .user ∧ users.usernameIsKnown c.args = true then
        (c.args, (login users record).2)
      else if c.command = .pass ∧ (login users record).1 ≠ [] ∧
          users (login users record).1 = some c.args then ((login users record).1, true)
      else login users record := by
  rw [login, List.foldl_append]
  rfl

theorem Remembers.step {users : UsersDB} (record : List Call) (c : Call)
    (h : Remembers users c.session record) :
    Remembers users (c.execute users).session (record ++ [c]) := by
  have husername : (c.execute users).session.username =
      if c.command = .user ∧ users.usernameIsKnown c.args = true then c.args
      else (login users record).1 := by
    rw [← h.username]
    exact executeCommand_username c.outcomes users c.session c.line
  have hlogin := c.loggedIn_iff users
  rw [h.username] at hlogin
  have hexists : (∃ p ∈ record ++ [c], p.LoggedIn users) ↔
      (login users record).2 = true ∨ c.LoggedIn users := by
    simp only [← h.password, List.mem_append, List.mem_singleton, or_and_right, exists_or,
      exists_eq_left]
  refine ⟨?_, ?_⟩
  · rw [husername, login_concat]
    split
    · rfl
    · split <;> rfl
  · rw [hexists, hlogin, login_concat]
    split
    · rename_i huser
      simp [huser.1]
    · split
      · rename_i hpass
        simp [hpass]
      · rename_i hpass
        rw [or_iff_left hpass]

variable {users : UsersDB} {outcomes : ℕ → Outcomes} {dataPort : UInt16} {rootDir : Bytes}
  {w : Worker} {record : List Call}

/-- In a run each command that has an effect on the file system comes behind a PASS that was
answered with 230 exactly when each one that finds what it needs comes behind the password of
the username that USER stored. -/
theorem login_needed_iff (hrun : Run users outcomes dataPort rootDir w record) :
    Along (fun before c => (c.execute users).HasEffect → ∃ p ∈ before, p.LoggedIn users) record ↔
      Along (fun before c => c.Reaches → (login users before).2 = true) record := by
  have hstart : Remembers users (.start dataPort rootDir) [] := ⟨rfl, by simp [login]⟩
  have hall := hrun.along hstart Remembers.step
  refine forall₄_congr fun before c after heq => ?_
  dsimp only
  rw [c.effect_iff, (hall before c after heq).password]

def oneUser : UsersDB := fun name => if name = chars "u" then some (chars "p") else none

/-- A session of the user of `oneUser`. -/
def visit (arrivals : List Arrival) : Worker × List Call :=
  (Worker.start 10020 (chars "/home")).work oneUser (fun _ => { disk := homeDisk }) arrivals

def loginArrivals : List Arrival :=
  [.received (chars "USER u\r\n"), .received (chars "PASS p\r\n"), .received (chars "MKD d\r\n")]

theorem login_needed_mkd :
    Along (fun before c => (c.execute oneUser).HasEffect → ∃ p ∈ before, p.LoggedIn oneUser)
      (visit loginArrivals).2 :=
  (login_needed_iff (Worker.work_run loginArrivals)).mpr (AlongFrom.along (by decide +kernel))

/-- A directory is made in a session that never saw a PASS. -/
theorem effect_without_login : ∃ (w : Worker) (record : List Call),
    Run oneUser (fun _ => { disk := homeDisk }) 10020 (chars "/home") w record ∧
    (∀ p ∈ record, ¬ p.LoggedIn oneUser) ∧
    ∃ c ∈ record, c.line = chars "MKD d" ∧ (c.execute oneUser).HasEffect :=
  ⟨(visit (loginArrivals.drop 2)).1, (visit (loginArrivals.drop 2)).2, Worker.work_run _,
    by decide +kernel⟩

end Ftp
end NetworkProtocols
