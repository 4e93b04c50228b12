import NetworkProtocols.Ftp.Login

/-!
# The end of a session

The loop of the worker is left at the one error value that stands for the end of the file, by QUIT
and by an exception. Any other error is reported, and the next turn begins.
-/

namespace NetworkProtocols
namespace Ftp

open Bytes

namespace Call

/-- The command is QUIT, or an exception leaves it. -/
def EndsLoop (users : UsersDB) (c : Call) : Prop :=
  c.command = .quit ∨ Throws c.outcomes users c.session c.args c.command

theorem endsLoop_iff (users : UsersDB) {c : Call} (h : c.session.quitCmdLoop = false) :
    c.EndsLoop users ↔ ((c.execute users).fault.isNone &&
      !(c.execute users).session.quitCmdLoop) = false := by
  have hfault : (c.execute users).fault ≠ none ↔
      Throws c.outcomes users c.session c.args c.command :=
    (executeCommand_accounted c.outcomes users c.session c.line).fault
  have hquit : (c.execute users).session.quitCmdLoop = (c.session.quitCmdLoop ||
      c.command == .quit) := executeCommand_quit c.outcomes users c.session c.line
  rw [EndsLoop, ← hfault, hquit, h, Bool.false_or, Bool.and_eq_false_iff, Bool.not_eq_false',
    beq_iff_eq, or_comm, ← Bool.not_eq_true, Option.isNone_iff_eq_none]

end Call

namespace Worker

variable (users : UsersDB) (outcomes : ℕ → Outcomes)

def behind (results : ℕ → Arrival) (w : Worker) : ℕ → Worker
  | 0 => w
  | n + 1 => ((w.behind results n).receive users outcomes (results n)).1

/-- The loop goes on only while no QUIT was read. -/
def Goes (w : Worker) : Prop := w.ctrlSocket = true → w.session.quitCmdLoop = false

theorem receive_ends {w : Worker} (hopen : w.ctrlSocket = true)
    (hquit : w.session.quitCmdLoop = false) (arrival : Arrival) :
    (w.receive users outcomes arrival).1.ctrlSocket = false ↔ arrival = .failed endOfFile ∨
      ∃ c, w.note users outcomes arrival = some c ∧ c.EndsLoop users := by
  unfold note
  cases arrival with
  | failed value => simp [receive, hopen]
  | received bytes =>
    cases hcut : Lines.cut (w.sb ++ bytes) with
    | none => simp [receive, hopen, hcut]
    | some parts =>
      have hends := (w.call outcomes parts.1).endsLoop_iff users hquit
      simp [receive, hopen, hcut, hends]

theorem Goes.receive {w : Worker} (h : w.Goes) (arrival : Arrival) :
    (w.receive users outcomes arrival).1.Goes := by
  intro hopen
  cases hsocket : w.ctrlSocket with
  | false =>
    exfalso
    cases arrival <;> simp [Worker.receive, hsocket] at hopen
  | true =>
    rcases w.receive_cases users outcomes arrival with ⟨-, hsession⟩ | ⟨line, hnote, hsession⟩
    · rw [hsession]
      exact h hsocket
    · have hends := (receive_ends users outcomes hsocket (h hsocket) arrival).not
      rw [hopen] at hends
      have hnot : ¬ (w.call outcomes line).EndsLoop users :=
        fun hend => hends.mp (by decide) (.inr ⟨_, hnote, hend⟩)
      rw [Call.endsLoop_iff users (h hsocket), Bool.not_eq_false, Bool.and_eq_true,
        Bool.not_eq_true'] at hnot
      rw [hsession]
      exact hnot.2

theorem Goes.behind {w : Worker} (h : w.Goes) (results : ℕ → Arrival) (n : ℕ) :
    (w.behind users outcomes results n).Goes := by
  induction n with
  | zero => exact h
  | succ n ih => exact ih.receive users outcomes (results n)

theorem Goes.ends {w : Worker} (h : w.Goes) (results : ℕ → Arrival) (n : ℕ)
    (hopen : (w.behind users outcomes results n).ctrlSocket = true) :
    (w.behind users outcomes results (n + 1)).ctrlSocket = false ↔
      results n = .failed endOfFile ∨ ∃ c, (w.behind users outcomes results n).note users outcomes
        (results n) = some c ∧ c.EndsLoop users :=
  receive_ends users outcomes hopen (h.behind users outcomes results n hopen) (results n)

end Worker

variable {users : UsersDB} {outcomes : ℕ → Outcomes}

/-- The loop is left and the control socket closed exactly when a read ends with the value of
the end of the file, or a command ends it, whatever else the reads fail with. -/
theorem session_ends_iff (dataPort : UInt16) (rootDir : Bytes) (results : ℕ → Arrival) :
    (∃ n, ((Worker.start dataPort rootDir).behind users outcomes results n).ctrlSocket = false) ↔
      (∃ n, results n = .failed endOfFile) ∨
        ∃ n c, ((Worker.start dataPort rootDir).behind users outcomes results n).note users outcomes
          (results n) = some c ∧ c.EndsLoop users := by
  have hgoes : (Worker.start dataPort rootDir).Goes := fun _ => rfl
  have hstep := hgoes.ends users outcomes results
  have hzero : ((Worker.start dataPort rootDir).behind users outcomes results 0).ctrlSocket =
      true := rfl
  generalize (Worker.start dataPort rootDir).behind users outcomes results = w at *
  constructor
  · rintro ⟨n, hclosed⟩
    induction n with
    | zero =>
      rw [hzero] at hclosed
      cases hclosed
    | succ n ih =>
      cases hsocket : (w n).ctrlSocket with
      | false => exact ih hsocket
      | true =>
        rcases (hstep n hsocket).mp hclosed with heof | ⟨c, hc⟩
        · exact .inl ⟨n, heof⟩
        · exact .inr ⟨n, c, hc⟩
  · intro hends
    obtain ⟨n, hn⟩ : ∃ n, results n = .failed endOfFile ∨
        ∃ c, (w n).note users outcomes (results n) = some c ∧ c.EndsLoop users := by
      rcases hends with ⟨n, heof⟩ | ⟨n, c, hc⟩
      · exact ⟨n, .inl heof⟩
      · exact ⟨n, .inr ⟨c, hc⟩⟩
    cases hsocket : (w n).ctrlSocket with
    | false => exact ⟨n, hsocket⟩
    | true => exact ⟨n + 1, (hstep n hsocket).mpr hn⟩

/-- A connection that was reset keeps its session in the loop. -/
theorem reset_never_ends : ¬ ∃ n, ((Worker.start 10020 (chars "/home")).behind (fun _ => none)
    (fun _ => { disk := homeDisk }) (fun _ => .failed 104) n).ctrlSocket = false := by
  have hopen : ∀ n, ((Worker.start 10020 (chars "/home")).behind (fun _ => none)
      (fun _ => { disk := homeDisk }) (fun _ => .failed 104) n).ctrlSocket = true := by
    intro n
    induction n with
    | zero => rfl
    | succ n ih => simp [Worker.behind, Worker.receive, ih, endOfFile]
  rintro ⟨n, hclosed⟩
  rw [hopen n] at hclosed
  cases hclosed

end Ftp
end NetworkProtocols
