import NetworkProtocols.Ftp.Changes
import NetworkProtocols.Ftp.Worker

/-!
# The lines that are executed

The worker executes the lines of the stream in order, unless more than one line comes with a
read: each turn of its loop has a stream buffer of its own, and what is behind the line in it is
lost.
-/

namespace NetworkProtocols
namespace Ftp

open Bytes Lines

def isQuit (line : Bytes) : Bool := (parseCommand line).1 == .quit

section Turns

variable (users : UsersDB) (outcomes : ℕ → Outcomes)

/-- What the worker keeps from turn to turn, if nothing is left in its buffer: the number of
commands executed, the session, and whether the loop goes on. -/
abbrev Turns := ℕ × FTPSession × Bool

def Worker.turns (w : Worker) : Turns := (w.executed, w.session, w.ctrlSocket)

def Turns.next (t : Turns) (line : Bytes) : Turns :=
  let x := executeCommand (outcomes t.1) users line (.start t.2.1 (outcomes t.1).disk)
  (t.1 + 1, x.session, x.fault.isNone && !x.session.quitCmdLoop)

def Turns.over (t : Turns) : Bool := !t.2.2

variable {users outcomes}

theorem work_failed (w : Worker) (failures : List ℤ) :
    (w.work users outcomes (failures.map .failed)).2 = [] := by
  induction failures generalizing w with
  | nil => rfl
  | cons value failures ih =>
    have hcall : (w.receive users outcomes (.failed value)).2 = none := by
      cases hopen : w.ctrlSocket <;> simp [Worker.receive, hopen]
    rw [List.map_cons, Worker.work_cons, hcall, ih]
    rfl

theorem work_closed {w : Worker} (h : w.ctrlSocket = false) (arrivals : List Arrival) :
    (w.work users outcomes arrivals).2 = [] := by
  have hreceive : ∀ arrival, w.receive users outcomes arrival = (w, none) := by
    intro arrival
    cases arrival <;> simp [Worker.receive, h]
  induction arrivals with
  | nil => rfl
  | cons arrival arrivals ih =>
    rw [Worker.work_cons, hreceive, ih]
    rfl

theorem receive_incomplete {w : Worker} {bytes : Bytes} (h : w.ctrlSocket = true)
    (hcut : cut (w.sb ++ bytes) = none) :
    w.receive users outcomes (.received bytes) = ({ w with sb := w.sb ++ bytes }, none) := by
  simp [Worker.receive, h, hcut]

theorem receive_line {w : Worker} {bytes line rest : Bytes} (h : w.ctrlSocket = true)
    (hcut : cut (w.sb ++ bytes) = some (line, rest)) :
    (w.receive users outcomes (.received bytes)).2 = some (w.call outcomes line) ∧
    (w.receive users outcomes (.received bytes)).1.turns = w.turns.next users outcomes line ∧
    (w.receive users outcomes (.received bytes)).1.position =
      w.position + (w.sb ++ bytes).length ∧
    (w.receive users outcomes (.received bytes)).1.sb = [] := by
  simp [Worker.receive, h, hcut, Worker.turns, Turns.next, Worker.call, Call.execute]

/-- The worker executes the lines that a loop with a buffer for each line reads. -/
theorem work_calls (w : Worker) (h : w.ctrlSocket = true) (segments : List Bytes)
    (failures : List ℤ) :
    ((w.work users outcomes (segments.map .received ++ failures.map .failed)).2.map
      fun c => (c.position, c.line)) =
        readEach (Turns.next users outcomes) Turns.over w.turns w.position w.sb segments := by
  induction segments generalizing w with
  | nil =>
    rw [List.map_nil, List.nil_append, work_failed]
    rfl
  | cons segment segments ih =>
    rw [List.map_cons, List.cons_append, Worker.work_cons, readEach]
    cases hcut : cut (w.sb ++ segment) with
    | none =>
      rw [receive_incomplete h hcut]
      exact ih _ h
    | some parts =>
      obtain ⟨line, rest⟩ := parts
      obtain ⟨hcall, hturns, hposition, hsb⟩ := @receive_line users outcomes _ _ _ _ h hcut
      dsimp only
      rw [hcall, Option.toList_some, List.singleton_append, List.map_cons, ← hturns, ← hposition]
      refine congrArg _ ?_
      split
      · rename_i hover
        rw [work_closed]
        · rfl
        · rwa [Turns.over, Bool.not_eq_true', Worker.turns] at hover
      · rename_i hgoes
        rw [Turns.over, Bool.not_eq_true', Bool.not_eq_false, Worker.turns] at hgoes
        rw [ih _ hgoes, hsb]

/-- No command in front of the last is left by an exception. -/
def NoneThrows (users : UsersDB) (outcomes : ℕ → Outcomes) : ℕ → FTPSession → List Bytes → Prop
  | n, s, line :: next :: lines =>
    ¬ Throws (outcomes n) users s (parseCommand line).2 (parseCommand line).1 ∧
      NoneThrows users outcomes (n + 1)
        (executeCommand (outcomes n) users line (.start s (outcomes n).disk)).session
        (next :: lines)
  | _, _, _ => True

/-- A command that is no QUIT ends the loop by an exception only. -/
theorem continues_iff {t : Turns} {lines : List Bytes} (hquit : t.2.1.quitCmdLoop = false)
    (hlines : ∀ line ∈ lines.dropLast, isQuit line = false) :
    Continues (Turns.next users outcomes) Turns.over t lines ↔
      NoneThrows users outcomes t.1 t.2.1 lines := by
  induction lines generalizing t with
  | nil => exact Iff.rfl
  | cons line lines ih =>
    cases lines with
    | nil => exact Iff.rfl
    | cons next lines =>
      rw [List.dropLast_cons_of_ne_nil (List.cons_ne_nil _ _), List.forall_mem_cons] at hlines
      have hgoes : (t.next users outcomes line).2.1.quitCmdLoop = false := by
        have hsession := executeCommand_quit (outcomes t.1) users t.2.1 line
        rw [hquit, Bool.false_or] at hsession
        exact hsession.trans hlines.1
      have hfault := (executeCommand_accounted (outcomes t.1) users t.2.1 line).fault
      rw [Continues, NoneThrows, ih hgoes hlines.2]
      refine and_congr_left' ?_
      rw [← hfault, not_not]
      have hover : (t.next users outcomes line).over =
          (executeCommand (outcomes t.1) users line
            (.start t.2.1 (outcomes t.1).disk)).fault.isSome := by
        have hquit' : (executeCommand (outcomes t.1) users line
            (.start t.2.1 (outcomes t.1).disk)).session.quitCmdLoop = false := hgoes
        simp [Turns.over, Turns.next, hquit']
      rw [hover, Option.isSome_eq_false_iff, Option.isNone_iff_eq_none]

end Turns

/-- The calls of `executeCommand` on a stream that comes in segments and ends with errors, each
with the position of its line. -/
def executed (users : UsersDB) (outcomes : ℕ → Outcomes) (dataPort : UInt16) (rootDir : Bytes)
    (segments : List Bytes) (failures : List ℤ) : List (ℕ × Bytes) :=
  ((Worker.start dataPort rootDir).work users outcomes
    (segments.map .received ++ failures.map .failed)).2.map fun c => (c.position, c.line)

def commandLines (segments : List Bytes) : List (ℕ × Bytes) := lines isQuit 0 segments.flatten

/-- `executeCommand` is called for each line up to QUIT exactly when each line in front of the
last ends with its segment, and no exception leaves its command. -/
theorem lines_executed_iff (users : UsersDB) (outcomes : ℕ → Outcomes) (dataPort : UInt16)
    (rootDir : Bytes) (segments : List Bytes) (failures : List ℤ) :
    executed users outcomes dataPort rootDir segments failures = commandLines segments ↔
      (∀ l ∈ (commandLines segments).dropLast, lineEnd l ∈ boundaries 0 segments) ∧
      NoneThrows users outcomes 0 (.start dataPort rootDir)
        ((commandLines segments).map Prod.snd) := by
  have hquit : ∀ (t : Turns) (line : Bytes), isQuit line = true →
      (t.next users outcomes line).over = true := by
    intro t line hline
    have hsession := executeCommand_quit (outcomes t.1) users t.2.1 line
    rw [show ((parseCommand line).1 == .quit) = true from hline, Bool.or_true] at hsession
    simp [Turns.over, Turns.next, hsession]
  have hread := readEach_eq_lines_iff (Turns.next users outcomes) Turns.over isQuit hquit
    (Worker.start dataPort rootDir).turns 0 cut_nil segments
  have hlines : ∀ line ∈ ((commandLines segments).map Prod.snd).dropLast,
      isQuit line = false := by
    rw [← List.map_dropLast]
    intro line hline
    obtain ⟨l, hl, rfl⟩ := List.mem_map.mp hline
    exact last_of_mem_dropLast isQuit hl
  rw [List.nil_append, List.length_nil, Nat.add_zero] at hread
  rw [executed, work_calls _ rfl, commandLines]
  exact hread.trans (and_congr_right' (continues_iff rfl hlines))

/-- Two commands in one segment: the second is not executed. -/
theorem pipelined_line_lost :
    commandLines [chars "SYST\r\nQUIT\r\n"] = [(0, chars "SYST"), (6, chars "QUIT")] ∧
    executed (fun _ => none) (fun _ => { disk := homeDisk }) 10020 (chars "/home")
      [chars "SYST\r\nQUIT\r\n"] [endOfFile] = [(0, chars "SYST")] := by
  decide +kernel

end Ftp
end NetworkProtocols
