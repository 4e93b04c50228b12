import NetworkProtocols.Ftp.Commands
import NetworkProtocols.Lib.Lines
import NetworkProtocols.Lib.Transition

/-!
# The worker of a session

The loop of `FTPSession::worker`, fed with what arrives on the control connection. The calls of
`executeCommand` are put on record.
-/

namespace NetworkProtocols
namespace Ftp

open Bytes Relation Transition

/-- The result of a read on the control socket: bytes, or an error with its value. -/
inductive Arrival
  | received (bytes : Bytes)
  | failed (value : ℤ)
  deriving DecidableEq

/-- The value of `asio::error::eof`. -/
def endOfFile : ℤ := 2

/-- A call of `executeCommand`, with the position of the line in the stream of the connection. -/
structure Call where
  position : ℕ
  line : Bytes
  session : FTPSession
  outcomes : Outcomes

/-- The worker in `read_until`: `sb` has what came since the turn began, `position` is where
that begins in the stream. The loop is left once the control socket is closed. -/
structure Worker where
  session : FTPSession
  executed : ℕ := 0
  position : ℕ := 0
  sb : Bytes := []
  replies : List Bytes := [chars "220 myhost.mydomain FTP-server (version 1.0) ready"]
  ctrlSocket : Bool := true

def Call.execute (users : UsersDB) (c : Call) : Execution :=
  executeCommand c.outcomes users c.line (.start c.session c.outcomes.disk)

namespace Worker

def start (dataPort : UInt16) (rootDir : Bytes) : Worker where
  session := .start dataPort rootDir

section Receive

variable (users : UsersDB) (outcomes : ℕ → Outcomes)

def call (w : Worker) (cmd : Bytes) : Call := ⟨w.position, cmd, w.session, outcomes w.executed⟩

/-- The stream buffer belongs to one turn of the loop: what is behind the line is dropped with
it, and so is what came in front of an error. -/
def receive (w : Worker) : Arrival → Worker × Option Call
  | .received bytes =>
    if !w.ctrlSocket then (w, none)
    else match Lines.cut (w.sb ++ bytes) with
      | none => ({ w with sb := w.sb ++ bytes }, none)
      | some (cmd, _) =>
        let x := (w.call outcomes cmd).execute users
        ({ w with
          session := x.session
          executed := w.executed + 1
          position := w.position + (w.sb ++ bytes).length
          sb := []
          replies := w.replies ++ x.replies
          ctrlSocket := x.fault.isNone && !x.session.quitCmdLoop }, some (w.call outcomes cmd))
  | .failed value =>
    if !w.ctrlSocket then (w, none)
    else ({ w with
      position := w.position + w.sb.length
      sb := []
      ctrlSocket := value ≠ endOfFile }, none)

/-- The worker on all that arrives, with its calls. -/
def work (w : Worker) : List Arrival → Worker × List Call
  | [] => (w, [])
  | arrival :: arrivals =>
    let (next, call) := w.receive users outcomes arrival
    let (last, calls) := next.work arrivals
    (last, call.toList ++ calls)

def Step (w : Worker) (arrival : Arrival) (w' : Worker) : Prop :=
  w' = (w.receive users outcomes arrival).1

def note (w : Worker) (arrival : Arrival) : Option Call := (w.receive users outcomes arrival).2

end Receive

end Worker

/-- A run of a session from its start, with its record. -/
abbrev Run (users : UsersDB) (outcomes : ℕ → Outcomes) (dataPort : UInt16) (rootDir : Bytes)
    (w : Worker) (record : List Call) : Prop :=
  ReflTransGen (Recorded (Worker.Step users outcomes) (Worker.note users outcomes))
    (Worker.start dataPort rootDir, []) (w, record)

variable {users : UsersDB} {outcomes : ℕ → Outcomes}

theorem Worker.work_cons (w : Worker) (arrival : Arrival) (arrivals : List Arrival) :
    (w.work users outcomes (arrival :: arrivals)).2 =
      (w.receive users outcomes arrival).2.toList ++
        ((w.receive users outcomes arrival).1.work users outcomes arrivals).2 := rfl

/-- What arrives makes a run. -/
theorem Worker.work_run {dataPort : UInt16} {rootDir : Bytes} (arrivals : List Arrival) :
    Run users outcomes dataPort rootDir
      ((Worker.start dataPort rootDir).work users outcomes arrivals).1
      ((Worker.start dataPort rootDir).work users outcomes arrivals).2 := by
  have hall : ∀ (w : Worker) (record : List Call),
      ReflTransGen (Recorded (Worker.Step users outcomes) (Worker.note users outcomes))
        (w, record) ((w.work users outcomes arrivals).1,
          record ++ (w.work users outcomes arrivals).2) := by
    induction arrivals with
    | nil =>
      intro w record
      rw [work, List.append_nil]
    | cons arrival arrivals ih =>
      intro w record
      have hstep : Recorded (Worker.Step users outcomes) (Worker.note users outcomes) (w, record)
          ((w.receive users outcomes arrival).1,
            record ++ (w.note users outcomes arrival).toList) := .step rfl
      have hrest := ih (w.receive users outcomes arrival).1
        (record ++ (w.note users outcomes arrival).toList)
      rw [List.append_assoc] at hrest
      exact .head hstep hrest
  exact hall _ []

/-- A result of a read brings one command or none. -/
theorem Worker.receive_cases (users : UsersDB) (outcomes : ℕ → Outcomes) (w : Worker)
    (arrival : Arrival) :
    (w.note users outcomes arrival = none ∧
      (w.receive users outcomes arrival).1.session = w.session) ∨
    ∃ line, w.note users outcomes arrival = some (w.call outcomes line) ∧
      (w.receive users outcomes arrival).1.session =
        ((w.call outcomes line).execute users).session := by
  unfold note
  cases hopen : w.ctrlSocket with
  | false =>
    left
    cases arrival <;> simp [receive, hopen]
  | true =>
    cases arrival with
    | failed value =>
      left
      simp [receive, hopen]
    | received bytes =>
      cases hcut : Lines.cut (w.sb ++ bytes) with
      | none =>
        left
        simp [receive, hopen, hcut]
      | some parts =>
        right
        refine ⟨parts.1, ?_⟩
        simp [receive, hopen, hcut]

namespace Run

variable {dataPort : UInt16} {rootDir : Bytes} {w : Worker} {record : List Call}
  {Inv : FTPSession → List Call → Prop}

theorem invariant (hstart : Inv (.start dataPort rootDir) [])
    (hstep : ∀ record c, Inv c.session record → Inv (c.execute users).session (record ++ [c]))
    (hrun : Run users outcomes dataPort rootDir w record) : Inv w.session record := by
  refine @Transition.invariant _ (Recorded (Worker.Step users outcomes)
    (Worker.note users outcomes)) (fun p => Inv p.1.session p.2) ?_ _ (w, record) hstart hrun
  rintro ⟨w, record⟩ _ hinv ⟨rfl⟩
  rename_i arrival
  rcases w.receive_cases users outcomes arrival with
    ⟨hnote, hsession⟩ | ⟨line, hnote, hsession⟩
  · rw [hnote, hsession, Option.toList_none, List.append_nil]
    exact hinv
  · rw [hnote, hsession, Option.toList_some]
    exact hstep record (w.call outcomes line) hinv

theorem entry {before after : List Call} {c : Call}
    (hrun : Run users outcomes dataPort rootDir w (before ++ c :: after)) :
    ∃ t : Worker, Run users outcomes dataPort rootDir t before ∧ c.session = t.session := by
  obtain ⟨t, arrival, u, hbefore, -, hnote⟩ := Recorded.entry hrun
  refine ⟨t, hbefore, ?_⟩
  rcases t.receive_cases users outcomes arrival with
    ⟨hnone, -⟩ | ⟨line, hcall, -⟩
  · rw [hnone] at hnote
    cases hnote
  · rw [← Option.some.inj (hcall.symm.trans hnote)]
    rfl

/-- An invariant holds at every call, of the session that the command finds. -/
theorem along (hstart : Inv (.start dataPort rootDir) [])
    (hstep : ∀ record c, Inv c.session record → Inv (c.execute users).session (record ++ [c]))
    (hrun : Run users outcomes dataPort rootDir w record) :
    Along (fun before c => Inv c.session before) record := by
  rintro before c after rfl
  obtain ⟨t, hbefore, hsession⟩ := hrun.entry
  rw [hsession]
  exact invariant hstart hstep hbefore

end Run

end Ftp
end NetworkProtocols
