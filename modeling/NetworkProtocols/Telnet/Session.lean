import NetworkProtocols.Lib.Bytes
import NetworkProtocols.Lib.Transition

/-!
# The Telnet session

`TelnetSession` of the server. One operation is under way at a time: first the three writes of
`start`, then a read, whose handler starts the next one. The handlers look at the bytes that
were read and at none behind them. The log is left out.
-/

namespace NetworkProtocols
namespace Telnet

open Bytes

def NUL : Byte := 0
def BackSpace : Byte := 8
def LineFeed : Byte := 10
def CarriageReturn : Byte := 13
def ESC : Byte := 0x1B

def WILL : Byte := 251
def DO : Byte := 253
def DONT : Byte := 254
def IAC : Byte := 255

def Echo : Byte := 1
def SuppressGoAhead : Byte := 3

def maxHistoryLength : ℕ := 80

/-- `isprint` in the C locale. -/
def isprint (b : Byte) : Bool := 0x20 ≤ b && b ≤ 0x7E

inductive State
  | negotiation | authentication | interaction
  deriving DecidableEq

/-- The operation under way; none once one has failed. -/
inductive Pending
  | willEcho | dontEcho | willSuppressGoAhead | receive | none
  deriving DecidableEq

/-- `sent` is what was passed to the socket, `lines` what `_lineCompleteCB` was called with. -/
structure TelnetSession where
  pending : Pending := .none
  lineCompleteCB : Bool := true
  username : Bytes := []
  password : Bytes := []
  state : State := .negotiation
  optionsToConfirm : List Byte := []
  buffer : Bytes := []
  history : List Bytes := []
  historyPos : ℕ := 0
  sent : List Bytes := []
  lines : List Bytes := []
  deriving DecidableEq

/-- The loop over a read in `Negotiation`. -/
def removeConfirmed : Bytes → List Byte → List Byte
  | [], options => options
  | [_], options => options
  | b :: x :: rest, options =>
    if b = DO then removeConfirmed rest (if x ≠ IAC then options.filter (x ≠ ·) else options)
    else removeConfirmed (x :: rest) options

def eraseLine : Bytes := chars "\x1B[2K"
def home : Bytes := chars "\x1B[80D"

def arrowUp : Bytes := [ESC, 0x5B, 0x41]
def arrowDown : Bytes := [ESC, 0x5B, 0x42]
def arrowRight : Bytes := [ESC, 0x5B, 0x43]
def arrowLeft : Bytes := [ESC, 0x5B, 0x44]

namespace TelnetSession

/-- What becomes of the write is not looked at. -/
def send (data : Bytes) (s : TelnetSession) : TelnetSession :=
  { s with sent := s.sent ++ [data] }

def sendLine (line : Bytes) (s : TelnetSession) : TelnetSession := s.send line

def sendEraseLine (s : TelnetSession) : TelnetSession := (s.sendLine eraseLine).sendLine home

def startAuthentication (s : TelnetSession) : TelnetSession :=
  { s with buffer := [], username := [], password := [], state := .authentication }.sendLine
    (chars "Username: ")

def startInteraction (s : TelnetSession) : TelnetSession :=
  { s with buffer := [], state := .interaction }

def authorize (s : TelnetSession) : Bool :=
  s.username == chars "testuser" && s.password == chars "testpassword"

def addToHistory (line : Bytes) (s : TelnetSession) : TelnetSession :=
  let it := s.history.idxOf line
  if it = s.history.length then
    let history := s.history ++ [line]
    let history := if history.length > maxHistoryLength then history.tail else history
    { s with history := history, historyPos := history.length - 1 }
  else { s with historyPos := it }

/-- `_buffer = _history[_historyPos]` with what is sent of it. A position behind the last entry
would be read outside of the vector. -/
def showEntry (s : TelnetSession) : TelnetSession :=
  let s := { s with buffer := s.history.getD s.historyPos [] }
  s.sendEraseLine.sendLine s.buffer

def processEscapeSequence (escSequence : Bytes) (s : TelnetSession) : TelnetSession :=
  if escSequence = arrowLeft then s
  else if escSequence = arrowRight then s
  else if escSequence = arrowDown then
    if s.history.length > 1 then
      showEntry { s with historyPos :=
        if s.historyPos ≠ s.history.length - 1 then s.historyPos + 1 else 0 }
    else s
  else if escSequence = arrowUp then
    if s.history.length > 1 then
      showEntry { s with historyPos :=
        if s.historyPos ≠ 0 then s.historyPos - 1 else s.history.length - 1 }
    else s
  else s

def negotiate (data : Bytes) (s : TelnetSession) : TelnetSession :=
  let s := { s with optionsToConfirm := removeConfirmed data s.optionsToConfirm }
  if s.optionsToConfirm = [] then s.startAuthentication else s

/-- The end of a line in `Authentication`. -/
def enterLine (s : TelnetSession) : TelnetSession :=
  let s := s.send [CarriageReturn, LineFeed]
  if s.username = [] then
    { s with username := s.buffer, buffer := [] }.sendLine (chars "Password: ")
  else
    let s := { s with password := s.buffer, buffer := [] }
    if s.authorize then s.startInteraction else s.startAuthentication

def authenticate (data : Bytes) (s : TelnetSession) : TelnetSession :=
  match data with
  | [b] => if isprint b then { s with buffer := s.buffer ++ [b] }.send (chars "*") else s
  | [b, b'] => if b = CarriageReturn ∧ b' = NUL then s.enterLine else s
  | _ => s

/-- The end of a line in `Interaction`. -/
def completeLine (s : TelnetSession) : TelnetSession :=
  let s := if s.lineCompleteCB then { s with lines := s.lines ++ [s.buffer] } else s
  { s.addToHistory s.buffer with buffer := [] }.sendEraseLine

def eraseLast (s : TelnetSession) : TelnetSession :=
  let s := { s with buffer := s.buffer.dropLast }
  s.sendEraseLine.sendLine s.buffer

def interact (data : Bytes) (s : TelnetSession) : TelnetSession :=
  match data with
  | [b] =>
    if isprint b then { s with buffer := s.buffer ++ [b] }.send [b]
    else if b = BackSpace then s.eraseLast
    else s
  | [b, b'] => if b = CarriageReturn ∧ b' = NUL then s.completeLine else s
  | [b, _, _] => if b = ESC then s.processEscapeSequence data else s
  | _ => s

/-- The handler of a read that succeeds, up to the next read. -/
def received (data : Bytes) (s : TelnetSession) : TelnetSession :=
  if data = [] then s
  else match s.state with
    | .negotiation => s.negotiate data
    | .authentication => s.authenticate data
    | .interaction => s.interact data

def start (s : TelnetSession) : TelnetSession :=
  { s with optionsToConfirm := s.optionsToConfirm ++ [Echo, SuppressGoAhead],
           pending := .willEcho }.send [IAC, WILL, Echo]

end TelnetSession

inductive Event
  | written | read (data : Bytes) | error
  deriving DecidableEq

/-- The handler of the operation that completed. -/
inductive Step : TelnetSession → Event → TelnetSession → Prop
  | willEcho {s} : s.pending = .willEcho →
      Step s .written ({ s with pending := .dontEcho }.send [IAC, DONT, Echo])
  | dontEcho {s} : s.pending = .dontEcho →
      Step s .written ({ s with pending := .willSuppressGoAhead }.send [IAC, WILL, SuppressGoAhead])
  | willSuppressGoAhead {s} : s.pending = .willSuppressGoAhead →
      Step s .written { s with pending := .receive }
  | read {s data} : s.pending = .receive → Step s (.read data) (s.received data)
  | error {s} : s.pending ≠ .none → Step s .error { s with pending := .none }

def TelnetSession.feed (s : TelnetSession) (reads : List Bytes) : TelnetSession :=
  reads.foldl (fun s data => s.received data) s

def started (lineCompleteCB : Bool) : TelnetSession :=
  TelnetSession.start { lineCompleteCB := lineCompleteCB }

/-- The session behind the writes of `start`, with its first read under way. -/
def listening (lineCompleteCB : Bool) : TelnetSession :=
  { started lineCompleteCB with
    pending := .receive
    sent := [[IAC, WILL, Echo], [IAC, DONT, Echo], [IAC, WILL, SuppressGoAhead]] }

theorem started_listening (lineCompleteCB : Bool) : ∃ s t,
    Step (started lineCompleteCB) .written s ∧ Step s .written t ∧
      Step t .written (listening lineCompleteCB) :=
  ⟨_, _, .willEcho rfl, .dontEcho rfl, .willSuppressGoAhead rfl⟩

namespace TelnetSession

variable (s : TelnetSession) (data : Bytes)

theorem processEscapeSequence_eq : ∃ buffer historyPos sent,
    s.processEscapeSequence data =
      { s with buffer := buffer, historyPos := historyPos, sent := sent } := by
  unfold processEscapeSequence
  split
  · exact ⟨_, _, _, rfl⟩
  split
  · exact ⟨_, _, _, rfl⟩
  split
  · split <;> exact ⟨_, _, _, rfl⟩
  split
  · split <;> exact ⟨_, _, _, rfl⟩
  · exact ⟨_, _, _, rfl⟩

theorem completeLine_eq : ∃ history historyPos sent lines, s.completeLine =
    { s with
      buffer := []
      history := history
      historyPos := historyPos
      sent := sent
      lines := lines } := by
  unfold completeLine addToHistory
  dsimp only
  split
  · split <;> exact ⟨_, _, _, _, rfl⟩
  · split <;> exact ⟨_, _, _, _, rfl⟩

/-- A read in `Interaction` changes the line and the history. -/
theorem interact_eq : ∃ buffer history historyPos sent lines, s.interact data =
    { s with
      buffer := buffer
      history := history
      historyPos := historyPos
      sent := sent
      lines := lines } := by
  unfold interact
  split
  · split
    · exact ⟨_, _, _, _, _, rfl⟩
    · split <;> exact ⟨_, _, _, _, _, rfl⟩
  · split
    · obtain ⟨history, historyPos, sent, lines, heq⟩ := s.completeLine_eq
      exact ⟨_, _, _, _, _, heq⟩
    · exact ⟨_, _, _, _, _, rfl⟩
  · rename_i b b' b''
    split
    · obtain ⟨buffer, historyPos, sent, heq⟩ := s.processEscapeSequence_eq [b, b', b'']
      exact ⟨_, _, _, _, _, heq⟩
    · exact ⟨_, _, _, _, _, rfl⟩
  · exact ⟨_, _, _, _, _, rfl⟩

/-- A read in `Authentication` changes the state and what is typed. -/
theorem authenticate_eq : ∃ username password state buffer sent, s.authenticate data =
    { s with
      username := username
      password := password
      state := state
      buffer := buffer
      sent := sent } := by
  unfold authenticate
  split
  · split <;> exact ⟨_, _, _, _, _, rfl⟩
  · split
    · unfold enterLine
      dsimp only
      split
      · exact ⟨_, _, _, _, _, rfl⟩
      · split <;> exact ⟨_, _, _, _, _, rfl⟩
    · exact ⟨_, _, _, _, _, rfl⟩
  · exact ⟨_, _, _, _, _, rfl⟩

theorem negotiate_eq : ∃ username password state options buffer sent, s.negotiate data =
    { s with
      username := username
      password := password
      state := state
      optionsToConfirm := options
      buffer := buffer
      sent := sent } := by
  unfold negotiate
  dsimp only
  split <;> exact ⟨_, _, _, _, _, _, rfl⟩

theorem received_pending : (s.received data).pending = s.pending := by
  unfold received
  split
  · rfl
  split
  · obtain ⟨_, _, _, _, _, _, heq⟩ := s.negotiate_eq data
    rw [heq]
  · obtain ⟨_, _, _, _, _, heq⟩ := s.authenticate_eq data
    rw [heq]
  · obtain ⟨_, _, _, _, _, heq⟩ := s.interact_eq data
    rw [heq]

end TelnetSession

section Recorded

open Relation Transition

variable {O : Type*} {note : TelnetSession → Event → Option O} {lineCompleteCB : Bool}
  {s : TelnetSession} {record : List O}

/-- A run of a session that was just started, with what is noted of its events. -/
def RecordedRun (note : TelnetSession → Event → Option O) (lineCompleteCB : Bool)
    (s : TelnetSession) (record : List O) : Prop :=
  ReflTransGen (Recorded Step note) (started lineCompleteCB, []) (s, record)

theorem RecordedRun.invariant {P : List O → TelnetSession → Prop}
    (hrun : RecordedRun note lineCompleteCB s record) (hstart : P [] (started lineCompleteCB))
    (hstep : ∀ record s e t, P record s → Step s e t → P (record ++ (note s e).toList) t) :
    P record s := by
  have hkeeps : ∀ p q : TelnetSession × List O, P p.2 p.1 → Recorded Step note p q →
      P q.2 q.1 := by
    intro p q hp hst
    cases hst with
    | step hst => exact hstep _ _ _ _ hp hst
  exact Transition.invariant hkeeps hstart hrun

def noted (note : TelnetSession → Event → Option O) : TelnetSession → List Bytes → List O
  | _, [] => []
  | s, data :: reads => (note s (.read data)).toList ++ noted note (s.received data) reads

theorem RecordedRun.feed (hrun : RecordedRun note lineCompleteCB s record)
    (hpending : s.pending = .receive) (reads : List Bytes) :
    RecordedRun note lineCompleteCB (s.feed reads) (record ++ noted note s reads) := by
  induction reads generalizing s record with
  | nil =>
    rw [noted, List.append_nil]
    exact hrun
  | cons data reads ih =>
    have hrest := ih (hrun.tail (.step (.read hpending)))
      ((s.received_pending data).trans hpending)
    rw [List.append_assoc] at hrest
    exact hrest

theorem RecordedRun.reads (hwritten : ∀ s, note s .written = none) (lineCompleteCB : Bool)
    (reads : List Bytes) : RecordedRun note lineCompleteCB ((listening lineCompleteCB).feed reads)
      (noted note (listening lineCompleteCB) reads) := by
  obtain ⟨s, t, hs, ht, hlast⟩ := started_listening lineCompleteCB
  have hrun : ReflTransGen (Recorded Step note) (started lineCompleteCB, [])
      (listening lineCompleteCB, (([] ++ (note (started lineCompleteCB) .written).toList) ++
        (note s .written).toList) ++ (note t .written).toList) :=
    ((ReflTransGen.refl.tail (.step hs)).tail (.step ht)).tail (.step hlast)
  rw [hwritten, hwritten, hwritten] at hrun
  exact RecordedRun.feed hrun rfl reads

end Recorded

end Telnet
end NetworkProtocols
