import NetworkProtocols.Telnet.Login

/-!
# Prompts and lines

Whether a line is the user name or the password is told by the name that is stored, and an empty
name looks as if there were none.
-/

namespace NetworkProtocols
namespace Telnet

open Bytes Relation Transition TelnetSession

inductive Prompt
  | username | password
  deriving DecidableEq

/-- The prompt that one write shows. -/
def promptOf (data : Bytes) : Option Prompt :=
  if data = chars "Username: " then some .username
  else if data = chars "Password: " then some .password
  else none

def TelnetSession.asked (s : TelnetSession) : Option Prompt :=
  (s.sent.filterMap promptOf).getLast?

theorem asked_send (data : Bytes) (s : TelnetSession) :
    (s.send data).asked = (promptOf data).or s.asked := by
  rw [asked, send, List.filterMap_append]
  cases hprompt : promptOf data with
  | none => simp [hprompt, asked]
  | some prompt => simp [hprompt]

/-- A line is completed in `Authentication`, by the session as it is noted. -/
def lineIn (s : TelnetSession) : Event → Option TelnetSession
  | .read data =>
    if s.state = .authentication ∧ data = [CarriageReturn, NUL] then some s else none
  | _ => none

abbrev PromptRun (lineCompleteCB : Bool) (s : TelnetSession) (record : List TelnetSession) : Prop :=
  RecordedRun lineIn lineCompleteCB s record

def TakenAsUsername (s : TelnetSession) : Prop :=
  let t := s.received [CarriageReturn, NUL]
  t.state = .authentication ∧ t.username = s.buffer ∧ t.asked = some .password

/-- The line is the password: it lets the user in, or the name is asked for again. -/
def TakenAsPassword (s : TelnetSession) : Prop :=
  let t := s.received [CarriageReturn, NUL]
  if { s with password := s.buffer }.authorize = true then t.state = .interaction
  else t.state = .authentication ∧ t.asked = some .username

/-- The line is what was asked for. -/
structure InStep (s : TelnetSession) : Prop where
  username : s.asked = some .username → TakenAsUsername s
  password : s.asked = some .password → TakenAsPassword s

/-- The name is empty behind the first prompt, and behind the second it is the line before. -/
structure Prompted (record : List TelnetSession) (s : TelnetSession) : Prop where
  username : s.asked = some .username → s.username = []
  password : s.asked = some .password → ∃ line ∈ record.getLast?, s.username = line.buffer

section Steps

variable {record : List TelnetSession} {s : TelnetSession}

theorem received_line (hstate : s.state = .authentication) :
    s.received [CarriageReturn, NUL] = s.enterLine := by
  unfold received
  rw [hstate]
  rfl

theorem enterLine_name (h : s.username = []) : s.enterLine.username = s.buffer ∧
    s.enterLine.state = s.state ∧ s.enterLine.asked = some .password := by
  have hname : (s.send [CarriageReturn, LineFeed]).username = [] := h
  unfold enterLine
  dsimp only
  rw [if_pos hname]
  refine ⟨rfl, rfl, ?_⟩
  rw [sendLine, asked_send]
  rfl

/-- A line behind a name that is not empty. -/
theorem enterLine_password (h : s.username ≠ []) :
    ({ s with password := s.buffer }.authorize = true ∧ s.enterLine.state = .interaction) ∨
      ({ s with password := s.buffer }.authorize = false ∧
        s.enterLine.state = .authentication ∧ s.enterLine.username = [] ∧
        s.enterLine.asked = some .username) := by
  have hname : (s.send [CarriageReturn, LineFeed]).username ≠ [] := h
  have hline : s.enterLine =
      if { s with password := s.buffer }.authorize then
        { s.send [CarriageReturn, LineFeed] with
          password := s.buffer, buffer := [] }.startInteraction
      else { s.send [CarriageReturn, LineFeed] with
          password := s.buffer, buffer := [] }.startAuthentication := by
    unfold enterLine
    dsimp only
    rw [if_neg hname]
    rfl
  rw [hline]
  cases hauthorized : { s with password := s.buffer }.authorize with
  | true => exact .inl ⟨rfl, rfl⟩
  | false =>
    right
    refine ⟨rfl, rfl, rfl, ?_⟩
    rw [if_neg Bool.false_ne_true, startAuthentication, sendLine, asked_send]
    rfl

theorem Prompted.kept {t : TelnetSession} (h : Prompted record s) (hasked : t.asked = s.asked)
    (hname : t.username = s.username) : Prompted record t :=
  ⟨fun hprompt => hname.trans (h.username (hasked.symm.trans hprompt)),
    fun hprompt => hname ▸ h.password (hasked.symm.trans hprompt)⟩

theorem Prompted.start (hasked : s.asked = some .username) (hname : s.username = []) :
    Prompted record s :=
  ⟨fun _ => hname, fun hprompt => by rw [hasked] at hprompt; cases hprompt⟩

theorem Prompted.negotiate (h : Prompted record s) (data : Bytes) :
    Prompted record (s.negotiate data) := by
  unfold TelnetSession.negotiate
  dsimp only
  split
  · refine .start ?_ rfl
    rw [startAuthentication, sendLine, asked_send]
    rfl
  · exact h.kept rfl rfl

theorem prompted_enterLine (hstate : s.enterLine.state ≠ .interaction) :
    Prompted (record ++ [s]) s.enterLine := by
  by_cases hname : s.username = []
  · obtain ⟨husername, -, hasked⟩ := enterLine_name hname
    refine ⟨fun hprompt => ?_, fun _ => ⟨s, by simp, husername⟩⟩
    rw [hasked] at hprompt
    cases hprompt
  · rcases enterLine_password hname with ⟨-, hin⟩ | ⟨-, -, husername, hasked⟩
    · exact absurd hin hstate
    · exact .start hasked husername

theorem Prompted.authenticate (h : Prompted record s) (hstate : s.state = .authentication)
    (data : Bytes) (hafter : (s.authenticate data).state ≠ .interaction) :
    Prompted (record ++ (lineIn s (.read data)).toList) (s.authenticate data) := by
  have hother : data ≠ [CarriageReturn, NUL] →
      record ++ (lineIn s (.read data)).toList = record := by
    intro hne
    simp [lineIn, hne]
  rcases data with _ | ⟨b, _ | ⟨b', _ | ⟨b'', rest⟩⟩⟩
  · rw [hother (by simp)]
    exact h
  · rw [hother (by simp), TelnetSession.authenticate]
    split
    · exact h.kept (asked_send _ _) rfl
    · exact h
  · by_cases hend : b = CarriageReturn ∧ b' = NUL
    · obtain ⟨rfl, rfl⟩ := hend
      have hline : lineIn s (.read [CarriageReturn, NUL]) = some s := if_pos ⟨hstate, rfl⟩
      rw [hline, Option.toList_some]
      exact prompted_enterLine hafter
    · rw [hother (by simpa using hend), TelnetSession.authenticate, if_neg hend]
      exact h
  · rw [hother (by simp)]
    exact h

/-- When one line is what was asked for, by the line before it. -/
theorem Prompted.inStep_iff (h : Prompted record s) (hstate : s.state = .authentication) :
    InStep s ↔ (s.asked = some .password → ∀ line ∈ record.getLast?, line.buffer ≠ []) := by
  have hreceived := received_line hstate
  constructor
  · rintro ⟨-, hpassword⟩ hasked line hline hempty
    obtain ⟨line', hline', hname⟩ := h.password hasked
    obtain rfl := Option.some.inj (hline.symm.trans hline')
    have htaken := hpassword hasked
    unfold TakenAsPassword at htaken
    dsimp only at htaken
    rw [hreceived] at htaken
    obtain ⟨-, hkept, hagain⟩ := enterLine_name (hname.trans hempty)
    split at htaken
    · rw [hkept, hstate] at htaken
      cases htaken
    · rw [hagain] at htaken
      cases htaken.2
  · intro hcondition
    refine ⟨fun hasked => ?_, fun hasked => ?_⟩
    · obtain ⟨husername, hkept, hagain⟩ := enterLine_name (h.username hasked)
      unfold TakenAsUsername
      dsimp only
      rw [hreceived]
      exact ⟨hkept.trans hstate, husername, hagain⟩
    · obtain ⟨line, hline, hname⟩ := h.password hasked
      have hne : s.username ≠ [] := hname ▸ hcondition hasked line hline
      unfold TakenAsPassword
      dsimp only
      rw [hreceived]
      rcases enterLine_password hne with ⟨hyes, hin⟩ | ⟨hno, hkept, -, hagain⟩
      · rw [if_pos hyes]
        exact hin
      · rw [if_neg (by rw [hno]; exact Bool.false_ne_true)]
        exact ⟨hkept, hagain⟩

def PromptedBefore (record : List TelnetSession) (s : TelnetSession) : Prop :=
  s.state ≠ .interaction → Prompted record s

theorem PromptedBefore.step {t : TelnetSession} {e : Event} (h : PromptedBefore record s)
    (hst : Step s e t) : PromptedBefore (record ++ (lineIn s e).toList) t := by
  intro hafter
  have hbefore := h fun hin => hafter (hst.keeps_interaction hin)
  have hwrite : ∀ (pending : Pending) (data : Bytes), promptOf data = none →
      Prompted (record ++ []) ({ s with pending := pending }.send data) := by
    intro pending data hdata
    rw [List.append_nil]
    refine hbefore.kept ?_ rfl
    rw [asked_send, hdata]
    rfl
  cases hst with
  | willEcho _ => exact hwrite _ _ (by decide)
  | dontEcho _ => exact hwrite _ _ (by decide)
  | willSuppressGoAhead _ =>
    have hline : lineIn s .written = none := rfl
    rw [hline, Option.toList_none, List.append_nil]
    exact hbefore.kept rfl rfl
  | error _ =>
    have hline : lineIn s .error = none := rfl
    rw [hline, Option.toList_none, List.append_nil]
    exact hbefore.kept rfl rfl
  | @read data _ =>
    by_cases hempty : data = []
    · subst hempty
      have hline : lineIn s (.read []) = none := by simp [lineIn]
      rw [hline, Option.toList_none, List.append_nil]
      exact hbefore
    · cases hstate : s.state with
      | negotiation =>
        have hreceived : s.received data = s.negotiate data := by
          rw [received, if_neg hempty, hstate]
        have hline : lineIn s (.read data) = none := by simp [lineIn, hstate]
        rw [hline, Option.toList_none, List.append_nil, hreceived]
        exact hbefore.negotiate data
      | authentication =>
        have hreceived : s.received data = s.authenticate data := by
          rw [received, if_neg hempty, hstate]
        rw [hreceived] at hafter ⊢
        exact hbefore.authenticate hstate data hafter
      | interaction => exact absurd (Step.keeps_interaction (.read ‹_›) hstate) hafter

end Steps

variable {lineCompleteCB : Bool} {s : TelnetSession} {record : List TelnetSession}

theorem PromptRun.prompted (hrun : PromptRun lineCompleteCB s record) :
    PromptedBefore record s := by
  have hstart : PromptedBefore [] (started lineCompleteCB) :=
    fun _ => ⟨fun hprompt => (by cases hprompt), fun hprompt => (by cases hprompt)⟩
  exact hrun.invariant hstart fun record s e t h hst => h.step hst

/-- A line is what was asked for exactly when it does not follow an empty name: behind a
password prompt it is the password if the line before is not empty, and behind a name prompt it
is the name. -/
theorem line_in_step_iff (hrun : PromptRun lineCompleteCB s record) :
    Along (fun before e => InStep e ↔
      (e.asked = some .password → ∀ line ∈ before.getLast?, line.buffer ≠ [])) record := by
  rintro before e after rfl
  obtain ⟨t, event, u, hbefore, hst, hnote⟩ := Recorded.entry hrun
  obtain ⟨rfl, hstate⟩ : t = e ∧ t.state = .authentication := by
    cases event with
    | read data =>
      rw [lineIn] at hnote
      split at hnote
      · rename_i hline
        exact ⟨Option.some.inj hnote, hline.1⟩
      · cases hnote
    | written => cases hnote
    | error => cases hnote
  exact (PromptRun.prompted hbefore (by simp [hstate])).inStep_iff hstate

def emptyNameReads : List Bytes :=
  [[IAC, DO, Echo], [IAC, DO, SuppressGoAhead], [CarriageReturn, NUL], [97], [CarriageReturn, NUL]]

/-- In a login with a name and a password both lines are in step. -/
theorem line_in_step_login :
    Along (fun _ e => InStep e) (noted lineIn (listening true) loginReads) := by
  have hcondition : Along (fun before e => e.asked = some .password →
      ∀ line ∈ before.getLast?, line.buffer ≠ []) (noted lineIn (listening true) loginReads) :=
    AlongFrom.along (by decide +kernel)
  intro before e after hrecord
  exact (line_in_step_iff (RecordedRun.reads (fun _ => rfl) true loginReads) before e after
    hrecord).mpr (hcondition before e after hrecord)

/-- Behind an empty name the line that follows the password prompt is taken for the name, and the
password is asked for again. -/
theorem line_out_of_step : ∃ (before : List TelnetSession) (e s : TelnetSession),
    PromptRun true s (before ++ [e]) ∧ e.asked = some .password ∧ e.buffer = chars "a" ∧
    (e.received [CarriageReturn, NUL]).username = chars "a" ∧
    (e.received [CarriageReturn, NUL]).asked = some .password ∧ ¬ InStep e := by
  let e := (listening true).feed (emptyNameReads.take 4)
  have hrecord : noted lineIn (listening true) emptyNameReads =
      noted lineIn (listening true) (emptyNameReads.take 4) ++ [e] := by
    decide +kernel
  have hrun : PromptRun true ((listening true).feed emptyNameReads)
      (noted lineIn (listening true) emptyNameReads) :=
    RecordedRun.reads (fun _ => rfl) true emptyNameReads
  rw [hrecord] at hrun
  have hfacts : e.asked = some .password ∧ e.buffer = chars "a" ∧
      (e.received [CarriageReturn, NUL]).username = chars "a" ∧
      (e.received [CarriageReturn, NUL]).asked = some .password ∧
      { e with password := e.buffer }.authorize = false := by
    decide +kernel
  obtain ⟨hasked, hbuffer, husername, hagain, hno⟩ := hfacts
  refine ⟨_, _, _, hrun, hasked, hbuffer, husername, hagain, fun hstep => ?_⟩
  have htaken := hstep.password hasked
  unfold TakenAsPassword at htaken
  dsimp only at htaken
  rw [hno, if_neg Bool.false_ne_true, hagain] at htaken
  cases htaken.2

end Telnet
end NetworkProtocols
