import NetworkProtocols.Ftp.DataConnection

/-!
# A data connection that does not open

The functions that open a data connection return once a call to a socket fails. A socket that
was open by then stays so, and the next PASV or EPSV finds it.
-/

namespace NetworkProtocols
namespace Ftp

open Bytes

inductive Opening
  | active (addr : Bytes) (port : UInt16)
  | passive (port : UInt16)
  deriving DecidableEq

namespace Opening

def run (o : Outcomes) (x : Execution) : Opening → Bool × Execution
  | .active addr port => x.openDataConnectionActive o addr port
  | .passive port => x.openDataConnectionPassive o port

def OpensNone (o : Outcomes) : Opening → Prop
  | .active addr _ => o.addressValid addr = true → o.dataSocketOpens = false
  | .passive _ => o.acceptorOpens = false

def Completes (o : Outcomes) : Opening → Prop
  | .active addr port => o.connects addr port = true
  | .passive port => o.optionSet = true ∧ o.binds port = true ∧ o.listens = true ∧ o.accepts = true

/-- Each call to a socket succeeds when it was closed before. -/
def OwnCalls (o : Outcomes) (opening : Opening) : Prop :=
  (match opening with
    | .active addr _ => o.addressValid addr = true ∧ o.dataSocketOpens = true
    | .passive _ => o.acceptorOpens = true) ∧ opening.Completes o

variable {o : Outcomes} {s : FTPSession} {opening : Opening}

theorem run_none (h : opening.OpensNone o) :
    (opening.run o (.start s o.disk)).2.session = s := by
  cases opening with
  | active addr port =>
    cases haddr : o.addressValid addr with
    | false =>
      simp [run, Execution.openDataConnectionActive, Execution.start, Execution.raise, haddr]
    | true =>
      have hsocket : o.dataSocketOpens = false := h haddr
      simp [run, Execution.openDataConnectionActive, Execution.start, haddr, hsocket]
  | passive port =>
    have hacceptor : o.acceptorOpens = false := h
    simp only [run, Execution.openDataConnectionPassive, Execution.start, hacceptor,
      Bool.not_false, Bool.or_true, if_true]
    split <;> rfl

theorem run_succeeds (hs : s.Closed) (h : opening.OwnCalls o) :
    (opening.run o (.start s o.disk)).1 = true := by
  obtain ⟨hdata, hacceptor⟩ := hs
  cases opening with
  | active addr port =>
    obtain ⟨⟨haddr, hsocket⟩, hconnect⟩ := h
    have hconnects : o.connects addr port = true := hconnect
    simp [run, Execution.openDataConnectionActive, haddr, hsocket, hconnects]
  | passive port =>
    obtain ⟨hopens, hoption, hbind, hlisten, haccept⟩ := h
    have hopened : o.acceptorOpens = true := hopens
    simp [run, Execution.openDataConnectionPassive, Execution.start, hdata, hacceptor, hopened,
      hoption, hbind, hlisten, haccept]

theorem ownCalls_of_opened (hopened : ¬ opening.OpensNone o) (h : opening.Completes o) :
    opening.OwnCalls o := by
  refine ⟨?_, h⟩
  cases opening with
  | active addr port => simpa [OpensNone] using hopened
  | passive port => simpa [OpensNone] using hopened

/-- A call that fails behind the one that opens the socket leaves the socket open. -/
theorem run_broken (hs : s.Closed) (hopened : ¬ opening.OpensNone o)
    (hbroken : ¬ opening.Completes o) :
    (opening.run o (.start s o.disk)).1 = false ∧
      (opening.run o (.start s o.disk)).2.fault = none ∧
      ¬ (opening.run o (.start s o.disk)).2.session.Closed := by
  obtain ⟨hdata, hacceptor⟩ := hs
  cases opening with
  | active addr port =>
    have ⟨haddr, hsocket⟩ : o.addressValid addr = true ∧ o.dataSocketOpens = true := by
      simpa [OpensNone] using hopened
    have hconnect : o.connects addr port = false := by simpa [Completes] using hbroken
    simp [run, Execution.openDataConnectionActive, Execution.start, FTPSession.Closed, haddr,
      hsocket, hconnect]
  | passive port =>
    have hopens : o.acceptorOpens = true := by simpa [OpensNone] using hopened
    simp only [run, Execution.openDataConnectionPassive, Execution.start, hdata, hacceptor, hopens,
      Bool.not_true, Bool.or_false, Bool.false_eq_true, if_false]
    split
    · simp [FTPSession.Closed]
    split
    · simp [FTPSession.Closed]
    split
    · simp [FTPSession.Closed]
    split
    · simp [FTPSession.Closed]
    · rename_i hoption hbind hlisten haccept
      rw [Bool.not_eq_true, Bool.not_eq_false'] at hoption hbind hlisten haccept
      exact absurd ⟨hoption, hbind, hlisten, haccept⟩ hbroken

end Opening

/-- The call that a command comes to. -/
def FTPSession.opening (s : FTPSession) (args : Bytes) : Command → Option Opening
  | .epsv | .pasv => some (.passive s.dataPort)
  | .eprt => (portArguments (parseExtendedArguments args)).toOption.map fun p => .active p.1 p.2
  | .port => (portArguments (stripParentheses args)).toOption.map fun p => .active p.1 p.2
  | _ => none

section Commands

variable (o : Outcomes) (users : UsersDB) (s : FTPSession)

theorem handlePort_opening (args : Bytes) :
    ((Execution.start s o.disk).handlePort o args).session =
      match (portArguments args).toOption with
      | some (host, port) =>
        ((Opening.active host port).run o (.start s o.disk)).2.session
      | none => s := by
  unfold Execution.handlePort
  cases portArguments args with
  | error fault => rfl
  | ok target =>
    dsimp only [Except.toOption, Opening.run]
    split <;> rfl

theorem passive_session (port : UInt16) {x y : Execution} (h : x.session = y.session) :
    (x.openDataConnectionPassive o port).2.session =
      (y.openDataConnectionPassive o port).2.session := by
  unfold Execution.openDataConnectionPassive
  simp only [apply_ite Prod.snd, apply_ite Execution.session, h]

/-- The session behind a command that opens a connection is the one behind its call. -/
theorem executeCommand_opening {line : Bytes} (hline : (parseCommand line).1 ∈ opens) :
    (executeCommand o users line (.start s o.disk)).session =
      match s.opening (parseCommand line).2 (parseCommand line).1 with
      | some opening => (opening.run o (.start s o.disk)).2.session
      | none => s := by
  unfold executeCommand
  generalize parseCommand line = parsed at hline ⊢
  obtain ⟨command, args⟩ := parsed
  change command ∈ opens at hline
  cases command with
  | eprt =>
    have hport := handlePort_opening o s (parseExtendedArguments args)
    dsimp only [FTPSession.opening]
    rw [hport]
    cases portArguments (parseExtendedArguments args) with
    | error fault => rfl
    | ok target => rfl
  | port =>
    have hport := handlePort_opening o s (stripParentheses args)
    dsimp only [FTPSession.opening]
    rw [hport]
    cases portArguments (stripParentheses args) with
    | error fault => rfl
    | ok target => rfl
  | epsv => exact passive_session o _ rfl
  | pasv => exact passive_session o _ rfl
  | _ => exact absurd hline (by decide)

/-- Between two openings: commands of which none opens a socket. -/
def OpenNone (s : FTPSession) (commands : List (Outcomes × Bytes)) : Prop :=
  ∀ p ∈ commands, ∀ opening ∈ s.opening (parseCommand p.2).2 (parseCommand p.2).1,
    opening.OpensNone p.1

variable {o s}

theorem FTPSession.Closed.executeNone (h : s.Closed) {line : Bytes}
    (hline : ∀ opening ∈ s.opening (parseCommand line).2 (parseCommand line).1,
      opening.OpensNone o) :
    (executeCommand o users line (.start s o.disk)).session.Closed := by
  by_cases hopens : (parseCommand line).1 ∈ opens
  · rw [executeCommand_opening o users s hopens]
    cases hopening : s.opening (parseCommand line).2 (parseCommand line).1 with
    | none => exact h
    | some opening =>
      dsimp only
      rwa [Opening.run_none (hline opening hopening)]
  · exact h.execute o hopens

theorem executeCommand_opening_eq (line args : Bytes) (command : Command) :
    (executeCommand o users line (.start s o.disk)).session.opening args command =
      s.opening args command := by
  have hport : (executeCommand o users line (.start s o.disk)).session.dataPort = s.dataPort := by
    have hchanges := executeCommand_changes o users s line
    generalize (executeCommand o users line (.start s o.disk)).session = t at hchanges ⊢
    generalize (parseCommand line).1 = command at hchanges
    cases hchanges <;> rfl
  unfold FTPSession.opening
  rw [hport]

theorem FTPSession.Closed.afterNone (h : s.Closed) {commands : List (Outcomes × Bytes)}
    (hlines : OpenNone s commands) : (s.after users commands).Closed := by
  induction commands generalizing s with
  | nil => exact h
  | cons p commands ih =>
    obtain ⟨hline, hrest⟩ := List.forall_mem_cons.mp hlines
    refine ih (h.executeNone users hline) fun q hq => ?_
    rw [executeCommand_opening_eq]
    exact hrest q hq

/-- An opening that returns false leaves both sockets closed, and whichever comes next succeeds
when its own calls do. -/
def LeavesClosed (users : UsersDB) (o : Outcomes) (s : FTPSession) (opening : Opening) : Prop :=
  let x := (opening.run o (.start s o.disk)).2
  (opening.run o (.start s o.disk)).1 = false → x.fault = none →
    x.session.Closed ∧ ∀ commands, OpenNone x.session commands →
      ∀ (later : Opening) (o' : Outcomes), later.OwnCalls o' →
        (later.run o' (.start (x.session.after users commands) o'.disk)).1 = true

/-- With both sockets closed, an opening keeps to that exactly when it opens no socket or when
all that it asks of the open one succeeds. -/
theorem failed_open_closed_iff (users : UsersDB) (o : Outcomes) (s : FTPSession)
    (opening : Opening) (hs : s.Closed) :
    LeavesClosed users o s opening ↔ opening.OpensNone o ∨ opening.Completes o := by
  constructor
  · intro h
    by_contra hnot
    obtain ⟨hopened, hbroken⟩ := not_or.mp hnot
    obtain ⟨hfalse, hfault, hopen⟩ := Opening.run_broken hs hopened hbroken
    exact hopen (h hfalse hfault).1
  · intro h hfalse hfault
    have hnone : opening.OpensNone o := by
      by_contra hopened
      have hcalls := Opening.ownCalls_of_opened hopened (h.resolve_left hopened)
      rw [Opening.run_succeeds hs hcalls] at hfalse
      cases hfalse
    have hclosed : (opening.run o (.start s o.disk)).2.session.Closed := by
      rwa [Opening.run_none hnone]
    exact ⟨hclosed, fun commands hcommands later o' hcalls =>
      Opening.run_succeeds (hclosed.afterNone users hcommands) hcalls⟩

/-- An acceptor that does not open, and a PASV behind it that does its work. -/
theorem failed_open_no_acceptor : LeavesClosed (fun _ => none)
    { disk := homeDisk, acceptorOpens := false } (.start 2000 (chars "/")) (.passive 2000) :=
  (failed_open_closed_iff (fun _ => none) { disk := homeDisk, acceptorOpens := false }
    (.start 2000 (chars "/")) (.passive 2000) ⟨rfl, rfl⟩).mpr (.inl rfl)

/-- A port that is taken: PASV leaves the acceptor open, and none that follows can open it. So
does a PORT to a client that refuses with the data socket. -/
theorem taken_port_keeps_acceptor :
    let taken : Outcomes := { disk := homeDisk, binds := fun _ => false }
    let refused : Outcomes := { disk := homeDisk, connects := fun _ _ => false }
    let s := FTPSession.start 2000 (chars "/")
    let pasv := executeCommand taken (fun _ => none) (chars "PASV") (.start s homeDisk)
    let port := executeCommand refused (fun _ => none) (chars "PORT 127,0,0,1,7,208")
      (.start s homeDisk)
    s.Closed ∧ ¬ LeavesClosed (fun _ => none) taken s (.passive 2000) ∧
      pasv.session.acceptor = true ∧ port.session.dataSocket = true ∧
      ∀ x ∈ [pasv, port], ((Opening.passive 2000).run { disk := homeDisk }
        (.start x.session homeDisk)).1 = false := by
  refine ⟨by decide, fun h => ?_, by decide +kernel, by decide +kernel, by decide +kernel⟩
  have hclosed := (h (by decide +kernel) (by decide +kernel)).1
  exact absurd hclosed (by decide +kernel)

end Commands

end Ftp
end NetworkProtocols
