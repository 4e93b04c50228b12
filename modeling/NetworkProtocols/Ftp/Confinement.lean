import NetworkProtocols.Ftp.Login

/-!
# Where a session reaches

`_rootDir` is where a session starts, and nothing else: CWD and the commands on files join their
arguments to the current directory as they come. MKD and RMD take one name of letters and
digits, which leads nowhere else.
-/

namespace NetworkProtocols
namespace Ftp

open Bytes Transition Location

/-- The arguments of a command lead to no place outside the root directory. -/
def Stays (seen : Bytes → Bytes) (root : Location) (s : FTPSession) (args : Bytes) :
    Command → Prop
  | .cwd =>
    if args = PathName.dotDot then ParentStays seen root s.currDir
    else args ≠ [] ∧ args ≠ PathName.dot → JoinStays seen root s.currDir args
  | .dele => matchesFile args = true → JoinStays seen root s.currDir args
  | .list | .nlst | .retr | .stor => s.dataSocket = true → JoinStays seen root s.currDir args
  | _ => True

instance Stays.decide (seen : Bytes → Bytes) (root : Location) (s : FTPSession) (args : Bytes) :
    (command : Command) → Decidable (Stays seen root s args command)
  | .cwd => inferInstanceAs (Decidable (if _ = _ then _ else _ → _))
  | .dele | .list | .nlst | .retr | .stor => inferInstanceAs (Decidable (_ = _ → _))
  | .eprt | .epsv | .feat | .mkd | .pass | .pasv | .port | .pwd | .quit | .rmd | .syst | .type
  | .user | .unknown => .isTrue trivial

section Reading

variable {seen : Bytes → Bytes} (hread : Reading seen) {root : Location} {s : FTPSession}
  {args : Bytes}
include hread

/-- A name of letters and digits stays in the directory. -/
theorem joinStays_of_matches (h : matchesDirectory args = true) :
    JoinStays seen root s.currDir args := by
  rw [matchesDirectory, Bool.and_eq_true, List.all_eq_true] at h
  obtain ⟨hempty, hall⟩ := h
  have hslash : PathName.slash ∉ args := fun hmem => absurd (hall _ hmem) (by decide)
  have hpoint : (46 : Byte) ∉ args := fun hmem => absurd (hall _ hmem) (by decide)
  intro _
  refine ⟨fun hboth => hslash ?_, .inl ?_⟩
  · rw [PathName.isAbsolute, decide_eq_true_eq] at hboth
    exact List.mem_of_mem_head? hboth.2
  · have hsub := (hread.initial args).subset
    have hcomponents := PathName.components_part fun hmem => hslash (hsub hmem)
    rw [hcomponents]
    by_cases hnone : seen args = []
    · simp [hnone, relative, follow]
    · have hdot : seen args ≠ PathName.dot := fun heq => hpoint (hsub (heq ▸ List.mem_cons_self))
      have hdots : seen args ≠ PathName.dotDot :=
        fun heq => hpoint (hsub (heq ▸ List.mem_cons_self))
      rw [List.filter_cons_of_pos (by simp [hnone, hdot]), List.filter_nil, relative, follow,
        List.foldl_cons, List.foldl_nil, enter, if_neg hdots]
      exact Nat.zero_le _

theorem inside_cwdTarget_iff (h : Inside root (location (seen s.currDir))) :
    Inside root (location (seen (s.cwdTarget args))) ↔ Stays seen root s args .cwd := by
  unfold FTPSession.cwdTarget Stays
  split
  · exact hread.inside_parentPath_iff h
  split
  · rename_i hargs
    rw [FTPSession.joined, hread.inside_append_iff h]
    exact ⟨fun hjoin _ => hjoin, fun hjoin => hjoin hargs⟩
  · rename_i hargs
    exact iff_of_true h fun hboth => absurd hboth hargs

/-- From a directory inside the root the path that a command uses is inside exactly when its
arguments stay there. -/
theorem inside_usedPath_iff (h : Inside root (location (seen s.currDir))) (command : Command) :
    (∀ path ∈ s.usedPath args command, Inside root (location (seen path))) ↔
      Stays seen root s args command := by
  have hjoined : Inside root (location (seen (s.joined args))) ↔
      JoinStays seen root s.currDir args := hread.inside_append_iff h args
  have hcond : ∀ b : Bool, (∀ path ∈ if b then some (s.joined args) else none,
      Inside root (location (seen path))) ↔ (b = true → JoinStays seen root s.currDir args) := by
    intro b
    cases b <;> simp [hjoined]
  have hname : ∀ path ∈ if matchesDirectory args then some (s.joined args) else none,
      Inside root (location (seen path)) := (hcond _).mpr (joinStays_of_matches hread)
  have hnone : ∀ path ∈ (none : Option Bytes), Inside root (location (seen path)) := by simp
  cases command with
  | cwd =>
    simp only [FTPSession.usedPath, Option.mem_some_iff, forall_eq']
    exact inside_cwdTarget_iff hread h
  | dele => exact hcond _
  | list => exact hcond _
  | nlst => exact hcond _
  | retr => exact hcond _
  | stor => exact hcond _
  | mkd => exact iff_of_true hname trivial
  | rmd => exact iff_of_true hname trivial
  | eprt => exact iff_of_true hnone trivial
  | epsv => exact iff_of_true hnone trivial
  | feat => exact iff_of_true hnone trivial
  | pass => exact iff_of_true hnone trivial
  | pasv => exact iff_of_true hnone trivial
  | port => exact iff_of_true hnone trivial
  | pwd => exact iff_of_true hnone trivial
  | quit => exact iff_of_true hnone trivial
  | syst => exact iff_of_true hnone trivial
  | type => exact iff_of_true hnone trivial
  | user => exact iff_of_true hnone trivial
  | unknown => exact iff_of_true hnone trivial

theorem inside_currDir (users : UsersDB) {c : Call}
    (h : Inside root (location (seen c.session.currDir)))
    (hstays : Stays seen root c.session c.args c.command) :
    Inside root (location (seen (c.execute users).session.currDir)) := by
  have hchanges := executeCommand_changes c.outcomes users c.session c.line
  change Changes c.outcomes users c.session c.args c.command (c.execute users).session at hchanges
  generalize (c.execute users).session = t at hchanges
  generalize c.command = command at hchanges hstays
  cases hchanges with
  | same _ _ => exact h
  | closed _ => exact h
  | opened _ _ _ => exact h
  | cwd _ => exact (inside_cwdTarget_iff hread h).mpr hstays
  | quit => exact h
  | type _ => exact h
  | user _ => exact h

theorem inside_calls_iff (users : UsersDB) {c : Call}
    (h : Inside root (location (seen c.session.currDir))) :
    (∀ call ∈ (c.execute users).calls, Inside root (location (seen call.path))) ↔
      Stays seen root c.session c.args c.command := by
  have haccounted := executeCommand_accounted c.outcomes users c.session c.line
  rw [← inside_usedPath_iff hread h]
  constructor
  · intro hcalls path hpath
    have hused : c.session.usedPath c.args c.command = some path := hpath
    obtain ⟨call, hcall⟩ := List.exists_mem_of_ne_nil _
      (haccounted.passed fun hnone => Option.some_ne_none path (hused.symm.trans hnone))
    obtain rfl := Option.some.inj (hused.symm.trans (haccounted.paths call hcall))
    exact hcalls call hcall
  · intro hpath call hcall
    exact hpath call.path (haccounted.paths call hcall)

variable {users : UsersDB} {outcomes : ℕ → Outcomes} {dataPort : UInt16} {rootDir : Bytes}
  {w : Worker} {record : List Call}

/-- In a run the current directory and the paths passed to the file system, read in one way, are
inside the root directory exactly when the arguments of all commands stay there. -/
theorem reading_confined_iff (hrun : Run users outcomes dataPort rootDir w record) :
    ((∀ c ∈ record, Inside (location (seen rootDir)) (location (seen c.session.currDir)) ∧
        ∀ call ∈ (c.execute users).calls,
          Inside (location (seen rootDir)) (location (seen call.path))) ∧
      Inside (location (seen rootDir)) (location (seen w.session.currDir))) ↔
    ∀ c ∈ record, Stays seen (location (seen rootDir)) c.session c.args c.command := by
  constructor
  · rintro ⟨hrecord, -⟩ c hc
    obtain ⟨hdir, hcalls⟩ := hrecord c hc
    exact (inside_calls_iff hread users hdir).mp hcalls
  · intro hall
    -- The current directory is inside as long as the commands so far stayed there.
    let Inv := fun (s : FTPSession) (record : List Call) =>
      (∀ c ∈ record, Stays seen (location (seen rootDir)) c.session c.args c.command) →
        Inside (location (seen rootDir)) (location (seen s.currDir))
    have hstart : Inv (.start dataPort rootDir) [] := fun _ => Inside.refl _
    have hstep : ∀ record (c : Call), Inv c.session record →
        Inv (c.execute users).session (record ++ [c]) := by
      intro record c hinv hstays
      rw [List.forall_mem_append] at hstays
      exact inside_currDir hread users (hinv hstays.1) (hstays.2 c List.mem_cons_self)
    refine ⟨fun c hc => ?_, hrun.invariant hstart hstep hall⟩
    obtain ⟨before, after, rfl⟩ := List.append_of_mem hc
    have hdir := hrun.along hstart hstep before c after rfl
      fun p hp => hall p (List.mem_append_left _ hp)
    exact ⟨hdir, (inside_calls_iff hread users hdir).mpr (hall c hc)⟩

end Reading

variable {users : UsersDB} {outcomes : ℕ → Outcomes} {dataPort : UInt16} {rootDir : Bytes}
  {w : Worker} {record : List Call}

/-- A path is the root directory or below it, as it stands and as a call reads it. -/
def Within (rootDir path : Bytes) : Prop :=
  Inside (location rootDir) (location path) ∧
    Inside (location (PathName.cString rootDir)) (location (PathName.cString path))

instance (rootDir path : Bytes) : Decidable (Within rootDir path) :=
  inferInstanceAs (Decidable (_ ∧ _))

/-- The arguments of a command stay, as they stand and as a call reads the path. -/
def StaysWithin (rootDir : Bytes) (c : Call) : Prop :=
  Stays id (location rootDir) c.session c.args c.command ∧
    Stays PathName.cString (location (PathName.cString rootDir)) c.session c.args c.command

instance (rootDir : Bytes) (c : Call) : Decidable (StaysWithin rootDir c) :=
  inferInstanceAs (Decidable (_ ∧ _))

/-- In a run the current directory and the paths that are passed to the file system are inside
the root directory exactly when the arguments of all commands stay there. -/
theorem session_confined_iff (hrun : Run users outcomes dataPort rootDir w record) :
    ((∀ c ∈ record, Within rootDir c.session.currDir ∧
        ∀ call ∈ (c.execute users).calls, Within rootDir call.path) ∧
      Within rootDir w.session.currDir) ↔
    ∀ c ∈ record, StaysWithin rootDir c := by
  have hwhole := reading_confined_iff Reading.whole hrun
  have hcString := reading_confined_iff Reading.cString hrun
  simp only [id] at hwhole
  unfold StaysWithin Within
  constructor
  · rintro ⟨hrecord, hlast⟩ c hc
    refine ⟨hwhole.mp ⟨fun c hc => ?_, hlast.1⟩ c hc, hcString.mp ⟨fun c hc => ?_, hlast.2⟩ c hc⟩
    · exact ⟨(hrecord c hc).1.1, fun call hcall => ((hrecord c hc).2 call hcall).1⟩
    · exact ⟨(hrecord c hc).1.2, fun call hcall => ((hrecord c hc).2 call hcall).2⟩
  · intro hall
    obtain ⟨hrecord, hlast⟩ := hwhole.mpr fun c hc => (hall c hc).1
    obtain ⟨hrecord', hlast'⟩ := hcString.mpr fun c hc => (hall c hc).2
    exact ⟨fun c hc => ⟨⟨(hrecord c hc).1, (hrecord' c hc).1⟩, fun call hcall =>
      ⟨(hrecord c hc).2 call hcall, (hrecord' c hc).2 call hcall⟩⟩, hlast, hlast'⟩

def homeArrivals : List Arrival :=
  [.received (chars "CWD .\r\n"), .received (chars "DELE f\r\n"), .received (chars "MKD d\r\n")]

theorem session_confined_home :
    Within (chars "/home") (visit homeArrivals).1.session.currDir :=
  ((session_confined_iff (Worker.work_run homeArrivals)).mpr (by decide +kernel)).2

/-- One CWD leads to the directory above the root directory. -/
theorem session_leaves_root : ∃ (w : Worker) (record : List Call),
    Run oneUser (fun _ => { disk := homeDisk }) 10020 (chars "/home") w record ∧
    record.map Call.line = [chars "CWD .."] ∧ w.session.currDir = chars "/" ∧
    ¬ Within (chars "/home") w.session.currDir :=
  ⟨(visit [.received (chars "CWD ..\r\n")]).1, (visit [.received (chars "CWD ..\r\n")]).2,
    Worker.work_run _, by decide +kernel⟩

end Ftp
end NetworkProtocols
