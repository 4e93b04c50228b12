import NetworkProtocols.Ftp.Login

/-!
# The user that PASS is for

A USER that names nobody leaves the name in front of it in place, and PASS asks for the password
of that name.
-/

namespace NetworkProtocols
namespace Ftp

open Bytes Transition

def welcome (u : Bytes) : Bytes := chars "230 User " ++ u ++ chars " logged in"

def latestUser (record : List Call) : Option Bytes :=
  (record.filter fun c => c.command = .user).getLast?.map Call.args

theorem latestUser_concat (record : List Call) (c : Call) :
    latestUser (record ++ [c]) = if c.command = .user then some c.args else latestUser record := by
  by_cases huser : c.command = .user
  · simp [latestUser, huser]
  · simp [latestUser, huser]

section Names

variable {users : UsersDB} {record : List Call}

theorem login_latest {name : Bytes} (h : latestUser record = some name)
    (hknown : users.usernameIsKnown name = true) : (login users record).1 = name := by
  induction record using List.reverseRecOn with
  | nil => cases h
  | append_singleton record c ih =>
    rw [latestUser_concat] at h
    rw [login_concat]
    by_cases huser : c.command = .user
    · rw [if_pos huser, Option.some_inj] at h
      rw [if_pos ⟨huser, h ▸ hknown⟩]
      exact h
    · rw [if_neg huser] at h
      rw [if_neg fun h' => huser h'.1]
      split <;> exact ih h

theorem latestUser_of_login (h : (login users record).1 ≠ []) :
    ∃ name, latestUser record = some name := by
  induction record using List.reverseRecOn with
  | nil => exact absurd rfl h
  | append_singleton record c ih =>
    rw [latestUser_concat]
    rw [login_concat] at h
    by_cases huser : c.command = .user
    · exact ⟨c.args, if_pos huser⟩
    · rw [if_neg fun h' => huser h'.1] at h
      rw [if_neg huser]
      split at h <;> exact ih h

end Names

namespace Call

variable (users : UsersDB) (before : List Call) (c : Call)

/-- A PASS welcomes only the user of the most recent USER, with the right password. -/
def ChecksLatest : Prop :=
  c.command = .pass → ∀ u, welcome u ∈ (c.execute users).replies →
    latestUser before = some u ∧ users.usernameIsKnown u = true ∧ users u = some c.args

/-- Where the argument of PASS is the password of the last name that USER stored, the most recent
USER was of a known name. -/
def LatestKnown : Prop :=
  c.command = .pass → (login users before).1 ≠ [] → users (login users before).1 = some c.args →
    ∀ name ∈ latestUser before, users.usernameIsKnown name = true

instance : Decidable (c.LatestKnown users before) := inferInstanceAs (Decidable (_ → _))

/-- PASS welcomes the username that is stored. -/
theorem welcome_iff (hpass : c.command = .pass) (u : Bytes) :
    welcome u ∈ (c.execute users).replies ↔
      c.session.username = u ∧ u ≠ [] ∧ users u = some c.args := by
  rw [execute_pass users c hpass]
  rcases handlePass_cases users c.args (.start c.session c.outcomes.disk) with
    ⟨hname, heq⟩ | ⟨hname, hunknown, heq⟩ | ⟨password, hname, hknown, heq⟩
  · have hempty : c.session.username = [] := hname
    rw [heq]
    refine iff_of_false (by simp [Execution.start]) ?_
    rintro ⟨rfl, hne, -⟩
    exact hne hempty
  · have hnone : users c.session.username = none := hunknown
    rw [heq]
    refine iff_of_false (by simp [Execution.start, Execution.raise]) ?_
    rintro ⟨rfl, -, hsome⟩
    cases hnone.symm.trans hsome
  · have hnonempty : c.session.username ≠ [] := hname
    have hstored : users c.session.username = some password := hknown
    rw [heq]
    by_cases hpassword : password = c.args
    · have hreply : welcome u ∈ [welcome c.session.username] ↔ c.session.username = u := by
        rw [List.mem_singleton, welcome, welcome, List.append_left_inj, List.append_right_inj,
          eq_comm]
      rw [if_pos hpassword]
      refine Iff.trans hreply ⟨?_, And.left⟩
      rintro rfl
      exact ⟨rfl, hnonempty, hpassword ▸ hstored⟩
    · rw [if_neg hpassword]
      refine iff_of_false ?_ ?_
      · simp [Execution.start, Execution.sendMessageToClient, welcome, chars]
      · rintro ⟨rfl, -, hsome⟩
        exact hpassword (Option.some.inj (hstored.symm.trans hsome))

end Call

variable {users : UsersDB} {outcomes : ℕ → Outcomes} {dataPort : UInt16} {rootDir : Bytes}
  {w : Worker} {record : List Call}

/-- PASS checks the most recent USER exactly where that was of a known name, or where the
password is not that of the name in place. -/
theorem pass_latest_iff (hrun : Run users outcomes dataPort rootDir w record) :
    Along (fun before c => c.ChecksLatest users before ↔ c.LatestKnown users before) record := by
  have hstart : Remembers users (.start dataPort rootDir) [] := ⟨rfl, by simp [login]⟩
  have hall := hrun.along hstart Remembers.step
  intro before c after hrecord
  have hname := (hall before c after hrecord).username
  refine forall_congr' fun hpass => ?_
  constructor
  · intro hchecks hne hpassword name hlatest
    have hwelcome : welcome (login users before).1 ∈ (c.execute users).replies :=
      (c.welcome_iff users hpass _).mpr ⟨hname, hne, hpassword⟩
    obtain ⟨hsome, hknown, -⟩ := hchecks _ hwelcome
    rw [hsome, Option.mem_some_iff] at hlatest
    exact hlatest ▸ hknown
  · intro hcondition u hwelcome
    obtain ⟨hstored, hne, hpassword⟩ := (c.welcome_iff users hpass u).mp hwelcome
    obtain rfl := hname.symm.trans hstored
    obtain ⟨name, hlatest⟩ := latestUser_of_login hne
    have hknown := hcondition hne hpassword name hlatest
    rw [login_latest hlatest hknown] at *
    exact ⟨hlatest, hknown, hpassword⟩

theorem pass_latest_user :
    Along (fun before c => c.ChecksLatest oneUser before) (visit loginArrivals).2 := by
  have hknown : Along (fun before c => c.LatestKnown oneUser before) (visit loginArrivals).2 :=
    AlongFrom.along (by decide +kernel)
  intro before c after hrecord
  exact (pass_latest_iff (Worker.work_run loginArrivals) before c after hrecord).mpr
    (hknown before c after hrecord)

/-- A user that nobody knows is welcomed as the one in front of it. -/
theorem pass_former_user : ∃ (w : Worker) (before : List Call) (pass : Call),
    Run oneUser (fun _ => { disk := homeDisk }) 10020 (chars "/home") w (before ++ [pass]) ∧
    pass.line = chars "PASS p" ∧ latestUser before = some (chars "x") ∧
    welcome (chars "u") ∈ (pass.execute oneUser).replies ∧ ¬ pass.ChecksLatest oneUser before := by
  let arrivals : List Arrival := [.received (chars "USER u\r\n"), .received (chars "USER x\r\n"),
    .received (chars "PASS p\r\n")]
  let pass : Call := ⟨16, chars "PASS p", (visit (arrivals.take 2)).1.session, { disk := homeDisk }⟩
  have hrecord : (visit arrivals).2 = (visit (arrivals.take 2)).2 ++ [pass] := rfl
  have hfacts : pass.command = .pass ∧
      latestUser (visit (arrivals.take 2)).2 = some (chars "x") ∧
      welcome (chars "u") ∈ (pass.execute oneUser).replies := by
    decide +kernel
  obtain ⟨hpass, hlatest, hwelcome⟩ := hfacts
  have hrun : Run oneUser (fun _ => { disk := homeDisk }) 10020 (chars "/home") (visit arrivals).1
      (visit arrivals).2 := Worker.work_run arrivals
  rw [hrecord] at hrun
  refine ⟨_, _, _, hrun, rfl, hlatest, hwelcome, fun hchecks => ?_⟩
  have hsame := hlatest.symm.trans (hchecks hpass _ hwelcome).1
  exact absurd (Option.some.inj hsame) (by decide)

end Ftp
end NetworkProtocols
