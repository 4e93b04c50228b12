import Mathlib.Data.List.Infix
import NetworkProtocols.Telnet.Session

/-!
# The login in front of the interaction

A run is recorded read by read with the state that each one comes in. What the record says of
the options and of the lines is tied to the session by one invariant.
-/

namespace NetworkProtocols
namespace Telnet

open Bytes Relation Transition TelnetSession

def readIn (s : TelnetSession) : Event → Option (State × Bytes)
  | .read data => some (s.state, data)
  | _ => none

abbrev Run (lineCompleteCB : Bool) (s : TelnetSession) (record : List (State × Bytes)) : Prop :=
  RecordedRun readIn lineCompleteCB s record

/-- The options that one read confirms. -/
def confirmed : Bytes → List Byte
  | [] => []
  | [_] => []
  | b :: x :: rest =>
    if b = DO then (if x ≠ IAC then x :: confirmed rest else confirmed rest)
    else confirmed (x :: rest)

theorem removeConfirmed_eq (data : Bytes) (options : List Byte) :
    removeConfirmed data options = options.filter (· ∉ confirmed data) := by
  fun_induction confirmed data generalizing options with
  | case1 => simp [removeConfirmed]
  | case2 b => simp [removeConfirmed]
  | case3 x rest hx ih =>
    rw [removeConfirmed, if_pos rfl, if_pos hx, ih, List.filter_filter]
    refine List.filter_congr fun option _ => ?_
    simp [eq_comm, Bool.and_comm]
  | case4 x rest hx ih => rw [removeConfirmed, if_pos rfl, if_neg hx, ih]
  | case5 b x rest hb ih => rw [removeConfirmed, if_neg hb, ih]

/-- A read in `Negotiation` confirmed the option. -/
def ConfirmedIn (record : List (State × Bytes)) (option : Byte) : Prop :=
  ∃ p ∈ record, p.1 = .negotiation ∧ option ∈ confirmed p.2

instance (record : List (State × Bytes)) (option : Byte) : Decidable (ConfirmedIn record option) :=
  inferInstanceAs (Decidable (∃ _ ∈ _, _))

theorem ConfirmedIn.append {record : List (State × Bytes)} {option : Byte}
    (h : ConfirmedIn record option) (p : State × Bytes) : ConfirmedIn (record ++ [p]) option := by
  obtain ⟨q, hq, hstate, hoption⟩ := h
  exact ⟨q, List.mem_append_left _ hq, hstate, hoption⟩

/-- The lines so far and the one that is typed, after one more read. -/
def enter (typed : List Bytes × Bytes) : Bytes → List Bytes × Bytes
  | [b] => if isprint b then (typed.1, typed.2 ++ [b]) else typed
  | [b, b'] => if b = CarriageReturn ∧ b' = NUL then (typed.1 ++ [typed.2], []) else typed
  | _ => typed

/-- What is typed in the reads that are taken in `Authentication`. -/
def typedIn (record : List (State × Bytes)) : List Bytes × Bytes :=
  record.foldl (fun typed p => if p.1 = .authentication then enter typed p.2 else typed) ([], [])

theorem typedIn_append (record : List (State × Bytes)) (p : State × Bytes) :
    typedIn (record ++ [p]) =
      if p.1 = .authentication then enter (typedIn record) p.2 else typedIn record := by
  rw [typedIn, List.foldl_append]
  rfl

/-- Both options were confirmed, and the last two lines are the user name and the password. -/
def LoggedIn (record : List (State × Bytes)) : Prop :=
  (∀ option ∈ [Echo, SuppressGoAhead], ConfirmedIn record option) ∧
    [chars "testuser", chars "testpassword"] <:+ (typedIn record).1

instance (record : List (State × Bytes)) : Decidable (LoggedIn record) :=
  inferInstanceAs (Decidable (_ ∧ _))

/-- What has been typed, as the session in each of its states keeps it. -/
def Tracks (typed : List Bytes × Bytes) (s : TelnetSession) : Prop :=
  match s.state with
  | .negotiation => typed = ([], [])
  | .authentication => typed.2 = s.buffer ∧ (s.username ≠ [] → [s.username] <:+ typed.1)
  | .interaction => [chars "testuser", chars "testpassword"] <:+ typed.1

structure Follows (record : List (State × Bytes)) (s : TelnetSession) : Prop where
  options : ∀ option ∈ [Echo, SuppressGoAhead],
    option ∈ s.optionsToConfirm ∨ ConfirmedIn record option
  confirmed : s.state ≠ .negotiation → s.optionsToConfirm = []
  tracks : Tracks (typedIn record) s

section Steps

variable {record : List (State × Bytes)} {s : TelnetSession}

theorem removeConfirmed_options (h : ∀ option ∈ [Echo, SuppressGoAhead],
      option ∈ s.optionsToConfirm ∨ ConfirmedIn record option) (data : Bytes) :
    ∀ option ∈ [Echo, SuppressGoAhead], option ∈ removeConfirmed data s.optionsToConfirm ∨
      ConfirmedIn (record ++ [(.negotiation, data)]) option := by
  intro option hoption
  rcases h option hoption with hleft | hbefore
  · by_cases hnow : option ∈ confirmed data
    · exact .inr ⟨(.negotiation, data), by simp, rfl, hnow⟩
    · rw [removeConfirmed_eq]
      exact .inl (List.mem_filter.mpr ⟨hleft, by simpa using hnow⟩)
  · exact .inr (hbefore.append _)

theorem Follows.negotiate (h : Follows record s) (hstate : s.state = .negotiation) (data : Bytes) :
    Follows (record ++ [(.negotiation, data)]) (s.negotiate data) := by
  have hoptions := removeConfirmed_options h.options data
  have htyped : typedIn (record ++ [(.negotiation, data)]) = ([], []) := by
    have hbefore := h.tracks
    rw [Tracks, hstate] at hbefore
    rw [typedIn_append, if_neg (by simp)]
    exact hbefore
  unfold TelnetSession.negotiate
  dsimp only
  split
  · rename_i hnone
    rw [hnone] at hoptions
    refine ⟨fun option hoption => .inr ((hoptions option hoption).resolve_left (by simp)),
      fun _ => hnone, ?_⟩
    rw [htyped]
    exact ⟨rfl, fun hname => absurd rfl hname⟩
  · refine ⟨hoptions, fun hother => absurd hstate hother, ?_⟩
    unfold Tracks
    dsimp only
    rw [hstate]
    exact htyped

/-- The name and the password that `authorize` compares are the last two lines. -/
theorem Tracks.enterLine {typed : List Bytes × Bytes} (h : Tracks typed s)
    (hstate : s.state = .authentication) : Tracks (typed.1 ++ [typed.2], []) s.enterLine := by
  rw [Tracks, hstate] at h
  obtain ⟨hbuffer, husername⟩ := h
  unfold TelnetSession.enterLine
  dsimp only [TelnetSession.send, TelnetSession.sendLine]
  split
  · unfold Tracks
    dsimp only
    rw [hstate, hbuffer]
    exact ⟨rfl, fun _ => List.suffix_append _ _⟩
  · rename_i hname
    split
    · rename_i hauthorized
      unfold authorize at hauthorized
      rw [Bool.and_eq_true, beq_iff_eq, beq_iff_eq] at hauthorized
      obtain ⟨before, hbefore⟩ := husername hname
      refine ⟨before, ?_⟩
      rw [← hbefore, hbuffer, ← hauthorized.1, ← hauthorized.2, List.append_assoc]
      rfl
    · exact ⟨rfl, fun hnone => absurd rfl hnone⟩

theorem Tracks.authenticate {typed : List Bytes × Bytes} (h : Tracks typed s)
    (hstate : s.state = .authentication) (data : Bytes) :
    Tracks (enter typed data) (s.authenticate data) := by
  -- the handler and the lines look at the size of the read first
  rcases data with _ | ⟨b, _ | ⟨b', _ | ⟨b'', rest⟩⟩⟩
  · exact h
  · rw [TelnetSession.authenticate, enter]
    split
    · rw [Tracks, hstate] at h
      unfold Tracks
      dsimp only [TelnetSession.send]
      rw [hstate, h.1]
      exact ⟨rfl, h.2⟩
    · exact h
  · rw [TelnetSession.authenticate, enter]
    split
    · exact h.enterLine hstate
    · exact h
  · exact h

theorem Follows.authenticate (h : Follows record s) (hstate : s.state = .authentication)
    (data : Bytes) : Follows (record ++ [(.authentication, data)]) (s.authenticate data) := by
  have hnone := h.confirmed (by simp [hstate])
  refine ⟨fun option hoption => .inr ?_, fun _ => ?_, ?_⟩
  · refine ConfirmedIn.append ((h.options option hoption).resolve_left ?_) _
    simp [hnone]
  · obtain ⟨_, _, _, _, _, heq⟩ := s.authenticate_eq data
    rw [heq]
    exact hnone
  · rw [typedIn_append, if_pos rfl]
    exact h.tracks.authenticate hstate data

theorem Follows.interact (h : Follows record s) (hstate : s.state = .interaction)
    (data : Bytes) : Follows (record ++ [(.interaction, data)]) (s.interact data) := by
  obtain ⟨_, _, _, _, _, heq⟩ := s.interact_eq data
  have htracks := h.tracks
  rw [Tracks, hstate] at htracks
  rw [heq]
  refine ⟨fun option hoption => (h.options option hoption).imp_right fun hin => hin.append _,
    fun _ => h.confirmed (by simp [hstate]), ?_⟩
  rw [Tracks, hstate, typedIn_append, if_neg (by simp)]
  exact htracks

theorem Follows.received (h : Follows record s) (data : Bytes) :
    Follows (record ++ [(s.state, data)]) (s.received data) := by
  unfold TelnetSession.received
  split
  · rename_i hempty
    subst hempty
    refine ⟨fun option hoption => (h.options option hoption).imp_right fun hin => hin.append _,
      h.confirmed, ?_⟩
    rw [typedIn_append]
    split
    · exact h.tracks
    · exact h.tracks
  · cases hstate : s.state with
    | negotiation => exact h.negotiate hstate data
    | authentication => exact h.authenticate hstate data
    | interaction => exact h.interact hstate data

theorem Follows.step {t : TelnetSession} {e : Event} (h : Follows record s) (hst : Step s e t) :
    Follows (record ++ (readIn s e).toList) t := by
  cases hst with
  | read _ => exact h.received _
  | _ =>
    change Follows (record ++ []) _
    rw [List.append_nil]
    exact ⟨h.options, h.confirmed, h.tracks⟩

end Steps

variable {lineCompleteCB : Bool} {s t : TelnetSession} {record : List (State × Bytes)}

theorem Run.follows (hrun : Run lineCompleteCB s record) : Follows record s := by
  have hstart : Follows [] (started lineCompleteCB) :=
    ⟨fun option hoption => .inl hoption, fun h => absurd rfl h, rfl⟩
  exact hrun.invariant hstart fun record s e t h hst => h.step hst

theorem Step.keeps_interaction {e : Event} (hst : Step s e t) (h : s.state = .interaction) :
    t.state = .interaction := by
  cases hst with
  | read _ =>
    unfold TelnetSession.received
    split
    · exact h
    · rename_i data _ _
      obtain ⟨_, _, _, _, _, heq⟩ := s.interact_eq data
      rw [h, heq]
      exact h
  | _ => exact h

theorem Step.lines_eq {e : Event} (hst : Step s e t) (h : s.state ≠ .interaction) :
    t.lines = s.lines := by
  cases hst with
  | read _ =>
    unfold TelnetSession.received
    split
    · rfl
    · rename_i data _ _
      cases hstate : s.state with
      | negotiation =>
        obtain ⟨_, _, _, _, _, _, heq⟩ := s.negotiate_eq data
        rw [heq]
      | authentication =>
        obtain ⟨_, _, _, _, _, heq⟩ := s.authenticate_eq data
        rw [heq]
      | interaction => exact absurd hstate h
  | _ => rfl

/-- In every run the session comes to `Interaction`, and its lines to `_lineCompleteCB`, only
behind both options and a login in the last two lines; it stays there from then on. -/
theorem interaction_follows_login (hrun : Run lineCompleteCB s record) :
    (s.state = .interaction → LoggedIn record) ∧
    (∀ e t, Step s e t → t.lines ≠ s.lines → LoggedIn record) ∧
    (s.state = .interaction →
      ∀ t, ReflTransGen (fun s t => ∃ e, Step s e t) s t → t.state = .interaction) := by
  have hfollows := hrun.follows
  have hlogin : s.state = .interaction → LoggedIn record := by
    intro hstate
    have htracks := hfollows.tracks
    rw [Tracks, hstate] at htracks
    refine ⟨fun option hoption => (hfollows.options option hoption).resolve_left ?_, htracks⟩
    simp [hfollows.confirmed (by simp [hstate])]
  have hkeeps : ∀ s t : TelnetSession, s.state = .interaction → (∃ e, Step s e t) →
      t.state = .interaction := by
    rintro s t hs ⟨e, hst⟩
    exact hst.keeps_interaction hs
  refine ⟨hlogin, fun e t hst hlines => hlogin ?_, fun hstate t => invariant hkeeps hstate⟩
  by_contra hother
  exact hlines (hst.lines_eq hother)

/-- The client confirms both options and types the name and the password, key by key. -/
def loginReads : List Bytes :=
  [[IAC, DO, Echo], [IAC, DO, SuppressGoAhead]] ++ (chars "testuser").map ([·]) ++
    [[CarriageReturn, NUL]] ++ (chars "testpassword").map ([·]) ++ [[CarriageReturn, NUL]]

theorem interaction_after_login : ((listening true).feed loginReads).state = .interaction ∧
    LoggedIn (noted readIn (listening true) loginReads) :=
  ⟨by decide +kernel, (interaction_follows_login
    (RecordedRun.reads (fun _ => rfl) true loginReads)).1 (by decide +kernel)⟩

end Telnet
end NetworkProtocols
