import Mathlib.Data.List.Destutter
import NetworkProtocols.Telnet.Login

/-!
# The cuts of what is typed

A client sends a stream of bytes, and the session reads it in pieces. Each state looks at one
read alone: an option is confirmed in two bytes of the same read, and a key is a read of one
size.
-/

namespace NetworkProtocols
namespace Telnet

open Bytes TelnetSession

/-- The size of `_recvBuffer`. -/
def recvBufferSize : ℕ := 512

def IsRead (data : Bytes) : Prop := 1 ≤ data.length ∧ data.length ≤ recvBufferSize

instance (data : Bytes) : Decidable (IsRead data) := inferInstanceAs (Decidable (_ ∧ _))

def Cuts (stream : Bytes) (reads : List Bytes) : Prop :=
  reads.flatten = stream ∧ ∀ data ∈ reads, IsRead data

instance (stream : Bytes) (reads : List Bytes) : Decidable (Cuts stream reads) :=
  inferInstanceAs (Decidable (_ ∧ ∀ data ∈ reads, IsRead data))

/-- What a session comes to, and the states that it passes through. -/
structure Outcome where
  passed : List State
  state : State
  optionsToConfirm : List Byte
  username : Bytes
  buffer : Bytes
  history : List Bytes
  lines : List Bytes
  deriving DecidableEq

def outcome (lineCompleteCB : Bool) (reads : List Bytes) : Outcome :=
  let s := (listening lineCompleteCB).feed reads
  let states := (noted readIn (listening lineCompleteCB) reads).map Prod.fst ++ [s.state]
  { passed := states.destutter (· ≠ ·), state := s.state, optionsToConfirm := s.optionsToConfirm,
    username := s.username, buffer := s.buffer, history := s.history, lines := s.lines }

def Uncut (lineCompleteCB : Bool) (stream : Bytes) : Prop :=
  ∀ reads reads' : List Bytes, Cuts stream reads → Cuts stream reads' →
    outcome lineCompleteCB reads = outcome lineCompleteCB reads'

section Reads

variable {s : TelnetSession}

theorem infix_of_confirmed {data : Bytes} {option : Byte} (h : option ∈ confirmed data) :
    [DO, option] <:+: data := by
  fun_induction confirmed data with
  | case1 => cases h
  | case2 b => cases h
  | case3 x rest hx ih =>
    rcases List.mem_cons.mp h with rfl | hrest
    · exact ⟨[], rest, rfl⟩
    · exact (ih hrest).trans (List.suffix_append [DO, x] rest).isInfix
  | case4 x rest hx ih => exact (ih h).trans (List.suffix_append [DO, x] rest).isInfix
  | case5 b x rest hb ih => exact (ih h).trans (List.suffix_append [b] (x :: rest)).isInfix

theorem received_unconfirmed (hstate : s.state = .negotiation) (hoptions : s.optionsToConfirm ≠ [])
    {data : Bytes} (hdata : ∀ option ∈ s.optionsToConfirm, option ∉ confirmed data) :
    s.received data = s := by
  unfold received
  split
  · rfl
  · have hkept : removeConfirmed data s.optionsToConfirm = s.optionsToConfirm := by
      rw [removeConfirmed_eq, List.filter_eq_self]
      intro option hoption
      exact decide_eq_true (hdata option hoption)
    rw [hstate]
    unfold TelnetSession.negotiate
    rw [hkept]
    exact if_neg hoptions

theorem feed_unconfirmed (hstate : s.state = .negotiation) (hoptions : s.optionsToConfirm ≠ [])
    {reads : List Bytes} (hreads : ∀ data ∈ reads, ∀ option ∈ s.optionsToConfirm,
      option ∉ confirmed data) :
    s.feed reads = s ∧ (noted readIn s reads).map Prod.fst =
      List.replicate reads.length .negotiation := by
  induction reads with
  | nil => exact ⟨rfl, rfl⟩
  | cons data reads ih =>
    obtain ⟨hdata, hrest⟩ := List.forall_mem_cons.mp hreads
    have hsame := received_unconfirmed hstate hoptions hdata
    obtain ⟨hfeed, hnoted⟩ := ih hrest
    have hfirst : s.feed (data :: reads) = (s.received data).feed reads := rfl
    rw [hfirst, noted, hsame]
    refine ⟨hfeed, ?_⟩
    rw [List.map_append, hnoted, readIn, hstate]
    rfl

theorem feed_bytes (hstate : s.state = .negotiation) (hoptions : s.optionsToConfirm ≠ [])
    (stream : Bytes) : s.feed (stream.map ([·])) = s := by
  refine (feed_unconfirmed hstate hoptions fun data hdata option _ => ?_).1
  obtain ⟨b, -, rfl⟩ := List.mem_map.mp hdata
  exact List.not_mem_nil

end Reads

theorem destutter_stay (state : State) (n : ℕ) :
    (List.replicate n state).destutter' (· ≠ ·) state = [state] := by
  induction n with
  | zero => rfl
  | succ n ih => rw [List.replicate_succ, List.destutter'_cons_neg _ (by simp), ih]

theorem cuts_bytes (stream : Bytes) : Cuts stream (stream.map ([·])) := by
  refine ⟨by rw [← List.flatMap_def, List.flatMap_singleton'], fun data hdata => ?_⟩
  obtain ⟨b, -, rfl⟩ := List.mem_map.mp hdata
  exact ⟨Nat.le_refl 1, show 1 ≤ recvBufferSize by decide⟩

theorem Cuts.append {a b : Bytes} {reads reads' : List Bytes} (h : Cuts a reads)
    (h' : Cuts b reads') : Cuts (a ++ b) (reads ++ reads') := by
  refine ⟨by rw [List.flatten_append, h.1, h'.1], fun data hdata => ?_⟩
  exact (List.mem_append.mp hdata).elim (h.2 data) (h'.2 data)

variable {lineCompleteCB : Bool} {stream : Bytes}

/-- A stream that confirms none of the options leaves the session as it is, however cut. -/
theorem outcome_unconfirmed {reads : List Bytes} (hcuts : Cuts stream reads)
    (h : ∀ option ∈ [Echo, SuppressGoAhead], ¬ [DO, option] <:+: stream) :
    outcome lineCompleteCB reads =
      { passed := [.negotiation], state := .negotiation,
        optionsToConfirm := [Echo, SuppressGoAhead], username := [], buffer := [], history := [],
        lines := [] } := by
  have hreads : ∀ data ∈ reads, ∀ option ∈ (listening lineCompleteCB).optionsToConfirm,
      option ∉ confirmed data := by
    intro data hdata option hoption hin
    have hstream := (infix_of_confirmed hin).trans (List.infix_of_mem_flatten hdata)
    rw [hcuts.1] at hstream
    exact h option hoption hstream
  obtain ⟨hfeed, hnoted⟩ := feed_unconfirmed (s := listening lineCompleteCB) rfl
    (List.cons_ne_nil _ _) hreads
  unfold outcome
  rw [hfeed, hnoted]
  dsimp only
  rw [show (listening lineCompleteCB).state = .negotiation from rfl, ← List.replicate_succ',
    List.replicate_succ, List.destutter_cons', destutter_stay]
  rfl

theorem received_confirmation {option : Byte} (hoption : option ∈ [Echo, SuppressGoAhead]) :
    ∃ other, ((listening lineCompleteCB).received [DO, option]).state = .negotiation ∧
      ((listening lineCompleteCB).received [DO, option]).optionsToConfirm = [other] := by
  rw [List.mem_pair] at hoption
  rcases hoption with rfl | rfl
  · exact ⟨SuppressGoAhead, rfl, rfl⟩
  · exact ⟨Echo, rfl, rfl⟩

/-- Of a confirmation the session sees one piece in one read, and nothing byte by byte. -/
theorem cut_of_confirmation {option : Byte} (hoption : option ∈ [Echo, SuppressGoAhead])
    (h : [DO, option] <:+: stream) : ¬ Uncut lineCompleteCB stream := by
  obtain ⟨front, back, rfl⟩ := h
  intro hsame
  have hpair : Cuts [DO, option] [[DO, option]] := by
    refine ⟨rfl, fun data hdata => ?_⟩
    rw [List.mem_singleton.mp hdata]
    exact ⟨show 1 ≤ 2 by decide, show 2 ≤ recvBufferSize by decide⟩
  have heq := congrArg Outcome.optionsToConfirm
    (hsame _ _ (((cuts_bytes front).append hpair).append (cuts_bytes back)) (cuts_bytes _))
  have hbytes := feed_bytes (s := listening lineCompleteCB) rfl (List.cons_ne_nil _ _)
  obtain ⟨other, hstate, hoptions⟩ := @received_confirmation lineCompleteCB option hoption
  have hback := feed_bytes hstate (hoptions ▸ List.cons_ne_nil _ _) back
  have hpieces : (listening lineCompleteCB).feed
      (front.map ([·]) ++ [[DO, option]] ++ back.map ([·])) =
      (listening lineCompleteCB).received [DO, option] := by
    rw [feed, List.foldl_append, List.foldl_append]
    change ((((listening lineCompleteCB).feed (front.map ([·]))).received [DO, option]).feed
      (back.map ([·]))) = _
    rw [hbytes, hback]
  have hone : [other] = [Echo, SuppressGoAhead] := by
    unfold outcome at heq
    dsimp only at heq
    rwa [hpieces, hbytes, hoptions] at heq
  exact absurd (congrArg List.length hone) (show ¬ 1 = 2 by decide)

/-- The cuts make no difference exactly when the stream nowhere confirms one of the options. -/
theorem uncut_iff (lineCompleteCB : Bool) (stream : Bytes) : Uncut lineCompleteCB stream ↔
    ∀ option ∈ [Echo, SuppressGoAhead], ¬ [DO, option] <:+: stream := by
  constructor
  · intro h option hoption hin
    exact cut_of_confirmation hoption hin h
  · intro h reads reads' hcuts hcuts'
    rw [outcome_unconfirmed hcuts h, outcome_unconfirmed hcuts' h]

/-- A client that logs in key by key comes to `Interaction`; the same bytes in one read leave the
session without a username. -/
theorem login_in_one_read : Cuts loginReads.flatten loginReads ∧
    Cuts loginReads.flatten [loginReads.flatten] ∧
    (outcome true loginReads).state = .interaction ∧
    (outcome true [loginReads.flatten]).state = .authentication ∧
    ¬ Uncut true loginReads.flatten := by
  have hkeys : Cuts loginReads.flatten loginReads := by decide +kernel
  have hone : Cuts loginReads.flatten [loginReads.flatten] := by decide +kernel
  have hin : (outcome true loginReads).state = .interaction := by decide +kernel
  have hout : (outcome true [loginReads.flatten]).state = .authentication := by decide +kernel
  refine ⟨hkeys, hone, hin, hout, fun h => ?_⟩
  rw [h loginReads [loginReads.flatten] hkeys hone, hout] at hin
  cases hin

end Telnet
end NetworkProtocols
