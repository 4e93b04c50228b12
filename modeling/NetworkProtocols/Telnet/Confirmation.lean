import NetworkProtocols.Telnet.Login

/-!
# What confirms an option

The loop over a read in `Negotiation` looks for the byte of DO, wherever it stands, and not for
the IAC in front of it. An option code and the inside of a subnegotiation can be that byte too.
-/

namespace NetworkProtocols
namespace Telnet

open Bytes Relation Transition TelnetSession

def SE : Byte := 240
def SB : Byte := 250
def WONT : Byte := 252

/-- A complete command, or a byte of data. -/
inductive Token
  | option (verb : { v : Byte // v ∈ [WILL, WONT, DO, DONT] }) (code : Byte)
  | subnegotiation (contents : Bytes)
  | command (code : { c : Byte // SE ≤ c ∧ c ∉ [SB, WILL, WONT, DO, DONT] })
  | data (b : { b : Byte // b < SE })
  deriving DecidableEq

namespace Token

def bytes : Token → Bytes
  | option verb code => [IAC, verb, code]
  | subnegotiation contents => [IAC, SB] ++ contents ++ [IAC, SE]
  | command code => [IAC, code]
  | data b => [b]

def asks (code : Byte) : Token := .option ⟨DO, by decide⟩ code

def wire (tokens : List Token) : Bytes := tokens.flatMap bytes

end Token

def BehindDo (option : Byte) (bytes : Bytes) : Prop :=
  ∃ front n back, bytes = front ++ (List.replicate (2 * n + 1) DO ++ option :: back) ∧
    front.getLast? ≠ some DO

theorem last_tail_ne {b x : Byte} {front : Bytes} (h : (b :: front).getLast? ≠ some x) :
    front.getLast? ≠ some x := by
  cases front with
  | nil => simp
  | cons c front => rwa [List.getLast?_cons_cons] at h

/-- Behind a byte other than DO the loop starts afresh. -/
theorem mem_confirmed_append {option : Byte} {front : Bytes} (rest : Bytes)
    (hfront : front.getLast? ≠ some DO) (h : option ∈ confirmed rest) :
    option ∈ confirmed (front ++ rest) := by
  fun_induction confirmed front with
  | case1 => exact h
  | case2 b =>
    have hb : b ≠ DO := fun heq => hfront (congrArg some heq)
    cases rest with
    | nil => cases h
    | cons x rest =>
      rw [List.singleton_append, confirmed, if_neg hb]
      exact h
  | case3 x front hx ih =>
    rw [List.cons_append, List.cons_append, confirmed, if_pos rfl, if_pos hx]
    exact List.mem_cons_of_mem _ (ih (last_tail_ne (last_tail_ne hfront)))
  | case4 x front hx ih =>
    rw [List.cons_append, List.cons_append, confirmed, if_pos rfl, if_neg hx]
    exact ih (last_tail_ne (last_tail_ne hfront))
  | case5 b x front hb ih =>
    rw [List.cons_append, List.cons_append, confirmed, if_neg hb]
    exact ih (last_tail_ne hfront)

theorem mem_confirmed_run {option : Byte} (hiac : option ≠ IAC) (n : ℕ) (back : Bytes) :
    option ∈ confirmed (List.replicate (2 * n + 1) DO ++ option :: back) := by
  induction n with
  | zero =>
    have hone : List.replicate (2 * 0 + 1) DO ++ option :: back = DO :: option :: back := rfl
    rw [hone, confirmed, if_pos rfl, if_pos hiac]
    exact List.mem_cons_self
  | succ n ih =>
    have htwo : List.replicate (2 * (n + 1) + 1) DO ++ option :: back =
        DO :: DO :: (List.replicate (2 * n + 1) DO ++ option :: back) := rfl
    rw [htwo, confirmed, if_pos rfl, if_pos (by decide)]
    exact List.mem_cons_of_mem _ ih

theorem BehindDo.cons {option b : Byte} {bytes : Bytes} (h : BehindDo option bytes) (hb : b ≠ DO) :
    BehindDo option (b :: bytes) := by
  obtain ⟨front, n, back, rfl, hfront⟩ := h
  refine ⟨b :: front, n, back, rfl, ?_⟩
  cases front with
  | nil => simpa using hb
  | cons c front => rwa [List.getLast?_cons_cons]

/-- A pair that starts with DO is put in front, and may prolong the run. -/
theorem BehindDo.pair {option x : Byte} {bytes : Bytes} (h : BehindDo option bytes) :
    BehindDo option (DO :: x :: bytes) := by
  obtain ⟨front, n, back, rfl, hfront⟩ := h
  cases front with
  | nil =>
    by_cases hx : x = DO
    · subst hx
      exact ⟨[], n + 1, back, rfl, by simp⟩
    · exact ⟨[DO, x], n, back, rfl, by simpa using hx⟩
  | cons c front =>
    exact ⟨DO :: x :: c :: front, n, back, rfl, by
      rwa [List.getLast?_cons_cons, List.getLast?_cons_cons]⟩

theorem mem_confirmed_iff {option : Byte} (hiac : option ≠ IAC) (bytes : Bytes) :
    option ∈ confirmed bytes ↔ BehindDo option bytes := by
  constructor
  · intro h
    fun_induction confirmed bytes with
    | case1 => cases h
    | case2 b => cases h
    | case3 x rest hx ih =>
      rcases List.mem_cons.mp h with rfl | hrest
      · exact ⟨[], 0, rest, rfl, by simp⟩
      · exact (ih hrest).pair
    | case4 x rest hx ih => exact (ih h).pair
    | case5 b x rest hb ih => exact (ih h).cons hb
  · rintro ⟨front, n, back, rfl, hfront⟩
    exact mem_confirmed_append _ hfront (mem_confirmed_run hiac n back)

theorem behind_of_asks {option : Byte} {tokens : List Token} (h : .asks option ∈ tokens) :
    BehindDo option (Token.wire tokens) := by
  obtain ⟨front, back, rfl⟩ := List.append_of_mem h
  refine ⟨Token.wire front ++ [IAC], 0, Token.wire back, ?_, ?_⟩
  · simp [Token.wire, Token.bytes, Token.asks]
  · rw [List.getLast?_concat]
    decide

variable {lineCompleteCB : Bool} {s : TelnetSession} {record : List (State × Bytes)}

theorem negotiate_options (data : Bytes) (s : TelnetSession) :
    (s.negotiate data).optionsToConfirm = removeConfirmed data s.optionsToConfirm := by
  unfold TelnetSession.negotiate
  dsimp only
  split <;> rfl

/-- A session has no options to confirm but the two that it offered. -/
theorem Run.options (hrun : Run lineCompleteCB s record) :
    ∀ option ∈ s.optionsToConfirm, option ∈ [Echo, SuppressGoAhead] := by
  refine hrun.invariant (P := fun _ s => ∀ option ∈ s.optionsToConfirm,
    option ∈ [Echo, SuppressGoAhead]) (fun _ h => h) fun record s e t h hst => ?_
  cases hst with
  | @read data _ =>
    intro option hoption
    refine h option ?_
    unfold TelnetSession.received at hoption
    split at hoption
    · exact hoption
    split at hoption
    · rw [negotiate_options, removeConfirmed_eq] at hoption
      exact (List.mem_filter.mp hoption).1
    · obtain ⟨_, _, _, _, _, heq⟩ := s.authenticate_eq data
      rw [heq] at hoption
      exact hoption
    · obtain ⟨_, _, _, _, _, heq⟩ := s.interact_eq data
      rw [heq] at hoption
      exact hoption
  | _ => exact h

theorem received_options (hstate : s.state = .negotiation) (data : Bytes) :
    (s.received data).optionsToConfirm = s.optionsToConfirm.filter (· ∉ confirmed data) := by
  unfold TelnetSession.received
  split
  · rename_i hempty
    subst hempty
    exact (List.filter_eq_self.mpr (by simp [confirmed])).symm
  · rw [hstate, ← removeConfirmed_eq]
    exact negotiate_options data s

/-- An option is removed for its IAC DO alone exactly when its byte stands behind no odd number
of bytes DO, or the command is there all the same. -/
theorem option_confirmed_iff (hrun : Run lineCompleteCB s record) (hstate : s.state = .negotiation)
    (tokens : List Token) {option : Byte} (hoption : option ∈ s.optionsToConfirm) :
    (option ∉ (s.received (Token.wire tokens)).optionsToConfirm ↔ .asks option ∈ tokens) ↔
      (BehindDo option (Token.wire tokens) → .asks option ∈ tokens) := by
  have hiac : option ≠ IAC := by
    have hoffered := hrun.options option hoption
    rw [List.mem_pair] at hoffered
    rcases hoffered with rfl | rfl <;> decide
  have hremoved : option ∉ (s.received (Token.wire tokens)).optionsToConfirm ↔
      BehindDo option (Token.wire tokens) := by
    rw [received_options hstate, List.mem_filter, decide_eq_true_eq, mem_confirmed_iff hiac,
      not_and_not_right, forall_prop_of_true hoption]
  rw [hremoved]
  exact ⟨fun h => h.mp, fun h => ⟨h, behind_of_asks⟩⟩

/-- A client that asks for Echo confirms it. -/
theorem option_confirmed_echo :
    Echo ∉ ((listening true).received (Token.wire [.asks Echo])).optionsToConfirm := by
  have hrun : Run true ((listening true).feed []) (noted readIn (listening true) []) :=
    RecordedRun.reads (fun _ => rfl) true []
  exact ((option_confirmed_iff hrun rfl [.asks Echo] (by decide)).mpr
    fun _ => List.mem_cons_self).mpr List.mem_cons_self

/-- In a subnegotiation the byte of DO and that of Echo confirm it too. -/
theorem option_confirmed_inside : ∃ tokens : List Token,
    Run true (listening true) [] ∧ (listening true).state = .negotiation ∧
    Echo ∈ (listening true).optionsToConfirm ∧
    Token.wire tokens = [IAC, SB, DO, Echo, IAC, SE] ∧ .asks Echo ∉ tokens ∧
    Echo ∉ ((listening true).received (Token.wire tokens)).optionsToConfirm :=
  ⟨[.subnegotiation [DO, Echo]], RecordedRun.reads (fun _ => rfl) true [], rfl, by decide, rfl,
    by decide, by decide⟩

end Telnet
end NetworkProtocols
