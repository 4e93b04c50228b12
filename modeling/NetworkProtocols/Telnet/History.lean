import NetworkProtocols.Lib.Recent
import NetworkProtocols.Telnet.Login

/-!
# The history

The lines completed in a run are recorded. The history holds the last eighty of those that were
put in, and the position in it moves as a cursor.
-/

namespace NetworkProtocols
namespace Telnet

open Bytes Relation Transition TelnetSession

/-- The line that an event completes. -/
def completes (s : TelnetSession) : Event → Option Bytes
  | .read data =>
    if s.state = .interaction ∧ data = [CarriageReturn, NUL] then some s.buffer else none
  | _ => none

abbrev LineRun (lineCompleteCB : Bool) (s : TelnetSession) (completed : List Bytes) : Prop :=
  RecordedRun completes lineCompleteCB s completed

/-- The history holds what was put in last, and the position is inside. -/
structure Keeps (completed : List Bytes) (s : TelnetSession) : Prop where
  history : s.history = (Recent.insertions maxHistoryLength completed).rtake maxHistoryLength
  position : s.history ≠ [] → s.historyPos < s.history.length

section Steps

variable {completed : List Bytes} {s : TelnetSession}

theorem addToHistory_history (line : Bytes) : (s.addToHistory line).history =
    if line ∈ s.history then s.history
    else if (s.history ++ [line]).length > maxHistoryLength then (s.history ++ [line]).tail
    else s.history ++ [line] := by
  unfold addToHistory
  by_cases hline : line ∈ s.history
  · rw [if_pos hline]
    dsimp only
    rw [if_neg (by rw [List.idxOf_eq_length_iff]; exact not_not.mpr hline)]
  · rw [if_neg hline]
    dsimp only
    rw [if_pos (List.idxOf_eq_length hline)]

theorem addToHistory_entry (line : Bytes) :
    (s.addToHistory line).history[(s.addToHistory line).historyPos]? = some line := by
  unfold addToHistory
  dsimp only
  split
  · dsimp only
    rw [← List.getLast?_eq_getElem?]
    split
    · rename_i hfull
      rw [List.getLast?_tail, if_neg, List.getLast?_concat]
      intro hone
      rw [hone] at hfull
      exact absurd hfull (by decide)
    · exact List.getLast?_concat
  · rename_i hline
    rw [List.idxOf_eq_length_iff, not_not] at hline
    exact List.getElem?_idxOf hline

theorem addToHistory_keeps (h : Keeps completed s) (line : Bytes) :
    Keeps (completed ++ [line]) (s.addToHistory line) := by
  refine ⟨?_, fun _ => ?_⟩
  · rw [addToHistory_history, Recent.insertions_append, Recent.insert, ← h.history]
    split
    · exact h.history
    · rw [Recent.rtake_append, ← h.history]
  · have hentry := addToHistory_entry (s := s) line
    exact (List.getElem?_eq_some_iff.mp hentry).1

theorem processEscapeSequence_arrow {key : Bytes} (hkey : key ∈ [arrowUp, arrowDown])
    (hentries : 1 < s.history.length) : s.processEscapeSequence key = showEntry
      { s with historyPos := if key = arrowDown then Recent.next s.history.length s.historyPos
        else Recent.previous s.history.length s.historyPos } := by
  unfold processEscapeSequence
  rw [List.mem_pair] at hkey
  rcases hkey with rfl | rfl
  · have hother : arrowUp ≠ arrowDown := by decide
    rw [if_neg (by decide), if_neg (by decide), if_neg hother, if_pos rfl, if_pos hentries,
      if_neg hother]
    rfl
  · rw [if_neg (by decide), if_neg (by decide), if_pos rfl, if_pos hentries, if_pos rfl]
    rfl

theorem processEscapeSequence_none {key : Bytes}
    (h : key ∉ [arrowUp, arrowDown] ∨ ¬ 1 < s.history.length) :
    s.processEscapeSequence key = s := by
  unfold processEscapeSequence
  split
  · rfl
  split
  · rfl
  split
  · rename_i hdown
    exact if_neg (h.resolve_left fun hkey => hkey (by simp [hdown]))
  split
  · rename_i hup
    exact if_neg (h.resolve_left fun hkey => hkey (by simp [hup]))
  · rfl

@[simp] theorem showEntry_history : s.showEntry.history = s.history := rfl
@[simp] theorem showEntry_historyPos : s.showEntry.historyPos = s.historyPos := rfl

theorem showEntry_buffer (h : s.historyPos < s.history.length) :
    s.showEntry.history[s.showEntry.historyPos]? = some s.showEntry.buffer := by
  have hbuffer : s.showEntry.buffer = s.history.getD s.historyPos [] := rfl
  rw [showEntry_history, showEntry_historyPos, hbuffer, List.getD_eq_getElem?_getD,
    List.getElem?_eq_getElem h, Option.getD_some]

theorem processEscapeSequence_keeps (h : Keeps completed s) (key : Bytes) :
    Keeps completed (s.processEscapeSequence key) := by
  by_cases harrow : key ∈ [arrowUp, arrowDown] ∧ 1 < s.history.length
  · obtain ⟨hkey, hentries⟩ := harrow
    have hpos := h.position (List.ne_nil_of_length_pos (by omega))
    rw [processEscapeSequence_arrow hkey hentries]
    refine ⟨h.history, fun _ => ?_⟩
    rw [showEntry_history, showEntry_historyPos]
    dsimp only
    split
    · exact Recent.next_lt hpos
    · exact Recent.previous_lt hpos
  · rw [processEscapeSequence_none (not_and_or.mp harrow)]
    exact h

theorem received_history (data : Bytes) (hstate : s.state ≠ .interaction) :
    (s.received data).history = s.history ∧ (s.received data).historyPos = s.historyPos := by
  unfold received
  split
  · exact ⟨rfl, rfl⟩
  · cases hother : s.state with
    | negotiation =>
      obtain ⟨_, _, _, _, _, _, heq⟩ := s.negotiate_eq data
      rw [heq]
      exact ⟨rfl, rfl⟩
    | authentication =>
      obtain ⟨_, _, _, _, _, heq⟩ := s.authenticate_eq data
      rw [heq]
      exact ⟨rfl, rfl⟩
    | interaction => exact absurd hother hstate

theorem Keeps.other (h : Keeps completed s) {t : TelnetSession} {e : Event}
    (hnone : completes s e = none) (hhistory : t.history = s.history)
    (hpos : t.historyPos = s.historyPos) : Keeps (completed ++ (completes s e).toList) t := by
  rw [hnone, Option.toList_none, List.append_nil]
  exact ⟨hhistory.trans h.history, by rw [hhistory, hpos]; exact h.position⟩

theorem completeLine_history : s.completeLine.history = (s.addToHistory s.buffer).history ∧
    s.completeLine.historyPos = (s.addToHistory s.buffer).historyPos := by
  unfold completeLine
  cases s.lineCompleteCB with
  | false => exact ⟨rfl, rfl⟩
  | true =>
    unfold addToHistory
    dsimp only
    simp only [if_true]
    split
    · exact ⟨rfl, rfl⟩
    · exact ⟨rfl, rfl⟩

theorem completeLine_keeps (h : Keeps completed s) :
    Keeps (completed ++ [s.buffer]) s.completeLine := by
  obtain ⟨hhistory, hpos⟩ := completeLine_history (s := s)
  have hadded := addToHistory_keeps h s.buffer
  exact ⟨hhistory.trans hadded.history, by rw [hhistory, hpos]; exact hadded.position⟩

theorem interact_keeps (h : Keeps completed s) (hstate : s.state = .interaction) (data : Bytes) :
    Keeps (completed ++ (completes s (.read data)).toList) (s.interact data) := by
  have hcompletes : completes s (.read data) =
      if data = [CarriageReturn, NUL] then some s.buffer else none := by
    simp [completes, hstate]
  rcases data with _ | ⟨b, _ | ⟨b', _ | ⟨b'', _ | ⟨b₃, rest⟩⟩⟩⟩
  · exact h.other (by simpa using hcompletes) rfl rfl
  · have hnone : completes s (.read [b]) = none := by simpa using hcompletes
    rw [TelnetSession.interact]
    split
    · exact h.other hnone rfl rfl
    · split
      · exact h.other hnone rfl rfl
      · exact h.other hnone rfl rfl
  · rw [TelnetSession.interact]
    split
    · rename_i hend
      obtain ⟨rfl, rfl⟩ := hend
      rw [hcompletes, if_pos rfl]
      exact completeLine_keeps h
    · rename_i hother
      exact h.other (by rw [hcompletes, if_neg (by simpa using hother)]) rfl rfl
  · have hnone : completes s (.read [b, b', b'']) = none := by simpa using hcompletes
    rw [TelnetSession.interact, hnone, Option.toList_none, List.append_nil]
    split
    · exact processEscapeSequence_keeps h _
    · exact h
  · exact h.other (by simpa using hcompletes) rfl rfl

theorem Keeps.step {t : TelnetSession} {e : Event} (h : Keeps completed s) (hst : Step s e t) :
    Keeps (completed ++ (completes s e).toList) t := by
  cases hst with
  | @read data hpending =>
    by_cases hstate : s.state = .interaction
    · unfold received
      split
      · rename_i hempty
        exact h.other (by simp [completes, hempty]) rfl rfl
      · rw [hstate]
        exact interact_keeps h hstate data
    · obtain ⟨hhistory, hpos⟩ := received_history data hstate
      exact h.other (by simp [completes, hstate]) hhistory hpos
  | _ =>
    change Keeps (completed ++ []) _
    rw [List.append_nil]
    exact ⟨h.history, h.position⟩

theorem received_sequence {key : Bytes} (hstate : s.state = .interaction)
    (hkey : key ∈ [arrowUp, arrowDown, arrowRight, arrowLeft]) :
    s.received key = s.processEscapeSequence key := by
  unfold received
  rw [hstate]
  simp only [List.mem_cons, List.not_mem_nil, or_false] at hkey
  rcases hkey with rfl | rfl | rfl | rfl <;> rfl

def AtEntry (s : TelnetSession) : Prop := s.history[s.historyPos]? = some s.buffer

instance (s : TelnetSession) : Decidable (AtEntry s) := inferInstanceAs (Decidable (_ = _))

theorem feed_arrows {keys : List Bytes} (hkeys : ∀ key ∈ keys, key ∈ [arrowUp, arrowDown])
    (hstate : s.state = .interaction) (hentries : 1 < s.history.length)
    (hpos : s.historyPos < s.history.length) :
    (s.feed keys).history = s.history ∧ (s.feed keys).historyPos < s.history.length ∧
      ((s.feed keys).historyPos : ℤ) ≡
        s.historyPos + keys.count arrowDown - keys.count arrowUp [ZMOD s.history.length] ∧
      (keys ≠ [] ∨ AtEntry s → AtEntry (s.feed keys)) := by
  induction keys generalizing s with
  | nil => exact ⟨rfl, hpos, by simp [feed], fun h => h.resolve_left fun hne => hne rfl⟩
  | cons key keys ih =>
    obtain ⟨hkey, hrest⟩ := List.forall_mem_cons.mp hkeys
    have hsequence : key ∈ [arrowUp, arrowDown, arrowRight, arrowLeft] :=
      List.mem_append_left [arrowRight, arrowLeft] hkey
    have hreceived := (received_sequence hstate hsequence).trans
      (processEscapeSequence_arrow hkey hentries)
    have hmoved : (s.received key).historyPos < s.history.length := by
      rw [hreceived, showEntry_historyPos]
      dsimp only
      split
      · exact Recent.next_lt hpos
      · exact Recent.previous_lt hpos
    have hhistory : (s.received key).history = s.history := by rw [hreceived, showEntry_history]
    have hentry : AtEntry (s.received key) := by
      rw [hreceived] at hmoved ⊢
      exact showEntry_buffer hmoved
    have hinteraction : (s.received key).state = .interaction := by
      rw [hreceived]
      exact hstate
    have hstep : ((s.received key).historyPos : ℤ) ≡ s.historyPos +
        (if key = arrowDown then 1 else -1) [ZMOD s.history.length] := by
      rw [hreceived, showEntry_historyPos]
      dsimp only
      split
      · exact Recent.next_modEq hpos
      · exact Recent.previous_modEq hpos
    obtain ⟨hfed, hlt, hmod, hat⟩ := ih hrest hinteraction (by rwa [hhistory]) (by rwa [hhistory])
    rw [hhistory] at hfed hlt hmod
    refine ⟨hfed, hlt, ?_, fun _ => hat (.inr hentry)⟩
    have hcounts : ((key :: keys).count arrowDown : ℤ) - (key :: keys).count arrowUp =
        (if key = arrowDown then 1 else -1) + (keys.count arrowDown - keys.count arrowUp) := by
      rw [List.mem_pair] at hkey
      rcases hkey with rfl | rfl
      · rw [List.count_cons_of_ne (by decide), List.count_cons_self, if_neg (by decide)]
        omega
      · rw [List.count_cons_self, List.count_cons_of_ne (by decide), if_pos rfl]
        omega
    rw [add_sub_assoc] at hmod ⊢
    rw [hcounts, ← add_assoc]
    exact hmod.trans (hstep.add_right _)

end Steps

variable {lineCompleteCB : Bool} {s : TelnetSession} {completed : List Bytes}

theorem LineRun.keeps (hrun : LineRun lineCompleteCB s completed) : Keeps completed s := by
  have hstart : Keeps [] (started lineCompleteCB) := ⟨rfl, fun h => absurd rfl h⟩
  exact hrun.invariant hstart fun completed s e t h hst => h.step hst

/-- A completed line is the entry at the position; one that is new to a full history pushes the
first entry out and leaves the others in their order. -/
def TakesLines (s : TelnetSession) : Prop :=
  let t := s.received [CarriageReturn, NUL]
  t.history[t.historyPos]? = some s.buffer ∧
    (s.buffer ∉ s.history → s.history.length = maxHistoryLength →
      t.history = s.history.tail ++ [s.buffer])

/-- Up and Down in any order move the position around the history and fetch the entry. -/
def Browses (s : TelnetSession) : Prop :=
  ∀ keys : List Bytes, (∀ key ∈ keys, key ∈ [arrowUp, arrowDown]) →
    let t := s.feed keys
    t.history = s.history ∧
      (t.historyPos : ℤ) =
        (s.historyPos + keys.count arrowDown - keys.count arrowUp) % s.history.length ∧
      (keys ≠ [] → AtEntry t)

theorem takesLines (hstate : s.state = .interaction) : TakesLines s := by
  have hreceived : s.received [CarriageReturn, NUL] = s.completeLine := by
    unfold received
    rw [hstate]
    rfl
  obtain ⟨hhistory, hpos⟩ := completeLine_history (s := s)
  unfold TakesLines
  dsimp only
  rw [hreceived, hhistory, hpos]
  refine ⟨addToHistory_entry s.buffer, fun hnew hfull => ?_⟩
  rw [addToHistory_history, if_neg hnew, if_pos, List.tail_append_of_ne_nil]
  · exact List.ne_nil_of_length_pos (by rw [hfull]; decide)
  · rw [List.length_append, hfull]
    exact Nat.lt_succ_self _

/-- In every state that a session comes to, the history is well formed: the last eighty lines
that were put in, in their order, with a position inside, and the keys move in it. -/
theorem history_well_formed (hrun : LineRun lineCompleteCB s completed) :
    s.history.length ≤ maxHistoryLength ∧ s.history.Nodup ∧
    (s.history ≠ [] → s.historyPos < s.history.length) ∧
    s.history = (Recent.insertions maxHistoryLength completed).rtake maxHistoryLength ∧
    (s.state = .interaction → TakesLines s ∧ (2 ≤ s.history.length → Browses s)) := by
  have hkeeps := hrun.keeps
  refine ⟨?_, ?_, hkeeps.position, hkeeps.history, fun hstate => ⟨takesLines hstate, ?_⟩⟩
  · rw [hkeeps.history]
    exact Recent.rtake_length_le _
  · rw [hkeeps.history]
    exact Recent.insertions_nodup completed
  · intro hentries keys hkeys
    have hpos := hkeeps.position (List.ne_nil_of_length_pos (by omega))
    obtain ⟨hhistory, hlt, hmod, hentry⟩ := feed_arrows hkeys hstate hentries hpos
    exact ⟨hhistory, Recent.eq_emod hlt hmod, fun hne => hentry (.inl hne)⟩

def twoLines : List Bytes :=
  loginReads ++ [[97], [CarriageReturn, NUL], [98], [CarriageReturn, NUL], arrowUp, arrowUp]

theorem history_two_lines :
    ((listening true).feed twoLines).history = [chars "a", chars "b"] ∧
      ((listening true).feed twoLines).history.Nodup :=
  ⟨by decide +kernel, (history_well_formed
    (RecordedRun.reads (fun _ => rfl) true twoLines)).2.1⟩

end Telnet
end NetworkProtocols
