import NetworkProtocols.Lib.Terminal
import NetworkProtocols.Telnet.History

/-!
# The line that the client sees

A key that changes the end of the line is echoed, and for any other the line is erased and drawn
again. The cursor is sent home by eighty columns, whatever the column it stands in.
-/

namespace NetworkProtocols
namespace Telnet

open Bytes Relation Transition TelnetSession Terminal

def IsKey (data : Bytes) : Prop :=
  (∃ b, isprint b = true ∧ data = [b]) ∨ data = [BackSpace] ∨ data = [CarriageReturn, NUL] ∨
    data ∈ [arrowUp, arrowDown, arrowRight, arrowLeft]

/-- The key has the line drawn again: of two entries the arrows fetch one. -/
def Redraws (s : TelnetSession) (key : Bytes) : Prop :=
  key = [BackSpace] ∨ key = [CarriageReturn, NUL] ∨
    key ∈ [arrowUp, arrowDown] ∧ 1 < s.history.length

instance (s : TelnetSession) (key : Bytes) : Decidable (Redraws s key) :=
  inferInstanceAs (Decidable (_ ∨ _ ∨ _))

def homeColumns : ℕ := 80

/-- The screen behind some keys, for a client with an empty line when the first one is typed. -/
def screen (s : TelnetSession) (keys : List Bytes) : Screen :=
  ({} : Screen).display ((s.feed keys).sent.drop s.sent.length).flatten

/-- What is typed and what is kept can be printed. -/
structure Legible (s : TelnetSession) : Prop where
  buffer : ∀ b ∈ s.buffer, isprint b = true
  history : ∀ line ∈ s.history, ∀ b ∈ line, isprint b = true

theorem printable_of_isprint {b : Byte} (h : isprint b = true) : Printable b := by
  simpa [isprint, Printable] using h

section Keys

variable {s : TelnetSession}

/-- What a key makes of the line, and what it sends. -/
inductive Typed (s t : TelnetSession) (key : Bytes) : Prop
  | echo (b : Byte) (hb : isprint b = true) (hkey : ¬ Redraws s key)
      (buffer : t.buffer = s.buffer ++ [b]) (sent : t.sent = s.sent ++ [[b]])
  | redraw (hkey : Redraws s key)
      (sent : ∃ more, t.sent = s.sent ++ more ∧ more.flatten = eraseLine ++ home ++ t.buffer)
  | nothing (hkey : ¬ Redraws s key) (buffer : t.buffer = s.buffer) (sent : t.sent = s.sent)

theorem completeLine_typed : s.completeLine.buffer = [] ∧
    s.completeLine.sent = s.sent ++ [eraseLine, home] := by
  have hadd : ∀ (s : TelnetSession) (line : Bytes), (s.addToHistory line).sent = s.sent := by
    intro s line
    unfold addToHistory
    dsimp only
    split <;> rfl
  unfold completeLine
  dsimp only
  refine ⟨rfl, ?_⟩
  simp only [sendEraseLine, sendLine, send, hadd, List.append_assoc]
  split <;> rfl

theorem showEntry_sent : s.showEntry.sent = s.sent ++ [eraseLine, home, s.showEntry.buffer] := by
  simp [showEntry, sendEraseLine, sendLine, send]

theorem eraseLast_sent : s.eraseLast.sent = s.sent ++ [eraseLine, home, s.eraseLast.buffer] := by
  simp [eraseLast, sendEraseLine, sendLine, send]

theorem received_typed (hstate : s.state = .interaction) {key : Bytes} (hkey : IsKey key) :
    Typed s (s.received key) key := by
  have hinteract : key ≠ [] → s.received key = s.interact key := by
    intro hne
    rw [received, if_neg hne, hstate]
  have hflat : ∀ line : Bytes, [eraseLine, home, line].flatten = eraseLine ++ home ++ line := by
    intro line
    simp
  rcases hkey with ⟨b, hb, rfl⟩ | rfl | rfl | harrow
  · have hother : ¬ Redraws s [b] := by
      rintro (hback | hend | ⟨hup, -⟩)
      · obtain rfl := List.singleton_inj.mp hback
        exact absurd hb (by decide)
      · cases hend
      · simp [arrowUp, arrowDown] at hup
    have hecho : s.received [b] = { s with buffer := s.buffer ++ [b] }.send [b] := by
      rw [hinteract (by simp), TelnetSession.interact, if_pos hb]
    exact .echo b hb hother (by rw [hecho]; rfl) (by rw [hecho]; rfl)
  · have hback : s.received [BackSpace] = s.eraseLast := by
      rw [hinteract (by simp)]
      rfl
    rw [hback]
    exact .redraw (.inl rfl) ⟨_, eraseLast_sent, hflat _⟩
  · have hend : s.received [CarriageReturn, NUL] = s.completeLine := by
      rw [hinteract (by simp)]
      rfl
    obtain ⟨hbuffer, hsent⟩ := completeLine_typed (s := s)
    rw [hend]
    exact .redraw (.inr (.inl rfl)) ⟨_, hsent, by rw [hbuffer]; rfl⟩
  · rw [received_sequence hstate harrow]
    by_cases hmoves : key ∈ [arrowUp, arrowDown] ∧ 1 < s.history.length
    · rw [processEscapeSequence_arrow hmoves.1 hmoves.2]
      exact .redraw (.inr (.inr hmoves)) ⟨_, showEntry_sent, hflat _⟩
    · have hnot : ¬ Redraws s key := by
        rintro (rfl | rfl | hmoves')
        · simp [arrowUp, arrowDown, arrowRight, arrowLeft] at harrow
        · simp [arrowUp, arrowDown, arrowRight, arrowLeft] at harrow
        · exact hmoves hmoves'
      rw [processEscapeSequence_none (not_and_or.mp hmoves)]
      exact .nothing hnot rfl rfl

theorem Typed.sent_eq {t : TelnetSession} {key : Bytes} (h : Typed s t key) :
    ∃ more, t.sent = s.sent ++ more := by
  cases h with
  | echo b _ _ _ hsent => exact ⟨_, hsent⟩
  | redraw _ hsent =>
    obtain ⟨more, hsent, -⟩ := hsent
    exact ⟨more, hsent⟩
  | nothing _ _ hsent => exact ⟨[], by rw [hsent, List.append_nil]⟩

end Keys

section Screens

variable {s t : TelnetSession} {key : Bytes}

theorem display_home {text : Bytes} {shown : Screen} (h : Shows text shown) :
    (shown.display eraseLine).display home =
      { cells := fun _ => blank, cursor := text.length - homeColumns, mode := .text } := by
  have hdigits : ∀ b ∈ [(0x38 : Byte), 0x30], 0x30 ≤ b ∧ b ≤ 0x39 := by
    simp
  exact h.erased hdigits

/-- A key keeps the line on the screen exactly when it is short enough to be drawn again, where
the key has it drawn again. -/
theorem Typed.shows_iff (h : Typed s t key) (hlegible : ∀ b ∈ t.buffer, isprint b = true)
    {shown : Screen} (hshown : Shows s.buffer shown) {more : List Bytes}
    (hmore : t.sent = s.sent ++ more) : Shows t.buffer (shown.display more.flatten) ↔
      (Redraws s key → s.buffer.length ≤ homeColumns) := by
  cases h with
  | echo b hb hkey hbuffer hsent =>
    obtain rfl := List.append_cancel_left (hmore.symm.trans hsent)
    refine iff_of_true ?_ fun hredraws => absurd hredraws hkey
    rw [hbuffer, List.flatten_singleton]
    exact hshown.display (List.forall_mem_singleton.mpr (printable_of_isprint hb))
  | nothing hkey hbuffer hsent =>
    have hnil : more = [] := by
      rw [hmore, eq_comm, List.self_eq_append_right] at hsent
      exact hsent
    rw [hnil, hbuffer]
    exact iff_of_true hshown fun hredraws => absurd hredraws hkey
  | redraw hkey hsent =>
    obtain ⟨more', hmore', hflat⟩ := hsent
    obtain rfl := List.append_cancel_left (hmore.symm.trans hmore')
    have hprintable : ∀ b ∈ t.buffer, Printable b := fun b hb =>
      printable_of_isprint (hlegible b hb)
    rw [hflat, Screen.display_append, Screen.display_append, display_home hshown,
      forall_prop_of_true hkey]
    constructor
    · intro hshows
      have hcursor := hshows.cursor
      rw [Screen.display_cursor rfl hprintable] at hcursor
      dsimp only at hcursor
      omega
    · intro hle
      rw [Nat.sub_eq_zero_of_le hle]
      exact shows_empty.display hprintable

end Screens

section Legibility

variable {s : TelnetSession}

theorem Legible.cleared {t : TelnetSession} (h : Legible s) (hbuffer : t.buffer = [])
    (hhistory : t.history = s.history) : Legible t :=
  ⟨fun b hb => by simp [hbuffer] at hb, hhistory ▸ h.history⟩

theorem Legible.typed {t : TelnetSession} {b : Byte} (h : Legible s) (hb : isprint b = true)
    (hbuffer : t.buffer = s.buffer ++ [b]) (hhistory : t.history = s.history) : Legible t := by
  refine ⟨fun c hc => ?_, hhistory ▸ h.history⟩
  rw [hbuffer, List.mem_append, List.mem_singleton] at hc
  rcases hc with hc | rfl
  · exact h.buffer c hc
  · exact hb

theorem Legible.authenticate (h : Legible s) (data : Bytes) : Legible (s.authenticate data) := by
  rcases data with _ | ⟨b, _ | ⟨b', _ | ⟨b'', rest⟩⟩⟩
  · exact h
  · rw [TelnetSession.authenticate]
    split
    · rename_i hb
      exact h.typed hb rfl rfl
    · exact h
  · rw [TelnetSession.authenticate]
    split
    · unfold enterLine
      dsimp only
      split
      · exact h.cleared rfl rfl
      · split
        · exact h.cleared rfl rfl
        · exact h.cleared rfl rfl
    · exact h
  · exact h

theorem Legible.completeLine (h : Legible s) : Legible s.completeLine := by
  refine ⟨fun b hb => ?_, fun line hline => ?_⟩
  · simp [completeLine_typed.1] at hb
  · have hmem : line ∈ s.history ∨ line = s.buffer := by
      rw [completeLine_history.1, addToHistory_history] at hline
      split at hline
      · exact .inl hline
      have hadded : line ∈ s.history ++ [s.buffer] := by
        split at hline
        · exact List.mem_of_mem_tail hline
        · exact hline
      simpa using hadded
    rcases hmem with hold | rfl
    · exact h.history line hold
    · exact h.buffer

theorem Legible.showEntry (h : Legible s) : Legible s.showEntry := by
  refine ⟨fun b hb => ?_, h.history⟩
  have hbuffer : s.showEntry.buffer = s.history.getD s.historyPos [] := rfl
  rw [hbuffer, List.getD_eq_getElem?_getD] at hb
  cases hentry : s.history[s.historyPos]? with
  | none => simp [hentry] at hb
  | some line =>
    rw [hentry, Option.getD_some] at hb
    exact h.history line (List.mem_of_getElem? hentry) b hb

theorem Legible.processEscapeSequence (h : Legible s) (key : Bytes) :
    Legible (s.processEscapeSequence key) := by
  by_cases harrow : key ∈ [arrowUp, arrowDown] ∧ 1 < s.history.length
  · rw [processEscapeSequence_arrow harrow.1 harrow.2]
    exact Legible.showEntry ⟨h.buffer, h.history⟩
  · rw [processEscapeSequence_none (not_and_or.mp harrow)]
    exact h

theorem Legible.interact (h : Legible s) (data : Bytes) : Legible (s.interact data) := by
  rcases data with _ | ⟨b, _ | ⟨b', _ | ⟨b'', _ | ⟨b₃, rest⟩⟩⟩⟩
  · exact h
  · rw [TelnetSession.interact]
    split
    · rename_i hb
      exact h.typed hb rfl rfl
    · split
      · exact ⟨fun c hc => h.buffer c (List.mem_of_mem_dropLast hc), h.history⟩
      · exact h
  · rw [TelnetSession.interact]
    split
    · exact h.completeLine
    · exact h
  · rw [TelnetSession.interact]
    split
    · exact h.processEscapeSequence _
    · exact h
  · exact h

theorem Legible.received (h : Legible s) (data : Bytes) : Legible (s.received data) := by
  unfold TelnetSession.received
  split
  · exact h
  · cases s.state with
    | negotiation =>
      dsimp only
      unfold TelnetSession.negotiate
      dsimp only
      split
      · exact h.cleared rfl rfl
      · exact ⟨h.buffer, h.history⟩
    | authentication => exact h.authenticate data
    | interaction => exact h.interact data

end Legibility

variable {lineCompleteCB : Bool} {s : TelnetSession} {record : List (State × Bytes)}

theorem Run.legible (hrun : Run lineCompleteCB s record) : Legible s := by
  have hstart : Legible (started lineCompleteCB) :=
    ⟨fun b hb => (by cases hb), fun line hline => (by cases hline)⟩
  refine hrun.invariant (P := fun _ s => Legible s) hstart fun record s e t h hst => ?_
  cases hst with
  | read _ => exact h.received _
  | _ => exact ⟨h.buffer, h.history⟩

/-- What some keys leave, in `Interaction`. -/
theorem feed_keys (hstate : s.state = .interaction) (hlegible : Legible s) {keys : List Bytes}
    (hkeys : ∀ key ∈ keys, IsKey key) : (s.feed keys).state = .interaction ∧
      Legible (s.feed keys) ∧ ∃ more, (s.feed keys).sent = s.sent ++ more := by
  induction keys using List.reverseRecOn with
  | nil => exact ⟨hstate, hlegible, [], (List.append_nil _).symm⟩
  | append_singleton keys key ih =>
    obtain ⟨hin, hfed, more, hmore⟩ := ih fun key hkey => hkeys key (List.mem_append_left _ hkey)
    have hlast : s.feed (keys ++ [key]) = (s.feed keys).received key := List.foldl_append
    obtain ⟨more', hmore'⟩ := (received_typed hin (hkeys key (by simp))).sent_eq
    rw [hlast]
    refine ⟨?_, hfed.received key, more ++ more', ?_⟩
    · obtain ⟨_, _, _, _, _, heq⟩ := (s.feed keys).interact_eq key
      unfold TelnetSession.received
      split
      · exact hin
      · rw [hin, heq]
        exact hin
    · rw [hmore', hmore, List.append_assoc]

/-- The screen shows the line behind each of some keys exactly when none of them has a line
of more than eighty columns drawn again. -/
theorem screen_shows_iff (hrun : Run lineCompleteCB s record) (hstate : s.state = .interaction)
    (hbuffer : s.buffer = []) {keys : List Bytes} (hkeys : ∀ key ∈ keys, IsKey key) :
    Along (fun before key => Shows (s.feed (before ++ [key])).buffer
        (screen s (before ++ [key]))) keys ↔
      Along (fun before key => Redraws (s.feed before) key →
        (s.feed before).buffer.length ≤ homeColumns) keys := by
  have hlegible := Run.legible hrun
  have hboth : (Along (fun before key => Shows (s.feed (before ++ [key])).buffer
      (screen s (before ++ [key]))) keys ↔ Along (fun before key => Redraws (s.feed before) key →
        (s.feed before).buffer.length ≤ homeColumns) keys) ∧
      (Along (fun before key => Shows (s.feed (before ++ [key])).buffer
        (screen s (before ++ [key]))) keys → Shows (s.feed keys).buffer (screen s keys)) := by
    induction keys using List.reverseRecOn with
    | nil =>
      refine ⟨iff_of_true ?_ ?_, fun _ => ?_⟩
      · exact fun before key after h => by simp at h
      · exact fun before key after h => by simp at h
      · have hscreen : screen s [] = {} := by simp [screen, feed, Screen.display]
        rw [hscreen, feed, List.foldl_nil, hbuffer]
        exact shows_empty
    | append_singleton keys key ih =>
      have hfront : ∀ key ∈ keys, IsKey key := fun key hkey =>
        hkeys key (List.mem_append_left _ hkey)
      obtain ⟨hiff, hshows⟩ := ih hfront
      obtain ⟨hin, hfed, more, hmore⟩ := feed_keys hstate hlegible hfront
      have hlast : s.feed (keys ++ [key]) = (s.feed keys).received key := List.foldl_append
      have htyped := received_typed hin (hkeys key (by simp))
      obtain ⟨more', hmore'⟩ := htyped.sent_eq
      have hscreen : screen s (keys ++ [key]) = (screen s keys).display more'.flatten := by
        rw [screen, hlast, hmore', hmore, List.append_assoc, List.drop_left, List.flatten_append,
          Screen.display_append, screen, hmore, List.drop_left]
      rw [along_concat, along_concat]
      refine ⟨?_, And.right⟩
      rw [← hiff]
      refine and_congr_right fun hall => ?_
      rw [hscreen, hlast]
      exact htyped.shows_iff (hfed.received key).buffer (hshows hall) hmore'
  exact hboth.1

def fetchedKeys : List Bytes :=
  [[97], [CarriageReturn, NUL], [98], [CarriageReturn, NUL], arrowUp, [BackSpace]]

theorem screen_shows_fetched : Along (fun before key =>
    Shows (((listening true).feed loginReads).feed (before ++ [key])).buffer
      (screen ((listening true).feed loginReads) (before ++ [key]))) fetchedKeys := by
  have hkeys : ∀ key ∈ fetchedKeys, IsKey key := by
    intro key hkey
    simp only [fetchedKeys, List.mem_cons, List.not_mem_nil, or_false] at hkey
    rcases hkey with rfl | rfl | rfl | rfl | rfl | rfl
    · exact .inl ⟨97, rfl, rfl⟩
    · exact .inr (.inr (.inl rfl))
    · exact .inl ⟨98, rfl, rfl⟩
    · exact .inr (.inr (.inl rfl))
    · exact .inr (.inr (.inr List.mem_cons_self))
    · exact .inr (.inl rfl)
  exact (screen_shows_iff (RecordedRun.reads (fun _ => rfl) true loginReads) (by decide +kernel)
    (by decide +kernel) hkeys).mpr (AlongFrom.along (by decide +kernel))

/-- A backspace on a line of 81 columns leaves the cursor one column behind the line. -/
theorem screen_beside_line : ∃ keys : List Bytes,
    (∀ key ∈ keys, IsKey key) ∧ ((listening true).feed loginReads).state = .interaction ∧
    ((listening true).feed loginReads).buffer = [] ∧
    (((listening true).feed loginReads).feed keys).buffer.length = 80 ∧
    (screen ((listening true).feed loginReads) keys).cursor = 81 ∧
    ¬ Shows (((listening true).feed loginReads).feed keys).buffer
      (screen ((listening true).feed loginReads) keys) := by
  let keys : List Bytes := List.replicate 81 [97] ++ [[BackSpace]]
  have hfacts : ((listening true).feed loginReads).state = .interaction ∧
      ((listening true).feed loginReads).buffer = [] ∧
      (((listening true).feed loginReads).feed keys).buffer.length = 80 ∧
      (screen ((listening true).feed loginReads) keys).cursor = 81 := by
    decide +kernel
  obtain ⟨hstate, hbuffer, hlength, hcursor⟩ := hfacts
  refine ⟨keys, fun key hkey => ?_, hstate, hbuffer, hlength, hcursor, fun hshows => ?_⟩
  · rcases List.mem_append.mp hkey with hkey | hkey
    · rw [(List.mem_replicate.mp hkey).2]
      exact .inl ⟨97, rfl, rfl⟩
    · rw [List.mem_singleton.mp hkey]
      exact .inr (.inl rfl)
  · rw [hshows.cursor, hlength] at hcursor
    exact absurd hcursor (by decide)

end Telnet
end NetworkProtocols
