import NetworkProtocols.Smtp.Sequence

/-!
# Every read is followed by one operation

A handler ends with one reply, or message mode with one receive; only `processVrfy` is empty.
The second DATA that would start nothing cannot come, since the first one leaves command mode.
-/

namespace NetworkProtocols
namespace Smtp

open Bytes SMTPSession Transition

namespace Exchange

variable {e : Exchange} {before : List Exchange}

/-- A read starts one operation unless it is a VRFY, which starts none. -/
theorem started_cases (h : Placed e.session.envelope before) :
    (e.handler ≠ some .vrfy ∧ ∃ op, e.started = [op]) ∨
    (e.handler = some .vrfy ∧ e.started = []) := by
  have hone : ∀ {handler : Handler} {code : UInt16}, e.Is handler code → handler ≠ .vrfy →
      (e.handler ≠ some .vrfy ∧ ∃ op, e.started = [op]) := by
    intro handler code his hne
    exact ⟨by simpa [his.1] using hne, _, his.2⟩
  cases e.effect with
  | text hnone _ hstarted _ =>
    refine .inl ⟨by simp [hnone], ?_⟩
    rcases hstarted with hreceive | hreply
    · exact ⟨_, hreceive⟩
    · exact ⟨_, hreply⟩
  | helo his _ => exact .inl (hone his (by decide))
  | heloRefused his _ => exact .inl (hone his (by decide))
  | rset his _ => exact .inl (hone his (by decide))
  | data his _ => exact .inl (hone his (by decide))
  | dataAgain _ hlast hmode _ _ => exact absurd hlast (h.data hmode)
  | mailFrom his _ _ => exact .inl (hone his (by decide))
  | rcptTo his _ _ => exact .inl (hone his (by decide))
  | vrfy hvrfy hstarted _ => exact .inr ⟨hvrfy, hstarted⟩
  | reply his hother _ _ => exact .inl (hone his fun heq => hother (by simp [heq]))

end Exchange

/-- Without a VRFY among the reads an open session has one operation pending, a closed one
none. -/
structure Pending (s : State) (record : List Exchange) : Prop where
  placed : Placed s.session.envelope record
  one : (∀ e ∈ record, e.handler ≠ some .vrfy) → s.closed = false → ∃ op, s.pending = [op]
  none : (∀ e ∈ record, e.handler ≠ some .vrfy) → s.closed = true → s.pending = []

namespace Pending

theorem start (id : UInt32) (buffer : Buffer) (d : Disk) : Pending (.start id buffer d) [] where
  placed := .start
  one _ _ := ⟨.send 220, rfl⟩
  none _ h := by cases h

variable {s t : State} {record : List Exchange}

theorem only (h : Pending s record) (hnone : ∀ e ∈ record, e.handler ≠ some .vrfy)
    {op : Operation} (hmem : op ∈ s.pending) : s.closed = false ∧ s.pending = [op] := by
  cases hclosed : s.closed with
  | true =>
    rw [h.none hnone hclosed] at hmem
    cases hmem
  | false =>
    obtain ⟨op', hpending⟩ := h.one hnone hclosed
    rw [hpending, List.mem_singleton] at hmem
    rw [hmem]
    exact ⟨rfl, hpending⟩

theorem step {event : Event} (h : Pending s record) (hst : Step s event t) :
    Pending t (record ++ (note s event).toList) := by
  cases hst with
  | @received chunk r hmem _ =>
    let e : Exchange := ⟨s.session.fill chunk, s.disk, r, chunk⟩
    have hplaced : Placed e.session.envelope record := h.placed
    have hpending : (s.onReceived chunk r).pending = s.pending.erase .receive ++ e.started := rfl
    have hfront : (∀ f ∈ record ++ [e], f.handler ≠ some .vrfy) →
        s.closed = false ∧ s.pending = [.receive] := fun hnone =>
      h.only (fun f hf => hnone f (List.mem_append_left _ hf)) hmem
    refine ⟨hplaced.step, fun hnone _ => ?_, fun hnone hclosed => ?_⟩
    · rw [hpending, (hfront hnone).2]
      rcases Exchange.started_cases hplaced with ⟨-, hone⟩ | ⟨hvrfy, -⟩
      · simpa using hone
      · exact absurd hvrfy (hnone e (by simp [note, e]))
    · have hopen : s.closed = true := hclosed
      rw [(hfront hnone).1] at hopen
      cases hopen
  | @sent code hmem =>
    simp only [note, Option.toList_none, List.append_nil]
    unfold State.onSent
    dsimp only
    split
    · refine ⟨h.placed, fun _ hclosed => (by cases hclosed), fun hnone _ => ?_⟩
      simp [(h.only hnone hmem).2]
    · refine ⟨h.placed, fun hnone _ => ⟨.receive, ?_⟩, fun hnone hclosed => ?_⟩
      · simp [(h.only hnone hmem).2]
      · have hopen : s.closed = true := hclosed
        rw [(h.only hnone hmem).1] at hopen
        cases hopen
  | @failed op hmem =>
    simp only [note, Option.toList_none, List.append_nil]
    refine ⟨h.placed, fun _ hclosed => (by cases hclosed), fun hnone _ => ?_⟩
    simp [State.onFailed, (h.only hnone hmem).2]

end Pending

variable {id : UInt32} {buffer : Buffer} {d : Disk} {s : State} {record : List Exchange}

/-- Every read starts one operation and a session that is not closed has one pending, as long
as there is no VRFY. -/
theorem progress_iff (hrun : Run id buffer d s record) :
    ((∀ e ∈ record, ∃ op, e.started = [op]) ∧ (s.closed = false → ∃ op, s.pending = [op])) ↔
      ∀ e ∈ record, e.handler ≠ some .vrfy := by
  have hplaced : Along (fun before e => Placed e.session.envelope before) record :=
    hrun.along .start fun _ _ => Placed.step
  have hstarted : ∀ e ∈ record, (e.handler ≠ some .vrfy ∧ ∃ op, e.started = [op]) ∨
      (e.handler = some .vrfy ∧ e.started = []) := by
    intro e he
    obtain ⟨before, after, heq⟩ := List.append_of_mem he
    exact Exchange.started_cases (hplaced before e after heq)
  have hpending : Pending s record := by
    refine @Transition.invariant _ (Recorded Step note) (fun p => Pending p.1 p.2) ?_ _ (s, record)
      (.start id buffer d) hrun
    rintro _ _ h ⟨hst⟩
    exact h.step hst
  constructor
  · rintro ⟨hall, -⟩ e he hvrfy
    rcases hstarted e he with ⟨hne, -⟩ | ⟨-, hnil⟩
    · exact hne hvrfy
    · obtain ⟨op, hop⟩ := hall e he
      rw [hnil] at hop
      cases hop
  · intro hnone
    refine ⟨fun e he => ?_, hpending.one hnone⟩
    rcases hstarted e he with ⟨-, hone⟩ | ⟨hvrfy, -⟩
    · exact hone
    · exact absurd hvrfy (hnone e he)

/-- The state behind a transaction and its message. -/
theorem progress_transaction : ∃ op, (conversation sessionStart
    (chars "HELO\r\n" :: transaction ++ [terminator])).1.pending = [op] := by
  let chunks := chars "HELO\r\n" :: transaction ++ [terminator]
  have hfacts : Heard (sessionStart.settle, []) chunks ∧
      (conversation sessionStart chunks).1.closed = false ∧
      ∀ e ∈ (conversation sessionStart chunks).2, e.handler ≠ some .vrfy := by
    decide +kernel
  obtain ⟨hheard, hopen, hnone⟩ := hfacts
  exact ((progress_iff (conversation_run hheard)).mpr hnone).2 hopen

/-- After a VRFY nothing is pending, and the session is open. -/
theorem silent_after_vrfy : ∃ (s : State) (vrfy : Exchange), Run 1 (.full 0) mailDisk s [vrfy] ∧
    vrfy.started = [] ∧ s.closed = false ∧ s.pending = [] := by
  have hfacts : Heard (sessionStart.settle, []) [chars "VRFY\r\n"] ∧
      (nextRead (conversation sessionStart []) (chars "VRFY\r\n")).started = [] ∧
      (conversation sessionStart [chars "VRFY\r\n"]).1.closed = false ∧
      (conversation sessionStart [chars "VRFY\r\n"]).1.pending = [] := by
    decide +kernel
  obtain ⟨hheard, hrest⟩ := hfacts
  exact ⟨_, _, conversation_run hheard, hrest⟩

end Smtp
end NetworkProtocols
