import NetworkProtocols.Lib.Transition
import NetworkProtocols.TelnetServer.Server

/-!
# The ids of the sessions

The id of a session is the number of sessions in the set behind its connection, and that number
comes again once others have left.
-/

namespace NetworkProtocols
namespace TelnetServer

open Transition Server

inductive Call
  | handleConnection | removeClient (id : ℕ)
  deriving DecidableEq

def Server.call (s : Server) : Call → Server
  | .handleConnection => s.handleConnection
  | .removeClient id => s.removeClient id

def after (calls : List Call) : Server := calls.foldl call {}

def DistinctIds (s : Server) : Prop :=
  ∀ n ∈ s.sessions, ∀ m ∈ s.sessions, (s.session n).id = (s.session m).id → n = m

instance (s : Server) : Decidable (DistinctIds s) :=
  inferInstanceAs (Decidable (∀ n ∈ s.sessions, ∀ m ∈ s.sessions, _ → _))

/-- No connection comes while there are as many sessions as there were when one of those in the
set was connected. -/
def Spaced (before : List Call) (c : Call) : Prop :=
  c = .handleConnection → Along (fun earlier c => c = .handleConnection →
    (after earlier).connections ∈ (after before).sessions →
    (after earlier).sessions.card ≠ (after before).sessions.card) before

instance (before : List Call) (c : Call) : Decidable (Spaced before c) :=
  inferInstanceAs (Decidable (_ → _))

section Calls

variable {calls earlier rest : List Call} {n : ℕ}

theorem after_concat (calls : List Call) (c : Call) : after (calls ++ [c]) = (after calls).call c :=
  List.foldl_append

theorem connections_after (calls : List Call) :
    (after calls).connections = calls.count .handleConnection := by
  induction calls using List.reverseRecOn with
  | nil => rfl
  | append_singleton calls c ih =>
    rw [after_concat, List.count_append, ← ih]
    cases c <;> rfl

theorem sessions_lt (h : n ∈ (after calls).sessions) : n < (after calls).connections := by
  induction calls using List.reverseRecOn with
  | nil => exact absurd h (Finset.notMem_empty n)
  | append_singleton calls c ih =>
    rw [after_concat] at h ⊢
    cases c with
    | handleConnection =>
      rcases Finset.mem_insert.mp h with rfl | hold
      · exact Nat.lt_succ_self _
      · exact Nat.lt_succ_of_lt (ih hold)
    | removeClient id => exact ih (Finset.mem_of_mem_erase h)

theorem card_le (calls : List Call) : (after calls).sessions.card ≤ (after calls).connections := by
  have hsub : (after calls).sessions ⊆ Finset.range (after calls).connections :=
    fun n hn => Finset.mem_range.mpr (sessions_lt hn)
  have hcard := Finset.card_le_card hsub
  rwa [Finset.card_range] at hcard

theorem session_kept (h : n < (after earlier).connections) (rest : List Call) :
    n < (after (earlier ++ rest)).connections ∧
      (after (earlier ++ rest)).session n = (after earlier).session n := by
  induction rest using List.reverseRecOn with
  | nil =>
    rw [List.append_nil]
    exact ⟨h, rfl⟩
  | append_singleton rest c ih =>
    rw [← List.append_assoc, after_concat]
    cases c with
    | handleConnection =>
      exact ⟨Nat.lt_succ_of_lt ih.1, (handleConnection_others (Nat.ne_of_lt ih.1)).trans ih.2⟩
    | removeClient id => exact ih

theorem id_given (earlier rest : List Call) :
    ((after (earlier ++ .handleConnection :: rest)).session (after earlier).connections).id =
      UInt32.ofNat ((after earlier).sessions.card + 1) := by
  have hnew : (after (earlier ++ [.handleConnection])).session (after earlier).connections =
      { id := UInt32.ofNat ((after earlier).sessions.card + 1) } := by
    rw [after_concat]
    exact handleConnection_new
  have hlt : (after earlier).connections <
      (after (earlier ++ [.handleConnection])).connections := by
    rw [after_concat]
    exact Nat.lt_succ_self _
  have hkept := (session_kept hlt rest).2
  rw [List.append_assoc, List.singleton_append] at hkept
  rw [hkept, hnew]

theorem exists_connection (h : n < (after calls).connections) : ∃ earlier rest,
    calls = earlier ++ .handleConnection :: rest ∧ (after earlier).connections = n := by
  induction calls using List.reverseRecOn with
  | nil => exact absurd h (Nat.not_lt_zero n)
  | append_singleton calls c ih =>
    by_cases hold : n < (after calls).connections
    · obtain ⟨earlier, rest, rfl, hn⟩ := ih hold
      exact ⟨earlier, rest ++ [c], by rw [List.append_assoc, List.cons_append], hn⟩
    · rw [after_concat] at h
      cases c with
      | handleConnection =>
        exact ⟨calls, [], rfl, Nat.le_antisymm (Nat.le_of_not_lt hold) (Nat.le_of_lt_succ h)⟩
      | removeClient id => exact absurd h hold

end Calls

/-- The same sessions with the same ids. -/
structure SameRegistry (s t : Server) : Prop where
  connections : t.connections = s.connections
  sessions : t.sessions = s.sessions
  ids : ∀ n, (t.session n).id = (s.session n).id

def ByCalls (s t : Server) : Prop := ∃ calls : List Call, SameRegistry (calls.foldl call s) t

section Registry

variable {onMessageReceived : OnMessageReceivedCB} {s t u : Server} {id : ℕ}

theorem SameRegistry.call (h : SameRegistry s t) (c : Call) :
    SameRegistry (s.call c) (t.call c) := by
  cases c with
  | handleConnection =>
    have hupdate : ∀ (v : Server) (n : ℕ), (v.handleConnection.session n).id =
        if n = v.connections then UInt32.ofNat (v.sessions.card + 1) else (v.session n).id := by
      intro v n
      split
      · rename_i heq
        rw [heq, handleConnection_new]
      · rename_i hne
        rw [handleConnection_others hne]
    refine ⟨congrArg (· + 1) h.connections, ?_, fun n => ?_⟩
    · exact congrArg₂ insert h.connections h.sessions
    · change (t.handleConnection.session n).id = (s.handleConnection.session n).id
      rw [hupdate, hupdate, h.connections, h.sessions, h.ids]
  | removeClient id =>
    exact ⟨h.connections, congrArg (Finset.erase · id) h.sessions, h.ids⟩

theorem SameRegistry.trans (h : SameRegistry s t) (h' : SameRegistry t u) : SameRegistry s u :=
  ⟨h'.connections.trans h.connections, h'.sessions.trans h.sessions,
    fun n => (h'.ids n).trans (h.ids n)⟩

theorem SameRegistry.calls (h : SameRegistry s t) (calls : List Call) :
    SameRegistry (calls.foldl Server.call s) (calls.foldl Server.call t) := by
  induction calls generalizing s t with
  | nil => exact h
  | cons c calls ih => exact ih (h.call c)

theorem ByCalls.trans (h : ByCalls s t) (h' : ByCalls t u) : ByCalls s u := by
  obtain ⟨calls, hcalls⟩ := h
  obtain ⟨calls', hcalls'⟩ := h'
  refine ⟨calls ++ calls', ?_⟩
  rw [List.foldl_append]
  exact (hcalls.calls calls').trans hcalls'

theorem byCalls_begin (operation : Operation) : ByCalls s (s.begin id operation) :=
  ⟨[], rfl, rfl, fun _ => rfl⟩

theorem byCalls_update {f : Session → Session} (hf : ∀ session, (f session).id = session.id) :
    ByCalls s (s.update id f) := by
  refine ⟨[], rfl, rfl, fun n => ?_⟩
  change ((s.update id f).session n).id = (s.session n).id
  by_cases heq : n = id
  · rw [heq, update_session, hf]
  · rw [update_others f heq]

theorem byCalls_removeClient : ByCalls s (s.removeClient id) :=
  ⟨[.removeClient id], rfl, rfl, fun _ => rfl⟩

theorem byCalls_onMessage (message : Bytes) :
    ByCalls s (s.onMessage onMessageReceived id message) := by
  have hcalled : ByCalls s { s with messages := s.messages ++ [(id, message)] } :=
    ⟨[], rfl, rfl, fun _ => rfl⟩
  unfold onMessage
  dsimp only
  split
  · refine (hcalled.trans (byCalls_update ?_)).trans byCalls_removeClient
    exact fun _ => rfl
  · refine hcalled.trans (byCalls_update ?_)
    exact fun _ => rfl

theorem Received.byCalls {sz : ℕ} (h : Received onMessageReceived s id sz t) : ByCalls s t := by
  cases h with
  | closed _ => exact byCalls_removeClient
  | command _ _ => exact byCalls_begin _
  | message _ _ _ =>
    refine (byCalls_onMessage _).trans (byCalls_update ?_)
    exact fun _ => rfl
  | backspaceEmpty _ _ _ _ _ => exact byCalls_begin _
  | backspace _ _ _ _ _ =>
    refine (byCalls_update ?_).trans (byCalls_begin _)
    exact fun _ => rfl
  | delete _ _ _ _ => exact byCalls_begin _
  | text _ _ _ _ _ =>
    refine ((byCalls_update ?_).trans (byCalls_begin _)).trans (byCalls_begin _)
    exact fun _ => rfl

theorem Step.byCalls {e : Event} (hst : Step onMessageReceived s e t) : ByCalls s t := by
  cases hst with
  | connected => exact ⟨[.handleConnection], rfl, rfl, fun _ => rfl⟩
  | @received id sz _ =>
    have hfinish : ByCalls s (s.finish id (.arrived sz)) := ⟨[], rfl, rfl, fun _ => rfl⟩
    exact hfinish.trans (received_cases ..).byCalls
  | removed _ => exact byCalls_removeClient
  | written _ => exact ⟨[], rfl, rfl, fun _ => rfl⟩
  | writeFailed _ => exact ⟨[], rfl, rfl, fun _ => rfl⟩
  | arrived _ _ => exact ⟨[], rfl, rfl, fun _ => rfl⟩
  | readFailed _ => exact ⟨[], rfl, rfl, fun _ => rfl⟩

theorem run_byCalls {run : List (Event × Server)} (hrun : Trace (Step onMessageReceived) s run) :
    ∀ p ∈ run, ByCalls s p.2 := by
  induction hrun with
  | nil => exact fun p hp => absurd hp List.not_mem_nil
  | cons hst _ ih =>
    exact List.forall_mem_cons.mpr ⟨hst.byCalls, fun p hp => hst.byCalls.trans (ih p hp)⟩

end Registry

theorem ofNat_inj_of_lt {a b : ℕ} (ha : a < 2 ^ 32) (hb : b < 2 ^ 32)
    (h : UInt32.ofNat a = UInt32.ofNat b) : a = b := by
  have hnat := congrArg UInt32.toNat h
  rwa [UInt32.toNat_ofNat', UInt32.toNat_ofNat', Nat.mod_eq_of_lt ha, Nat.mod_eq_of_lt hb] at hnat

/-- One more connection keeps the ids distinct if its own is new. -/
theorem distinctIds_connect {s : Server} (hs : DistinctIds s) (hlt : ∀ n ∈ s.sessions,
    n < s.connections) : DistinctIds s.handleConnection ↔
      ∀ n ∈ s.sessions, (s.session n).id ≠ UInt32.ofNat (s.sessions.card + 1) := by
  have hold : ∀ n ∈ s.sessions, s.handleConnection.session n = s.session n := fun n hn =>
    handleConnection_others (Nat.ne_of_lt (hlt n hn))
  constructor
  · intro h n hn hid
    have heq := h n (Finset.mem_insert_of_mem hn) s.connections (Finset.mem_insert_self _ _)
      (by rw [hold n hn, handleConnection_new, hid])
    exact Nat.ne_of_lt (hlt n hn) heq
  · intro h n hn m hm hid
    rcases Finset.mem_insert.mp hn with rfl | hn
    · rcases Finset.mem_insert.mp hm with rfl | hm
      · rfl
      · rw [handleConnection_new, hold m hm] at hid
        exact absurd hid.symm (h m hm)
    · rcases Finset.mem_insert.mp hm with rfl | hm
      · rw [handleConnection_new, hold n hn] at hid
        exact absurd hid (h n hn)
      · rw [hold n hn, hold m hm] at hid
        exact hs n hn m hm hid

/-- A new id is new exactly when no session in the set was connected to as many. -/
theorem distinctIds_call {before : List Call} (hs : DistinctIds (after before)) {c : Call}
    (hfew : (after (before ++ [c])).connections < 2 ^ 32) :
    DistinctIds (after (before ++ [c])) ↔ Spaced before c := by
  rw [after_concat] at hfew ⊢
  cases c with
  | removeClient id =>
    refine iff_of_true (fun n hn m hm => ?_) fun h => by cases h
    exact hs n (Finset.mem_of_mem_erase hn) m (Finset.mem_of_mem_erase hm)
  | handleConnection =>
    have hfew : (after before).connections + 1 < 2 ^ 32 := hfew
    have hcard := card_le before
    refine (distinctIds_connect hs fun n hn => sessions_lt hn).trans ?_
    constructor
    · rintro hids - earlier _ rest rfl rfl hin heq
      refine hids _ hin ?_
      rw [id_given, heq]
    · intro hspaced n hn hid
      obtain ⟨earlier, rest, hcalls, rfl⟩ := exists_connection (sessions_lt hn)
      refine hspaced rfl earlier _ rest hcalls rfl hn ?_
      have hin := sessions_lt hn
      have hle := card_le earlier
      rw [hcalls, id_given, ← hcalls] at hid
      have hsame := ofNat_inj_of_lt (by omega) (by omega) hid
      omega

/-- The ids in the set are distinct behind every call exactly when no connection comes while
there are as many sessions as when one of those in the set was connected. -/
theorem ids_distinct_iff (calls : List Call) (hfew : calls.count .handleConnection < 2 ^ 32) :
    Along (fun before c => DistinctIds (after (before ++ [c]))) calls ↔ Along Spaced calls := by
  have hboth : (Along (fun before c => DistinctIds (after (before ++ [c]))) calls ↔
      Along Spaced calls) ∧
      (Along (fun before c => DistinctIds (after (before ++ [c]))) calls →
        DistinctIds (after calls)) := by
    induction calls using List.reverseRecOn with
    | nil =>
      refine ⟨iff_of_true ?_ ?_, fun _ n hn => absurd hn (Finset.notMem_empty n)⟩
      · exact fun before c rest h => by simp at h
      · exact fun before c rest h => by simp at h
    | append_singleton calls c ih =>
      rw [← connections_after] at hfew
      have hfront : calls.count .handleConnection < 2 ^ 32 := by
        rw [connections_after, List.count_append] at hfew
        omega
      obtain ⟨hiff, hdistinct⟩ := ih hfront
      rw [along_concat, along_concat]
      refine ⟨?_, And.right⟩
      rw [← hiff]
      exact and_congr_right fun hall => distinctIds_call (hdistinct hall) hfew
  exact hboth.1

/-- Who came last leaves first. -/
theorem ids_distinct_last : Along (fun before c => DistinctIds (after (before ++ [c])))
    [.handleConnection, .handleConnection, .removeClient 1, .handleConnection] :=
  (ids_distinct_iff [.handleConnection, .handleConnection, .removeClient 1, .handleConnection]
    (by decide)).mpr (by decide +kernel)

/-- Of two sessions the first leaves, and the next one gets the id of the second. -/
theorem ids_not_distinct :
    (after [.handleConnection, .handleConnection, .removeClient 0, .handleConnection]).sessions =
      {1, 2} ∧
    ((after [.handleConnection, .handleConnection, .removeClient 0, .handleConnection]).session
      1).id = 2 ∧
    ((after [.handleConnection, .handleConnection, .removeClient 0, .handleConnection]).session
      2).id = 2 ∧
    ¬ DistinctIds
      (after [.handleConnection, .handleConnection, .removeClient 0, .handleConnection]) := by
  decide +kernel

end TelnetServer
end NetworkProtocols
