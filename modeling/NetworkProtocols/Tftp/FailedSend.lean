import NetworkProtocols.Tftp.ReadSession

/-!
# A block whose send fails

`sendBlockOfData` changes the session before it sends, and nothing takes the change back: a block
that could not be sent counts as sent, like a datagram that is lost on its way.
-/

namespace NetworkProtocols
namespace Tftp
namespace TFTPSessionRead

open Transition

/-- A message whose opcode is read as ACK, whatever its number and whatever can be sent. -/
def IsAnyAck (a : Ack) : Prop := a.2.1.word 0 = MessageType.ack.code

variable {fs : FileSystem} {mode : TransferMode} {file : Bytes} {k : ℕ} {s : TFTPSessionRead}

theorem sendBlockOfData_outcomes (fs : FileSystem) (s : TFTPSessionRead) (o o' : Outcomes) :
    (s.sendBlockOfData fs o).1 = (s.sendBlockOfData fs o').1 := rfl

theorem sendBlockOfData_failed {o : Outcomes} (h : o.sendOk = false) :
    (s.sendBlockOfData fs o).2 = [] := by
  simp [sendBlockOfData, TFTPSession.send, h]

theorem ack_behind_sendBlockOfData (fs fs' : FileSystem) (s : TFTPSessionRead) (o : Outcomes)
    {a : Ack} (ha : IsAnyAck a) (hn : a.2.1.word 2 = s.blockCounter) :
    ackStep fs' (s.sendBlockOfData fs o).1 a =
      some ((s.sendBlockOfData fs o).1, s.sendErrorMessage a.1 .unknownTransferId []) := by
  have hne : s.blockCounter ≠ s.blockCounter + 1 := by grind
  exact onDataReceived_other_ack ha (hn ▸ hne)

theorem dataPackets_drop {ep : Endpoint} {m : ℕ} (hk : k < m) :
    (dataPackets ep mode file m).drop k =
      [(ep, dataMessage (UInt16.ofNat (k + 1)) (payload mode file k))] ++
        (dataPackets ep mode file m).drop (k + 1) := by
  have hlength : k < (dataPackets ep mode file m).length := by simp [dataPackets, hk]
  rw [List.drop_eq_getElem_cons hlength]
  simp [dataPackets]

theorem send_sublist (s : TFTPSessionRead) (o : Outcomes) (d : Datagram) :
    (s.send o d).Sublist [(s.ep, d)] := by
  unfold TFTPSession.send
  split
  · exact List.Sublist.refl _
  · exact List.nil_sublist _

theorem filter_sendErrorMessage (s : TFTPSession) (o : Outcomes) (code : ErrorCode) :
    (s.sendErrorMessage o code []).filter IsData = [] := by
  unfold TFTPSession.sendErrorMessage TFTPSession.send
  split
  · rw [List.filter_singleton, isData_errorMessage]
    rfl
  · rfl

/-- Whatever ACKs arrive and whatever sends fail, only blocks behind the first `k` are sent, in
order and none twice. -/
theorem Serving.run_any_acks (h : Serving fs mode file k s) (acks : List Ack)
    (hacks : ∀ a ∈ acks, IsAnyAck a) :
    ∃ t sent m, run (TFTPSessionRead.ackStep fs) s acks = some (t, sent) ∧
      Serving fs mode file m t ∧ k ≤ m ∧
      (sent.filter IsData).Sublist ((dataPackets s.ep mode file m).drop k) := by
  induction acks generalizing s k with
  | nil => exact ⟨s, [], k, rfl, h, le_rfl, List.nil_sublist _⟩
  | cons a acks ih =>
    rw [List.forall_mem_cons] at hacks
    obtain ⟨ha, hrest⟩ := hacks
    by_cases hn : a.2.1.word 2 = s.blockCounter
    · rw [h.counter] at hn
      rcases Nat.lt_or_eq_of_le h.le_payloads with hk | hk
      · obtain ⟨hnext, hsent, hep, -, -⟩ := h.sendBlockOfData hk a.1
        obtain ⟨t, sent, m, hrun, ht, hm, hdata⟩ := ih hnext hrest
        have hstep : TFTPSessionRead.ackStep fs s a = some ((s.sendBlockOfData fs a.1).1,
            s.send a.1 (dataMessage (UInt16.ofNat (k + 1)) (payload mode file k))) := by
          rw [← hsent]
          exact h.ack_next hk ha hn
        refine ⟨t, _, m, run_cons hstep hrun, ht, by omega, ?_⟩
        rw [hep] at hdata
        rw [List.filter_append, dataPackets_drop (by omega)]
        exact List.Sublist.append (List.filter_sublist.trans (send_sublist _ a.1 _)) hdata
      · have hstep : TFTPSessionRead.ackStep fs s a = _ := h.ack_last hk ha hn
        obtain ⟨t, sent, m, hrun, ht, hm, hdata⟩ := ih (h.close hk) hrest
        exact ⟨t, _, m, run_cons hstep hrun, ht, hm, hdata⟩
    · have hstep : TFTPSessionRead.ackStep fs s a = _ := onDataReceived_other_ack ha hn
      obtain ⟨t, sent, m, hrun, ht, hm, hdata⟩ := ih h hrest
      refine ⟨t, _, m, run_cons hstep hrun, ht, hm, ?_⟩
      rw [List.filter_append, filter_sendErrorMessage]
      exact hdata

/-- A block whose send fails leaves the session as a block that was sent does. The ACK that asked
for it is then refused with an ERROR, the ACK of the block that nobody received asks for the one
behind it or finishes the session, and whatever ACKs arrive, the block is not sent again. -/
theorem failed_send_loses_block (fs : FileSystem) (s : TFTPSessionRead) (o : Outcomes)
    (hsend : o.sendOk = false) :
    let lost := (s.sendBlockOfData fs o).1
    (s.sendBlockOfData fs o).2 = [] ∧ lost = (s.sendBlockOfData fs { o with sendOk := true }).1 ∧
    (∀ fs' a, IsAnyAck a → a.2.1.word 2 = s.blockCounter →
      ackStep fs' lost a = some (lost, s.sendErrorMessage a.1 .unknownTransferId [])) ∧
    ∀ mode file k, s.Serving fs mode file k → k < payloads mode file →
      lost.Serving fs mode file (k + 1) ∧
      (∀ a, IsAck a → a.2.1.word 2 = UInt16.ofNat (k + 1) →
        (k + 1 < payloads mode file → ∃ t, ackStep fs lost a =
          some (t, [(s.ep, dataMessage (UInt16.ofNat (k + 2)) (payload mode file (k + 1)))])) ∧
        (k + 1 = payloads mode file →
          ∃ t, ackStep fs lost a = some (t, []) ∧ t.state = .finished)) ∧
      ∀ acks : List Ack, (∀ a ∈ acks, IsAnyAck a) → ∃ t sent m,
        run (ackStep fs) lost acks = some (t, sent) ∧
          (sent.filter IsData).Sublist ((dataPackets s.ep mode file m).drop (k + 1)) := by
  refine ⟨sendBlockOfData_failed hsend, sendBlockOfData_outcomes fs s o _,
    fun fs' a ha hn => ack_behind_sendBlockOfData fs fs' s o ha hn, ?_⟩
  intro mode file k h hk
  obtain ⟨hnext, -, hep, -, -⟩ := h.sendBlockOfData hk o
  refine ⟨hnext, fun a ha hn => ?_, fun acks hacks => ?_⟩
  · obtain ⟨hmore, hlast, -⟩ := hnext.ackStep ha
    refine ⟨fun hlt => ?_, fun heq => ?_⟩
    · obtain ⟨t, ht, -, -⟩ := hmore hn hlt
      exact ⟨t, hep ▸ ht⟩
    · obtain ⟨t, ht, -, -, hfinished⟩ := hlast hn heq
      exact ⟨t, ht, hfinished⟩
  · obtain ⟨t, sent, m, hrun, -, -, hdata⟩ := hnext.run_any_acks acks hacks
    exact ⟨t, sent, m, hrun, hep ▸ hdata⟩

theorem failed_send_loses_block_first :
    ∃ lost, TFTPSessionRead.onDataReceived { ep := ⟨0, 0⟩ } (.single [97] [1, 2, 3])
        { sendOk := false } (Buffer.blank.fill (requestMessage .rrq [97] .binary)) 10 =
          some (lost, []) ∧
      ackStep (.single [97] [1, 2, 3]) lost ({}, Buffer.blank.fill (ackMessage 0), 4) =
        some (lost, [(⟨0, 0⟩, errorMessage .unknownTransferId [])]) := by
  let fs : FileSystem := .single [97] [1, 2, 3]
  let s : TFTPSessionRead := {
    ep := ⟨0, 0⟩
    state := .active
    transferMode := .binary
    inFile := IfStream.openFile fs {} [97] true }
  obtain ⟨hsent, -, hrefused, -⟩ := failed_send_loses_block fs s { sendOk := false } rfl
  refine ⟨(s.sendBlockOfData fs { sendOk := false }).1, ?_, ?_⟩
  · have hname : ValidName [97] := ⟨by decide, by decide, by decide⟩
    rw [onDataReceived_request (Buffer.blank.word_zero_requestMessage .rrq [97] .binary)
      (Buffer.blank.request_requestMessage .rrq .binary hname)]
    exact congrArg (fun sent => some ((s.sendBlockOfData fs { sendOk := false }).1, sent)) hsent
  · exact hrefused fs ({}, Buffer.blank.fill (ackMessage 0), 4) rfl rfl

/-- With block one lost, ACK 0 is answered by an ERROR and not by block one. -/
theorem failed_send_not_repeated :
    ¬ ∀ (fs : FileSystem) (mode : TransferMode) (file : Bytes) (k : ℕ) (s : TFTPSessionRead),
      s.state = .active → s.Serving fs mode file k → k < payloads mode file →
      ∀ o o' : Outcomes, o.sendOk = false → o'.sendOk = true → ∀ (data : Buffer) (n : ℕ),
        data.word 0 = MessageType.ack.code → data.word 2 = s.blockCounter →
        ((s.sendBlockOfData fs o).1.onDataReceived fs o' data n).map (·.2) =
          some (s.sendBlockOfData fs o').2 := by
  intro h
  let fs : FileSystem := .single [97] [1, 2, 3]
  let s : TFTPSessionRead := { ep := ⟨0, 0⟩, state := .active, transferMode := .binary }
  have hserve : Serving fs .binary [1, 2, 3] 0
      { s with inFile := s.inFile.openFile fs [97] true } :=
    Fresh.serving (s := s) ⟨rfl, rfl, rfl, rfl⟩ rfl rfl
  have hsame := h fs .binary [1, 2, 3] 0 _ rfl hserve (by decide) { sendOk := false } {} rfl rfl
    (Buffer.blank.fill (ackMessage 0)) 4 rfl rfl
  revert hsame
  decide

end TFTPSessionRead
end Tftp
end NetworkProtocols
