import NetworkProtocols.Tftp.SendBuffer

/-!
# The assertions of the client

The asserts of `getFile`, `putFile` and `writeErrorMessage` over a whole call, whatever datagrams
it receives. Two of them depend on the datagrams: the size of a block and the code of an ERROR.
-/

namespace NetworkProtocols
namespace Tftp

open Transition

/-- What the environment answers in one turn: the local calls and `recv()`. -/
abbrev Answer := ClientOutcomes × Option Datagram

/-- A waiting call takes its next turn; beside it stands what the last turn sent. -/
inductive Call.Step {L : Type} (turn : L → ClientOutcomes → Option Datagram →
    Call L × List Datagram) : Call L × List Datagram → Answer → Call L × List Datagram → Prop
  | turn {locals sent o d} : Step turn (.waiting locals, sent) (o, d) (turn locals o d)

def Call.Sound {L : Type} (r : Call L × List Datagram) : Prop :=
  (∀ c, r.1 ≠ .aborted c) ∧ ∀ m ∈ r.2, m.length ≤ bufferSize

def ErrorListed (data : Buffer) : Prop :=
  data.word 0 = MessageType.error.code → data.word 2 ≤ 8

/-- The DATA that a call of `getFile` awaits is as long as its header, and an ERROR is listed. -/
def GetFile.Handled (r : Call GetFile × List Datagram) (a : Answer) : Prop :=
  match r.1, a.2 with
  | .waiting g, some d =>
    let data := g.client.recvBuffer.fill d
    ErrorListed data ∧
      (data.word 0 = MessageType.data.code → data.word 2 = g.expectedBlockNumber + 1 →
        4 ≤ d.length)
  | _, _ => True

def PutFile.Handled (r : Call PutFile × List Datagram) (a : Answer) : Prop :=
  match r.1, a.2 with
  | .waiting p, some d => ErrorListed (p.client.recvBuffer.fill d)
  | _, _ => True

section Sound

variable {L : Type} {sent : List Datagram} {c : TFTPClient}

theorem sound_waiting {locals : L} (h : ∀ m ∈ sent, m.length ≤ bufferSize) :
    Call.Sound (.waiting locals, sent) := ⟨fun _ => by simp, h⟩

theorem sound_returned {result : Bool} (h : ∀ m ∈ sent, m.length ≤ bufferSize) :
    Call.Sound (L := L) (.returned result c, sent) := ⟨fun _ => by simp, h⟩

theorem waiting_sound {locals : L} : Call.Sound (.waiting locals, []) :=
  sound_waiting (List.forall_mem_nil _)

theorem returned_sound {result : Bool} : Call.Sound (L := L) (.returned result c, []) :=
  sound_returned (List.forall_mem_nil _)

theorem not_sound_aborted : ¬ Call.Sound (L := L) (.aborted c, sent) := fun h => h.1 c rfl

end Sound

/-- The `switch` knows the codes from 0 to 8. -/
theorem ErrorCode.ofCode_isSome_iff {w : UInt16} : (ErrorCode.ofCode w).isSome ↔ w ≤ 8 := by
  constructor
  · intro hsome
    obtain ⟨e, -, he⟩ := List.find?_isSome.mp hsome
    rw [decide_eq_true_eq] at he
    rw [← he]
    cases e <;> decide
  · intro hle
    have hlisted : ∀ n < 9, (ErrorCode.ofCode (UInt16.ofNat n)).isSome = true := by decide
    rw [← UInt16.ofNat_toNat (x := w)]
    exact hlisted w.toNat (Nat.lt_succ_of_le (UInt16.le_iff_toNat_le.mp hle))

theorem TFTPClient.writeErrorMessage_isSome_iff {c : TFTPClient}
    (hw : c.recvBuffer.word 0 = MessageType.error.code) :
    c.writeErrorMessage.isSome ↔ c.recvBuffer.word 2 ≤ 8 := by
  rw [TFTPClient.writeErrorMessage, if_neg (not_not.mpr hw), Option.isSome_map,
    ErrorCode.ofCode_isSome_iff]

theorem storeAndAcknowledge_sound (g : GetFile) (o : ClientOutcomes) (blockNum : UInt16)
    (block : Bytes) : Call.Sound (g.storeAndAcknowledge o blockNum block) := by
  have hack : ∀ m ∈ [ackMessage blockNum], m.length ≤ bufferSize := by
    intro m hm
    rw [List.mem_singleton.mp hm]
    show 4 ≤ bufferSize
    decide
  unfold GetFile.storeAndAcknowledge
  dsimp only
  split
  · exact returned_sound
  split
  · exact sound_returned hack
  · exact sound_waiting hack

theorem sendNextBlock_sound (p : PutFile) (o : ClientOutcomes) :
    Call.Sound (p.sendNextBlock o) := by
  obtain ⟨q, f, -, hsend⟩ := p.fillSendBuffer_eq .blank
  rw [hsend]
  split
  · refine sound_waiting fun m hm => ?_
    rw [List.mem_singleton.mp hm]
    exact f.message_length_le
  · exact returned_sound

theorem blockSize_le_iff (d : Datagram) :
    sizeSub (min d.length bufferSize) 4 ≤ 512 ↔ 4 ≤ d.length :=
  (sizeSub_le_iff (Nat.min_le_right ..) (by decide)).trans (header_received_iff _)

theorem report_isSome_iff {c : TFTPClient} (hw : c.recvBuffer.word 0 = MessageType.error.code) :
    c.writeErrorMessage.isSome ↔ ErrorListed c.recvBuffer := by
  rw [TFTPClient.writeErrorMessage_isSome_iff hw, ErrorListed, imp_iff_right hw]

section Reports

variable {c : TFTPClient} (hw : c.recvBuffer.word 0 = MessageType.error.code)

include hw

theorem not_listed_of_report (h : c.writeErrorMessage = none) : ¬ ErrorListed c.recvBuffer := by
  rw [← report_isSome_iff hw, h]
  exact Bool.false_ne_true

theorem listed_of_report {e : ErrorReport} (h : c.writeErrorMessage = some e) :
    ErrorListed c.recvBuffer := by
  rw [← report_isSome_iff hw, h]
  rfl

end Reports

theorem PutFile.turn_sound_iff (p : PutFile) (sent : List Datagram) (o : ClientOutcomes)
    (d : Option Datagram) :
    Call.Sound (p.turn o d) ↔ PutFile.Handled (.waiting p, sent) (o, d) := by
  cases d with
  | none => exact iff_of_true returned_sound trivial
  | some d =>
    unfold PutFile.turn PutFile.Handled
    dsimp only
    split
    · rename_i hw
      split
      · rename_i hreport
        have hlisted := not_listed_of_report hw hreport
        exact iff_of_false not_sound_aborted hlisted
      · rename_i hreport
        have hlisted := listed_of_report hw hreport
        exact iff_of_true returned_sound hlisted
    · rename_i hw
      refine iff_of_true ?_ fun hcode => absurd hcode hw
      split
      · split
        · exact returned_sound
        split
        · exact returned_sound
        · exact sendNextBlock_sound _ _
      · exact waiting_sound

theorem GetFile.turn_sound_iff (g : GetFile) (sent : List Datagram) (o : ClientOutcomes)
    (d : Option Datagram) :
    Call.Sound (g.turn o d) ↔ GetFile.Handled (.waiting g, sent) (o, d) := by
  cases d with
  | none => exact iff_of_true returned_sound trivial
  | some d =>
    unfold GetFile.turn GetFile.Handled
    dsimp only
    split
    · rename_i hw
      have hdata : (g.client.recvBuffer.fill d).word 0 ≠ MessageType.data.code := by
        intro hdata
        exact absurd (hdata.symm.trans hw) (by decide)
      split
      · rename_i hreport
        have hlisted := not_listed_of_report hw hreport
        exact iff_of_false not_sound_aborted fun h => hlisted h.1
      · rename_i hreport
        have hlisted := listed_of_report hw hreport
        exact iff_of_true returned_sound ⟨hlisted, fun hcode => absurd hcode hdata⟩
    · rename_i hw
      have hlisted : ErrorListed (g.client.recvBuffer.fill d) := fun hcode => absurd hcode hw
      split
      · rename_i hdata
        split
        · rename_i hnumber
          exact iff_of_true returned_sound
            ⟨hlisted, fun _ heq => absurd heq hnumber⟩
        · rename_i hnumber
          have hsize := blockSize_le_iff d
          split
          · rename_i hle
            exact iff_of_true (storeAndAcknowledge_sound _ _ _ _)
              ⟨hlisted, fun _ _ => hsize.mp hle⟩
          · rename_i hlt
            refine iff_of_false not_sound_aborted fun h => hlt (hsize.mpr ?_)
            exact h.2 hdata (not_not.mp hnumber)
      · rename_i hdata
        exact iff_of_true waiting_sound ⟨hlisted, fun hcode => absurd hcode hdata⟩

theorem getFile_sound (c : TFTPClient) (o : ClientOutcomes) (src dst : Bytes) :
    Call.Sound (c.getFile o src dst) := by
  have hfits := requestMessage_length_le .rrq src c.transferMode
  unfold TFTPClient.getFile
  dsimp only
  split
  · exact returned_sound
  split
  · exact sound_waiting (by simpa using hfits)
  · exact returned_sound

theorem putFile_sound (c : TFTPClient) (o : ClientOutcomes) (src dst : Bytes) :
    Call.Sound (c.putFile o src dst) := by
  have hfits := requestMessage_length_le .wrq dst c.transferMode
  unfold TFTPClient.putFile
  dsimp only
  split
  · exact returned_sound
  split
  · exact sound_waiting (by simpa using hfits)
  · exact returned_sound

/-- In every state of a run that follows, no assert has failed and what was sent fits, if and only
if at each turn an ERROR has a listed code and the awaited DATA is as long as its header. -/
theorem assertions_hold_iff (c : TFTPClient) (o : ClientOutcomes) (src dst : Bytes)
    {getRun : List (Answer × (Call GetFile × List Datagram))}
    {putRun : List (Answer × (Call PutFile × List Datagram))}
    (hget : Trace (Call.Step GetFile.turn) (c.getFile o src dst) getRun)
    (hput : Trace (Call.Step PutFile.turn) (c.putFile o src dst) putRun) :
    (Call.Sound (c.getFile o src dst) ∧
      ((∀ p ∈ getRun, Call.Sound p.2) ↔
        Steps GetFile.Handled (c.getFile o src dst) getRun)) ∧
    Call.Sound (c.putFile o src dst) ∧
      ((∀ p ∈ putRun, Call.Sound p.2) ↔
        Steps PutFile.Handled (c.putFile o src dst) putRun) := by
  refine ⟨⟨getFile_sound c o src dst, ?_⟩, putFile_sound c o src dst, ?_⟩
  · refine hget.steps_iff (fun _ => True) Call.Sound _ (fun _ _ _ _ _ => trivial) ?_ trivial
      (getFile_sound c o src dst)
    rintro _ _ _ - - ⟨⟩
    exact GetFile.turn_sound_iff _ _ _ _
  · refine hput.steps_iff (fun _ => True) Call.Sound _ (fun _ _ _ _ _ => trivial) ?_ trivial
      (putFile_sound c o src dst)
    rintro _ _ _ - - ⟨⟩
    exact PutFile.turn_sound_iff _ _ _ _

/-- Both calls report an ERROR with a listed code. -/
theorem assertions_hold_disk_full :
    let c : TFTPClient := .init .binary (.single [97] [1])
    let d := errorMessage .diskFull []
    ∃ g p, (c.getFile {} [97] [98]).1 = .waiting g ∧ (c.putFile {} [97] [98]).1 = .waiting p ∧
      Call.Sound (g.turn {} (some d)) ∧ Call.Sound (p.turn {} (some d)) := by
  intro c d
  let g : GetFile := {
    client := { c with files := (OfStream.openFile c.files {} [98] true).2 }
    dstFilename := [98]
    outFile := { file := some [98] } }
  let p : PutFile := { client := c, inFile := { file := some [97] } }
  have hlisted : ErrorListed (Buffer.blank.fill d) := fun _ => by decide
  obtain ⟨⟨-, hget⟩, -, hput⟩ := @assertions_hold_iff c {} [97] [98]
    [(({}, some d), g.turn {} (some d))] [(({}, some d), p.turn {} (some d))]
    (.cons .turn .nil) (.cons .turn .nil)
  refine ⟨g, p, rfl, rfl, hget.mpr ⟨⟨hlisted, ?_⟩, trivial⟩ _ List.mem_cons_self,
    hput.mpr ⟨hlisted, trivial⟩ _ List.mem_cons_self⟩
  exact fun hdata => absurd hdata (by decide)

/-- The first three bytes of a DATA message, completed by the zeros of the buffer, and an ERROR
with code 9. -/
theorem assertions_fail :
    let c : TFTPClient := .init .binary (.single [97] [1])
    ∃ g p, (c.getFile {} [97] [98]).1 = .waiting g ∧ (c.putFile {} [97] [98]).1 = .waiting p ∧
      ¬ Call.Sound (g.turn {} (some [3, 0, 1])) ∧ ¬ Call.Sound (p.turn {} (some [5, 0, 9, 0])) := by
  intro c
  refine ⟨_, _, rfl, rfl, fun hsound => ?_, fun hsound => ?_⟩
  · have hhandled := (GetFile.turn_sound_iff _ [] {} _).mp hsound
    exact absurd (hhandled.2 rfl rfl) (by decide)
  · have hhandled := (PutFile.turn_sound_iff _ [] {} _).mp hsound
    exact absurd (hhandled rfl) (by decide)

end Tftp
end NetworkProtocols
