import NetworkProtocols.Tftp.Assertions
import NetworkProtocols.Tftp.Footprint

/-!
# What a call does to the files of the client

`getFile` writes and removes its destination and `putFile` reads its source, whatever the
datagrams are that they receive and whatever the environment answers.
-/

namespace NetworkProtocols
namespace Tftp
namespace ClientFiles

open FileSystem Transition

/-- The files of the client's host, as a call has left them. -/
def files {L : Type} (client : L → TFTPClient) : Call L → FileSystem
  | .waiting locals => (client locals).files
  | .returned _ c => c.files
  | .aborted c => c.files

variable {own : Path → Prop} {start : FileSystem} {dst : Bytes} {o : ClientOutcomes}

theorem agreeOn_remove {fs : FileSystem} {p : Path} (hp : own p) :
    AgreeOn (fun q => ¬ own q) (fs.remove p) fs := by
  refine ⟨rfl, fun q hq => Function.update_of_ne ?_ _ _⟩
  rintro rfl
  exact hq hp

/-- A waiting call writes its destination only, and no other file has changed. -/
structure Confined (start : FileSystem) (dst : Bytes) (g : GetFile) : Prop where
  name : g.dstFilename = dst
  stream : g.outFile.In fun p => p = start.denotes dst
  frame : AgreeOn (fun p => ¬ p = start.denotes dst) g.client.files start

def CallConfined (start : FileSystem) (dst : Bytes) (call : Call GetFile) : Prop :=
  AgreeOn (fun p => ¬ p = start.denotes dst) (files GetFile.client call) start ∧
    ∀ g, call = .waiting g → Confined start dst g

theorem callConfined_waiting {g : GetFile} (h : Confined start dst g) :
    CallConfined start dst (.waiting g) :=
  ⟨h.frame, fun g' heq => by cases heq; exact h⟩

theorem callConfined_returned {b : Bool} {c : TFTPClient}
    (h : AgreeOn (fun p => ¬ p = start.denotes dst) c.files start) :
    CallConfined start dst (.returned b c) :=
  ⟨h, fun _ heq => nomatch heq⟩

theorem callConfined_aborted {c : TFTPClient}
    (h : AgreeOn (fun p => ¬ p = start.denotes dst) c.files start) :
    CallConfined start dst (.aborted c) :=
  ⟨h, fun _ heq => nomatch heq⟩

namespace Confined

variable {g : GetFile} (h : Confined start dst g)

include h

theorem removeOutFile (o : ClientOutcomes) :
    AgreeOn (fun p => ¬ p = start.denotes dst) (g.removeOutFile o).files start := by
  unfold GetFile.removeOutFile
  split
  · have hname : g.client.files.denotes g.dstFilename = start.denotes dst := by
      rw [h.name, h.frame.1]
    have hremoved : AgreeOn (fun p => ¬ p = start.denotes dst) (g.client.files.remove _)
        g.client.files := agreeOn_remove hname
    exact hremoved.trans h.frame
  · exact h.frame

theorem storeAndAcknowledge (o : ClientOutcomes) (blockNum : UInt16) (block : Bytes) :
    CallConfined start dst (g.storeAndAcknowledge o blockNum block).1 := by
  obtain ⟨hin, hframe⟩ :=
    storePayload_frame g.client.files h.stream g.client.transferMode block
  have hnext : Confined start dst { g with
      outFile := (storePayload g.client.files g.client.transferMode g.outFile block).1
      client := { g.client with
        files := (storePayload g.client.files g.client.transferMode g.outFile block).2 } } :=
    ⟨h.name, hin, hframe.trans h.frame⟩
  unfold GetFile.storeAndAcknowledge
  dsimp only
  split
  · exact callConfined_returned (hnext.removeOutFile o)
  split
  · exact callConfined_returned hnext.frame
  · exact callConfined_waiting hnext

/-- One turn, with whatever datagram. -/
theorem turn (o : ClientOutcomes) (d : Option Datagram) :
    CallConfined start dst (g.turn o d).1 := by
  cases d with
  | none => exact callConfined_returned h.frame
  | some d =>
    have hrecv : Confined start dst { g with client := g.client.recv d } :=
      ⟨h.name, h.stream, h.frame⟩
    have hcount : Confined start dst { g with
        client := g.client.recv d, expectedBlockNumber := g.expectedBlockNumber + 1 } :=
      ⟨h.name, h.stream, h.frame⟩
    unfold GetFile.turn
    dsimp only
    split
    · split
      · exact callConfined_aborted h.frame
      · exact callConfined_returned (hrecv.removeOutFile o)
    split
    · split
      · exact callConfined_returned (hcount.removeOutFile o)
      split
      · exact hcount.storeAndAcknowledge o _ _
      · exact callConfined_aborted h.frame
    · exact callConfined_waiting hcount

end Confined

theorem getFile_confined (c : TFTPClient) (o : ClientOutcomes) (name dst : Bytes) :
    CallConfined c.files dst (c.getFile o name dst).1 := by
  have hempty : OfStream.In (fun p => p = c.files.denotes dst) {} := fun _ hp => nomatch hp
  obtain ⟨hin, hframe⟩ := OfStream.openFile_frame hempty (rfl : c.files.denotes dst = _) o.openOk
  unfold TFTPClient.getFile
  dsimp only
  split
  · exact callConfined_returned hframe
  split
  · split
    · exact callConfined_waiting ⟨rfl, hin, hframe⟩
    · exact callConfined_returned hframe
  · exact callConfined_aborted hframe

theorem turn_putFile (p : PutFile) (o : ClientOutcomes) (d : Option Datagram) :
    files PutFile.client (p.turn o d).1 = p.client.files := by
  cases d with
  | none => rfl
  | some d =>
    unfold PutFile.turn
    dsimp only
    split
    · split <;> rfl
    split
    · split
      · rfl
      split
      · rfl
      · unfold PutFile.sendNextBlock
        dsimp only
        split
        · split <;> rfl
        · rfl
    · rfl

theorem putFile_files (c : TFTPClient) (o : ClientOutcomes) (src name : Bytes) :
    files PutFile.client (c.putFile o src name).1 = c.files := by
  unfold TFTPClient.putFile
  dsimp only
  split
  · rfl
  split
  · split <;> rfl
  · rfl

/-- Whatever it receives, a GET changes no file of its host but its destination, and a PUT changes
none. -/
theorem client_files_confined (c : TFTPClient) (o : ClientOutcomes) (src name dst : Bytes)
    (getRun : List (Answer × (Call GetFile × List Datagram)))
    (putRun : List (Answer × (Call PutFile × List Datagram)))
    (hget : Trace (Call.Step GetFile.turn) (c.getFile o name dst) getRun)
    (hput : Trace (Call.Step PutFile.turn) (c.putFile o src name) putRun) :
    (∀ r ∈ getRun, ∀ q, q ≠ c.files.denotes dst →
      (files GetFile.client r.2.1).content q = c.files.content q) ∧
    ∀ r ∈ putRun, files PutFile.client r.2.1 = c.files := by
  constructor
  · have hkept : ∀ r a r', CallConfined c.files dst r.1 → Call.Step GetFile.turn r a r' →
        CallConfined c.files dst r'.1 := by
      intro r a r' hr hst
      cases hst with
      | turn => exact (hr.2 _ rfl).turn _ _
    have hall := hget.invariant hkept (getFile_confined c o name dst)
    exact fun r hr q hq => (hall r hr).1.2 q hq
  · have hkept : ∀ r a r', files PutFile.client r.1 = c.files →
        Call.Step PutFile.turn r a r' → files PutFile.client r'.1 = c.files := by
      intro r a r' hr hst
      cases hst with
      | turn => exact (turn_putFile _ _ _).trans hr
    exact hput.invariant hkept (putFile_files c o src name)

theorem client_files_confined_strangers :
    ∃ (getRun : List (Answer × (Call GetFile × List Datagram)))
      (putRun : List (Answer × (Call PutFile × List Datagram))),
      getRun.length = 1 ∧ putRun.length = 1 ∧
      (∀ r ∈ getRun, ∀ q, q ≠ [99] →
        (files GetFile.client r.2.1).content q = (FileSystem.single [98] [7]).content q) ∧
      ∀ r ∈ putRun, files PutFile.client r.2.1 = .single [98] [7] := by
  have hget : Trace (Call.Step GetFile.turn)
      ((TFTPClient.init .binary (.single [98] [7])).getFile {} [97] [99])
      [(({}, some (dataMessage 5 [1])), _)] := .cons .turn .nil
  have hput : Trace (Call.Step PutFile.turn)
      ((TFTPClient.init .binary (.single [98] [7])).putFile {} [98] [97])
      [(({}, some (ackMessage 0)), _)] := .cons .turn .nil
  exact ⟨_, _, rfl, rfl, client_files_confined (.init .binary (.single [98] [7])) {} [98] [97] [99]
    _ _ hget hput⟩

end ClientFiles
end Tftp
end NetworkProtocols
