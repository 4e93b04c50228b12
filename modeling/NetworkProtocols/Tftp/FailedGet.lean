import NetworkProtocols.Tftp.Assertions

/-!
# What a failed `getFile` leaves

Whether the destination file is gone when `getFile` returns `false`. Two of its exits do not call
`removeOutFile`: the one behind the send of the request and the one behind `recv()`.
-/

namespace NetworkProtocols
namespace Tftp
namespace GetFile

open Transition

/-- If the call has returned `false`, then the destination file does not exist. -/
def LeavesNoFile (dst : Bytes) (r : Call GetFile × List Datagram) : Prop :=
  ∀ c, r.1 = .returned false c → c.files.lookup dst = none

def RemovableStep (r : Call GetFile × List Datagram) (a : Answer)
    (r' : Call GetFile × List Datagram) : Prop :=
  Call.Step turn r a r' ∧ a.1.removeOk = true

def HasFile (dst : Bytes) (r : Call GetFile × List Datagram) : Prop :=
  ∀ g, r.1 = .waiting g → g.dstFilename = dst ∧ (g.client.files.lookup dst).isSome = true

variable {dst : Bytes} {g : GetFile} {o : ClientOutcomes} {sent : List Datagram}

theorem leavesNoFile_waiting : LeavesNoFile dst (.waiting g, sent) := fun _ h => nomatch h

theorem leavesNoFile_aborted {c : TFTPClient} : LeavesNoFile dst (.aborted c, sent) :=
  fun _ h => nomatch h

theorem leavesNoFile_true {c : TFTPClient} : LeavesNoFile dst (.returned true c, sent) :=
  fun _ h => nomatch h

theorem leavesNoFile_removed (hdst : g.dstFilename = dst) (ho : o.removeOk = true) :
    LeavesNoFile dst (.returned false (g.removeOutFile o), sent) := by
  rintro c ⟨⟩
  subst hdst
  simp [removeOutFile, ho, FileSystem.lookup, FileSystem.remove]

theorem hasFile_returned {result : Bool} {c : TFTPClient} :
    HasFile dst (.returned result c, sent) := fun _ h => nomatch h

theorem hasFile_aborted {c : TFTPClient} : HasFile dst (.aborted c, sent) := fun _ h => nomatch h

theorem lookup_append_isSome {fs : FileSystem} (p : Path) (bytes : Bytes)
    (h : (fs.lookup dst).isSome = true) : ((fs.append p bytes).lookup dst).isSome = true := by
  rw [FileSystem.lookup, FileSystem.append_toNaming]
  by_cases hp : fs.denotes dst = p
  · subst hp
    rw [FileSystem.append_content_self, Option.isSome_map]
    exact h
  · rw [FileSystem.append_content_of_ne _ _ _ hp]
    exact h

theorem lookup_write_isSome {fs : FileSystem} (s : OfStream) (bytes : Bytes)
    (h : (fs.lookup dst).isSome = true) :
    ((s.write fs bytes).2.lookup dst).isSome = true := by
  unfold OfStream.write
  split
  · exact h
  split
  · exact lookup_append_isSome _ _ h
  · exact h

theorem lookup_storeNetascii_isSome {fs : FileSystem} (s : OfStream) (bytes : Bytes)
    (h : (fs.lookup dst).isSome = true) :
    ((storeNetascii fs s bytes).2.lookup dst).isSome = true := by
  induction bytes generalizing fs s with
  | nil => exact h
  | cons b bytes ih =>
    rw [storeNetascii]
    split
    · exact ih s h
    · exact ih _ (lookup_write_isSome s [b] h)

theorem lookup_storePayload_isSome {fs : FileSystem} (mode : TransferMode) (s : OfStream)
    (bytes : Bytes) (h : (fs.lookup dst).isSome = true) :
    ((storePayload fs mode s bytes).2.lookup dst).isSome = true := by
  cases mode with
  | binary => exact lookup_write_isSome s bytes h
  | ascii => exact lookup_storeNetascii_isSome s bytes h

theorem storeAndAcknowledge_hasFile (hdst : g.dstFilename = dst)
    (h : (g.client.files.lookup dst).isSome = true) (blockNum : UInt16) (block : Bytes) :
    HasFile dst (g.storeAndAcknowledge o blockNum block) := by
  unfold storeAndAcknowledge
  dsimp only
  split
  · exact hasFile_returned
  split
  · exact hasFile_returned
  · rintro _ ⟨⟩
    exact ⟨hdst, lookup_storePayload_isSome _ _ _ h⟩

theorem storeAndAcknowledge_leavesNoFile (hdst : g.dstFilename = dst) (ho : o.removeOk = true)
    (blockNum : UInt16) (block : Bytes) :
    LeavesNoFile dst (g.storeAndAcknowledge o blockNum block) := by
  unfold storeAndAcknowledge
  dsimp only
  split
  · exact leavesNoFile_removed hdst ho
  split
  · exact leavesNoFile_true
  · exact leavesNoFile_waiting

/-- A turn stores what it received or leaves the file alone. -/
theorem turn_hasFile (hdst : g.dstFilename = dst)
    (h : (g.client.files.lookup dst).isSome = true) (d : Option Datagram) :
    HasFile dst (g.turn o d) := by
  cases d with
  | none => exact hasFile_returned
  | some d =>
    unfold turn
    dsimp only
    split
    · split
      · exact hasFile_aborted
      · exact hasFile_returned
    split
    · split
      · exact hasFile_returned
      split
      · refine storeAndAcknowledge_hasFile ?_ ?_ _ _
        · exact hdst
        · exact h
      · exact hasFile_aborted
    · rintro _ ⟨⟩
      exact ⟨hdst, h⟩

/-- Only a failed `recv()` returns without a removal. -/
theorem turn_leavesNoFile_iff (hdst : g.dstFilename = dst)
    (h : (g.client.files.lookup dst).isSome = true) (ho : o.removeOk = true)
    (d : Option Datagram) : LeavesNoFile dst (g.turn o d) ↔ d ≠ none := by
  cases d with
  | none =>
    refine iff_of_false (fun hleaves => ?_) (not_not.mpr rfl)
    rw [hleaves g.client rfl] at h
    cases h
  | some d =>
    refine iff_of_true ?_ (Option.some_ne_none d)
    unfold turn
    dsimp only
    split
    · split
      · exact leavesNoFile_aborted
      · exact leavesNoFile_removed hdst ho
    split
    · split
      · exact leavesNoFile_removed hdst ho
      split
      · refine storeAndAcknowledge_leavesNoFile ?_ ho _ _
        exact hdst
      · exact leavesNoFile_aborted
    · exact leavesNoFile_waiting

/-- An opened call waits with its file, or has returned behind a failed send. -/
theorem getFile_opened (c : TFTPClient) (src dst : Bytes) (hopen : o.openOk = true) :
    HasFile dst (c.getFile o src dst) ∧
      (LeavesNoFile dst (c.getFile o src dst) ↔ o.sendOk = true) := by
  have hfits := requestMessage_length_le .rrq src c.transferMode
  have hopened : OfStream.openFile c.files {} dst true = _ := OfStream.openFile_granted dst rfl
  have hfile : ((c.files.create (c.files.denotes dst)).lookup dst).isSome = true := by
    simp [FileSystem.lookup]
  unfold TFTPClient.getFile
  simp only [hopen, hopened, Bool.false_eq_true, if_false, if_pos hfits]
  split
  · rename_i hsend
    refine ⟨?_, iff_of_true leavesNoFile_waiting hsend⟩
    rintro _ ⟨⟩
    exact ⟨rfl, hfile⟩
  · rename_i hsend
    refine ⟨hasFile_returned, iff_of_false (fun hleaves => ?_) hsend⟩
    rw [hleaves _ rfl] at hfile
    cases hfile

end GetFile

open Transition GetFile

/-- With its destination file opened and removal succeeding, `getFile` leaves no file in any state
of a run in which it has returned `false`, if and only if neither the send of the request nor a
`recv()` has failed. -/
theorem failed_get_removed_iff (c : TFTPClient) (o : ClientOutcomes) (src dst : Bytes)
    (hopen : o.openOk = true) {run : List (Answer × (Call GetFile × List Datagram))}
    (hrun : Trace RemovableStep (c.getFile o src dst) run) :
    (LeavesNoFile dst (c.getFile o src dst) ∧ ∀ p ∈ run, LeavesNoFile dst p.2) ↔
      o.sendOk = true ∧ ∀ p ∈ run, p.1.2 ≠ none := by
  obtain ⟨hfile, hsend⟩ := getFile_opened c src dst hopen
  have hevents : Steps (fun _ (a : Answer) => a.2 ≠ none) (c.getFile o src dst) run ↔
      ∀ p ∈ run, p.1.2 ≠ none := steps_event_iff
  rw [← hsend, ← hevents]
  refine and_congr_right fun hstart => ?_
  refine hrun.steps_iff (HasFile dst) (LeavesNoFile dst) _ ?_ ?_ hfile hstart
  · rintro _ _ _ hinv ⟨⟨⟩, -⟩
    obtain ⟨hdst, hlookup⟩ := hinv _ rfl
    exact turn_hasFile hdst hlookup _
  · rintro _ _ _ hinv - ⟨⟨⟩, hremove⟩
    obtain ⟨hdst, hlookup⟩ := hinv _ rfl
    exact turn_leavesNoFile_iff hdst hlookup hremove _

/-- An ERROR behind a granted request. -/
theorem failed_get_removed_error :
    let c : TFTPClient := .init .binary (.single [97] [1])
    let d := errorMessage .diskFull []
    ∃ g, (c.getFile {} [97] [98]).1 = .waiting g ∧ LeavesNoFile [98] (g.turn {} (some d)) ∧
      ∃ c', (g.turn {} (some d)).1 = .returned false c' := by
  intro c d
  let g : GetFile := {
    client := { c with files := (OfStream.openFile c.files {} [98] true).2 }
    dstFilename := [98]
    outFile := { file := some [98] } }
  have hrun := @failed_get_removed_iff c {} [97] [98] rfl [(({}, some d), g.turn {} (some d))]
    (.cons ⟨.turn, rfl⟩ .nil)
  have hleaves := (hrun.mpr ⟨rfl, by simp⟩).2 _ List.mem_cons_self
  exact ⟨g, rfl, hleaves, _, rfl⟩

/-- A `recv()` that fails behind the request, and a request that cannot be sent, leave the empty
file that `open` made. -/
theorem failed_get_leaves_file :
    let c : TFTPClient := .init .binary (.single [97] [1])
    ∃ g c₁ c₂, (c.getFile {} [97] [98]).1 = .waiting g ∧
      (g.turn {} none).1 = .returned false c₁ ∧
      (c.getFile { sendOk := false } [97] [98]).1 = .returned false c₂ ∧
      c₁.files.lookup [98] = some [] ∧ c₂.files.lookup [98] = some [] ∧
      ¬ LeavesNoFile [98] (g.turn {} none) := by
  intro c
  refine ⟨_, _, _, rfl, rfl, rfl, by decide, by decide, fun h => ?_⟩
  exact absurd (h _ rfl) (by decide)

end Tftp
end NetworkProtocols
