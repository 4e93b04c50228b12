import NetworkProtocols.Tftp.UnknownRuns

/-!
# `getFile` among unknown messages

Beside the buffer, the number that `getFile` expects passes from one turn to the next, and every
message raises it.
-/

namespace NetworkProtocols
namespace Tftp

open Bytes Insertion Isolation

/-- What may be DATA is no shorter than its header, cannot be acknowledged, and leaves the same
file whether it is stored or not. -/
def GetFile.Unaffected : Call GetFile → Answer → Prop
  | .waiting g, (o, some d) =>
    ErrorDecided g.client.recvBuffer d ∧
      (MayBe g.client.recvBuffer d .data → 4 ≤ d.length ∧ o.sendOk = false ∧
        (o.removeOk = true ∨ decode g.client.transferMode ((d.take bufferSize).drop 4) = []))
  | _, _ => True

namespace GetFile

/-- The call has its destination file open. -/
structure Opened (g : GetFile) : Prop where
  file : g.outFile.file = some (g.client.files.denotes g.dstFilename)
  ok : g.outFile.fail = false
  found : (g.client.files.lookup g.dstFilename).isSome = true

/-- The same call with another receive buffer and another number that it expects. -/
def shifted (g : GetFile) (buffer : Buffer) (n : UInt16) : GetFile :=
  { g with client := { g.client with recvBuffer := buffer }, expectedBlockNumber := n }

def Same (g g' : GetFile) : Prop :=
  g.Opened ∧ ∃ buffer n, OpcodeAlike .data g.client.recvBuffer buffer ∧ g' = g.shifted buffer n

abbrev see : Call GetFile → Status × FileSystem := Call.see GetFile.client

variable {g : GetFile} {o : ClientOutcomes} {d : Datagram} {buffer : Buffer} {n : UInt16}

theorem Opened.shifted (h : g.Opened) (buffer : Buffer) (n : UInt16) :
    (g.shifted buffer n).Opened := ⟨h.file, h.ok, h.found⟩

theorem turn_some (g : GetFile) (o : ClientOutcomes) (d : Datagram) :
    g.turn o (some d) =
      let data := g.client.recvBuffer.fill d
      let next := g.shifted data (g.expectedBlockNumber + 1)
      if data.word 0 = MessageType.error.code then
        match (g.client.recv d).writeErrorMessage with
        | none => (.aborted (g.client.recv d), [])
        | some _ => (.returned false
            ((g.shifted data g.expectedBlockNumber).removeOutFile o), [])
      else if data.word 0 = MessageType.data.code then
        if data.word 2 ≠ g.expectedBlockNumber + 1 then
          (.returned false (next.removeOutFile o), [])
        else if sizeSub (min d.length bufferSize) 4 ≤ 512 then
          next.storeAndAcknowledge o (data.word 2)
            ((data.bytes.drop 4).take (sizeSub (min d.length bufferSize) 4))
        else (.aborted (g.client.recv d), [])
      else (.waiting next, []) := rfl

theorem removeOutFile_shifted (g : GetFile) (buffer : Buffer) (n : UInt16) (o : ClientOutcomes) :
    ((g.shifted buffer n).removeOutFile o).files = (g.removeOutFile o).files := by
  unfold removeOutFile
  split <;> rfl

theorem seen_turn_error (hw : (g.client.recvBuffer.fill d).word 0 = MessageType.error.code) :
    seen see (g.turn o (some d)) =
      if (g.client.recvBuffer.fill d).word 2 ≤ 8 then
        ((.returned false, (g.removeOutFile o).files), [])
      else ((.aborted, g.client.files), []) := by
  rw [turn_some]
  dsimp only
  rw [if_pos hw]
  rcases TFTPClient.writeErrorMessage_cases hw with ⟨hle, report, hreport⟩ | ⟨hle, hreport⟩
  · rw [if_pos hle, hreport,
      ← removeOutFile_shifted g (g.client.recvBuffer.fill d) g.expectedBlockNumber o]
    rfl
  · rw [if_neg hle, hreport]
    rfl

theorem turn_other (herror : (g.client.recvBuffer.fill d).word 0 ≠ MessageType.error.code)
    (hdata : (g.client.recvBuffer.fill d).word 0 ≠ MessageType.data.code) :
    g.turn o (some d) =
      (.waiting (g.shifted (g.client.recvBuffer.fill d) (g.expectedBlockNumber + 1)), []) := by
  rw [turn_some]
  dsimp only
  rw [if_neg herror, if_neg hdata]

theorem turn_unknown (hd : 2 ≤ d.length) (herror : opcode d ≠ MessageType.error.code)
    (hdata : opcode d ≠ MessageType.data.code) :
    g.turn o (some d) =
      (.waiting (g.shifted (g.client.recvBuffer.fill d) (g.expectedBlockNumber + 1)), []) := by
  have hword := word_zero_fill g.client.recvBuffer hd
  exact turn_other (ne_of_eq_of_ne hword herror) (ne_of_eq_of_ne hword hdata)

section Data

variable (hw : (g.client.recvBuffer.fill d).word 0 = MessageType.data.code)

include hw

theorem turn_data :
    g.turn o (some d) =
      let data := g.client.recvBuffer.fill d
      let next := g.shifted data (g.expectedBlockNumber + 1)
      if data.word 2 ≠ g.expectedBlockNumber + 1 then (.returned false (next.removeOutFile o), [])
      else if 4 ≤ d.length then
        next.storeAndAcknowledge o (data.word 2) ((d.take bufferSize).drop 4)
      else (.aborted (g.client.recv d), []) := by
  have hne : ¬ (g.client.recvBuffer.fill d).word 0 = MessageType.error.code := by
    rw [hw]
    decide
  have hsize := blockSize_le_iff d
  rw [turn_some]
  dsimp only
  rw [if_neg hne, if_pos hw]
  by_cases hd : 4 ≤ d.length
  · rw [if_pos hd, if_pos (hsize.mpr hd), block_fill _ hd]
  · rw [if_neg hd, if_neg fun hle => hd (hsize.mp hle)]

theorem seen_turn_number (hn : (g.client.recvBuffer.fill d).word 2 ≠ g.expectedBlockNumber + 1) :
    seen see (g.turn o (some d)) = ((.returned false, (g.removeOutFile o).files), []) := by
  rw [turn_data hw]
  dsimp only
  rw [if_pos hn, ← removeOutFile_shifted g (g.client.recvBuffer.fill d)
    (g.expectedBlockNumber + 1) o]
  rfl

variable (hn : (g.client.recvBuffer.fill d).word 2 = g.expectedBlockNumber + 1)

include hn

theorem seen_turn_short (hd : d.length < 4) :
    seen see (g.turn o (some d)) = ((.aborted, g.client.files), []) := by
  rw [turn_data hw]
  dsimp only
  rw [if_neg (not_not.mpr hn), if_neg (by omega)]
  rfl

theorem turn_acknowledged (hd : 4 ≤ d.length) (hsend : o.sendOk = true) :
    (g.turn o (some d)).2 ≠ [] := by
  rw [turn_data hw]
  dsimp only
  rw [if_neg (not_not.mpr hn), if_pos hd]
  unfold storeAndAcknowledge
  simp only [hsend, Bool.not_true, Bool.false_eq_true, if_false]
  split <;> exact List.cons_ne_nil _ _

theorem seen_turn_unsent (hopened : g.Opened) (hd : 4 ≤ d.length) (hsend : o.sendOk = false) :
    seen see (g.turn o (some d)) =
      ((.returned false, if o.removeOk then (g.removeOutFile o).files
        else g.client.files.append (g.client.files.denotes g.dstFilename)
          (decode g.client.transferMode ((d.take bufferSize).drop 4))), []) := by
  rw [turn_data hw]
  dsimp only
  rw [if_neg (not_not.mpr hn), if_pos hd]
  unfold storeAndAcknowledge
  simp only [hsend, Bool.not_false, if_true, shifted]
  rw [storePayload_open _ _ _ hopened.ok hopened.file]
  cases ho : o.removeOk with
  | false => simp [seen, see, Call.see, removeOutFile, ho]
  | true => simp [seen, see, Call.see, removeOutFile, ho, FileSystem.remove, FileSystem.append]

theorem seen_turn_unaffected (hopened : g.Opened) (hd : 4 ≤ d.length) (hsend : o.sendOk = false)
    (hsame : o.removeOk = true ∨
      decode g.client.transferMode ((d.take bufferSize).drop 4) = []) :
    seen see (g.turn o (some d)) = ((.returned false, (g.removeOutFile o).files), []) := by
  rw [seen_turn_unsent hw hn hopened hd hsend]
  cases hremove : o.removeOk with
  | true => rfl
  | false =>
    have hnil := hsame.resolve_left (by simp [hremove])
    rw [hnil, FileSystem.append_nil]
    simp [removeOutFile, hremove]

end Data

/-- The call stays open while it waits. -/
theorem Opened.turn (h : g.Opened) (a : Answer) {g' : GetFile}
    (hturn : (g.turn a.1 a.2).1 = .waiting g') : g'.Opened := by
  obtain ⟨o, d | d⟩ := a
  · cases hturn
  by_cases herror : (g.client.recvBuffer.fill d).word 0 = MessageType.error.code
  · have hseen := seen_turn_error (o := o) herror
    rw [seen, hturn] at hseen
    split at hseen <;> cases hseen
  rw [turn_some] at hturn
  dsimp only at hturn
  rw [if_neg herror] at hturn
  split at hturn
  · split at hturn
    · cases hturn
    split at hturn
    · unfold storeAndAcknowledge at hturn
      dsimp only at hturn
      split at hturn
      · cases hturn
      split at hturn
      · cases hturn
      · have hnext := h.shifted (g.client.recvBuffer.fill d) (g.expectedBlockNumber + 1)
        rw [storePayload_open _ _ _ hnext.ok hnext.file] at hturn
        cases hturn
        exact ⟨h.file, h.ok, lookup_append_isSome _ _ h.found⟩
    · cases hturn
  · cases hturn
    exact h.shifted _ _

theorem seen_turn_data (hw : (g.client.recvBuffer.fill d).word 0 = MessageType.data.code)
    (hopened : g.Opened) (hd : 4 ≤ d.length) (hsend : o.sendOk = false)
    (hsame : o.removeOk = true ∨
      decode g.client.transferMode ((d.take bufferSize).drop 4) = []) :
    seen see (g.turn o (some d)) = ((.returned false, (g.removeOutFile o).files), []) := by
  by_cases hn : (g.client.recvBuffer.fill d).word 2 = g.expectedBlockNumber + 1
  · exact seen_turn_unaffected hw hn hopened hd hsend hsame
  · exact seen_turn_number hw hn

/-- A message that meets the condition ends alike calls alike, or leaves them waiting alike. -/
theorem Same.turn {g' : GetFile} (h : Same g g') (a : Answer)
    (hfine : Unaffected (.waiting g) a) :
    Call.TurnsAlike GetFile.client Same (g.turn a.1 a.2) (g'.turn a.1 a.2) := by
  obtain ⟨hopened, buffer, n, halike, rfl⟩ := h
  obtain ⟨o, d | d⟩ := a
  · exact ⟨rfl, .ended (fun hs => nomatch hs) rfl⟩
  obtain ⟨hdecided, hblock⟩ := hfine
  have herror := halike.fill_iff (.inl rfl) fun hmay => (hdecided hmay).1
  have hdata := halike.fill_iff (.inr rfl) fun hmay =>
    le_trans (by decide) (hblock hmay).1
  by_cases hw : (g.client.recvBuffer.fill d).word 0 = MessageType.error.code
  · have hlisted := hdecided.listed_iff buffer hw
    have hseen' := seen_turn_error (g := g.shifted buffer n) (o := o) (herror.mpr hw)
    rw [removeOutFile_shifted] at hseen'
    refine .of_seen (seen_turn_error hw) (hseen'.trans (if_congr hlisted rfl rfl)) ?_
    split <;> exact fun hs => nomatch hs
  by_cases hw' : (g.client.recvBuffer.fill d).word 0 = MessageType.data.code
  · obtain ⟨hd, hsend, hsame⟩ := hblock (.inl hw')
    have hseen' := seen_turn_data (g := g.shifted buffer n) (hdata.mpr hw')
      (hopened.shifted buffer n) hd hsend hsame
    rw [removeOutFile_shifted] at hseen'
    exact .of_seen (seen_turn_data hw' hopened hd hsend hsame) hseen' fun hs => nomatch hs
  · have hother := turn_other (g := g.shifted buffer n) (o := o) (mt herror.mp hw)
      (mt hdata.mp hw')
    rw [turn_other hw hw', hother]
    refine ⟨rfl, .waiting ⟨hopened.shifted _ _, _, _, ?_, rfl⟩⟩
    exact .inr ⟨mt herror.mp hw, mt hdata.mp hw'⟩

theorem turn_filler (g : GetFile) (o : ClientOutcomes) (x : Byte) (w : UInt16) :
    g.turn o (some (filler x w)) =
      (.waiting (g.shifted (g.client.recvBuffer.fill (filler x w)) (g.expectedBlockNumber + 1)),
        []) :=
  turn_unknown (show 2 ≤ 4 by decide) (opcode_filler x w _) (opcode_filler x w _)

theorem run_fillers (g : GetFile) (x : Byte) (w : UInt16) (k : ℕ) :
    runAll (Call.next GetFile.turn) (.waiting g)
        (List.replicate (k + 1) ({}, some (filler x w))) =
      (.waiting (g.shifted (g.client.recvBuffer.fill (filler x w))
        (g.expectedBlockNumber + UInt16.ofNat (k + 1))), []) := by
  induction k generalizing g with
  | zero => rw [List.replicate_one, runAll, Call.next, turn_filler]; rfl
  | succ k ih =>
    rw [List.replicate_succ, runAll, Call.next, turn_filler]
    dsimp only
    rw [ih, ofNat_succ (k + 1), UInt16.add_comm (UInt16.ofNat _), ← UInt16.add_assoc]
    rfl

theorem exists_run_fillers (g : GetFile) (x : Byte) (w n : UInt16) :
    ∃ k, runAll (Call.next GetFile.turn) (.waiting g) (List.replicate k ({}, some (filler x w))) =
      (.waiting (g.shifted (g.client.recvBuffer.fill (filler x w)) n), []) := by
  have hn : g.expectedBlockNumber +
      UInt16.ofNat ((n - g.expectedBlockNumber).toNat + 65535 + 1) = n := by
    rw [Nat.add_assoc, UInt16.ofNat_add, UInt16.ofNat_toNat]
    grind
  exact ⟨_, hn ▸ run_fillers g x w ((n - g.expectedBlockNumber).toNat + 65535)⟩

theorem seen_turn_shifted {a : Answer}
    (h : ∀ extra, (∀ x ∈ extra, IsUnknown .data x) →
      seen see (runAll (Call.next GetFile.turn) (.waiting g) (extra ++ [a])) =
        seen see (runAll (Call.next GetFile.turn) (.waiting g) [a])) (x : Byte) (w n : UInt16) :
    seen see ((g.shifted (g.client.recvBuffer.fill (filler x w)) n).turn a.1 a.2) =
      seen see (g.turn a.1 a.2) := by
  obtain ⟨k, hrun⟩ := exists_run_fillers g x w n
  have hk := h (List.replicate k ({}, some (filler x w)))
    fun y hy => List.eq_of_mem_replicate hy ▸ isUnknown_filler x w .data
  rw [runAll_append, hrun] at hk
  simpa [runAll, Call.next, seen] using hk

theorem nil_of_append_eq {fs : FileSystem} {name bytes : Bytes}
    (h : (fs.lookup name).isSome = true) (hsame : fs.append (fs.denotes name) bytes = fs) :
    bytes = [] := by
  obtain ⟨content, hcontent⟩ := Option.isSome_iff_exists.mp h
  have hp : fs.content (fs.denotes name) = some content := hcontent
  have happ : (fs.append (fs.denotes name) bytes).content (fs.denotes name) = some content := by
    rw [hsame, hp]
  rw [FileSystem.append_content_self, hp, Option.map_some, Option.some.injEq] at happ
  exact List.self_eq_append_right.mp happ.symm

theorem Opened.data_taken (h : g.Opened)
    (hw : (g.client.recvBuffer.fill d).word 0 = MessageType.data.code) :
    ¬ ((seen see (g.turn o (some d))).1.1 = .waiting ∧ (seen see (g.turn o (some d))).2 = []) := by
  rintro ⟨hwaiting, hsilent⟩
  by_cases hn : (g.client.recvBuffer.fill d).word 2 = g.expectedBlockNumber + 1
  · by_cases hd : 4 ≤ d.length
    · cases hsend : o.sendOk with
      | true => exact turn_acknowledged hw hn hd hsend hsilent
      | false =>
        rw [seen_turn_unsent hw hn h hd hsend] at hwaiting
        cases hwaiting
    · rw [seen_turn_short hw hn (by omega)] at hwaiting
      cases hwaiting
  · rw [seen_turn_number hw hn] at hwaiting
    cases hwaiting

theorem Opened.decides (h : g.Opened) (o : ClientOutcomes) (d : Datagram) (n : UInt16) :
    Decides .data d fun b => seen see ((g.shifted b n).turn o (some d)) where
  ignored b herror hdata := by
    rw [turn_other (g := g.shifted b n) (o := o) herror hdata]
    exact ⟨rfl, rfl⟩
  reported b hw := by
    rw [seen_turn_error (g := g.shifted b n) (o := o) hw]
    exact apply_ite (fun r : (Status × FileSystem) × List Datagram => r.1.1) _ _ _
  taken b hw := (h.shifted b n).data_taken hw

/-- A DATA message that makes a difference behind some number or buffer is one that does not meet
the condition. -/
theorem Opened.data_unaffected (h : g.Opened)
    (hsame : ∀ x w n, seen see ((g.shifted (g.client.recvBuffer.fill (filler x w)) n).turn o
      (some d)) = seen see (g.turn o (some d)))
    (hw : ∀ b : Buffer, (b.fill d).word 0 = MessageType.data.code) :
    4 ≤ d.length ∧ o.sendOk = false ∧
      (o.removeOk = true ∨ decode g.client.transferMode ((d.take bufferSize).drop 4) = []) := by
  let behind (n : UInt16) := g.shifted (g.client.recvBuffer.fill (filler 0 0)) n
  let n := ((g.client.recvBuffer.fill (filler 0 0)).fill d).word 2
  have hother := seen_turn_number (g := behind n) (o := o) (hw _)
    (show n ≠ n + 1 by grind)
  have hnext : n = n - 1 + 1 := by grind
  rw [removeOutFile_shifted, hsame] at hother
  have hmatch := (hsame 0 0 (n - 1)).trans hother
  have hd : 4 ≤ d.length := by
    by_contra hd
    have hshort := seen_turn_short (g := behind (n - 1)) (o := o) (hw _) hnext (by omega)
    rw [hmatch] at hshort
    cases hshort
  have hsend : o.sendOk = false := by
    by_contra hsend
    have hok : o.sendOk = true := by simpa using hsend
    exact turn_acknowledged (g := behind (n - 1)) (o := o) (hw _) hnext hd hok
      (congrArg Prod.snd hmatch)
  refine ⟨hd, hsend, ?_⟩
  have hunsent :=
    seen_turn_unsent (g := behind (n - 1)) (o := o) (hw _) hnext (h.shifted _ _) hd hsend
  cases hremove : o.removeOk with
  | true => exact .inl rfl
  | false =>
    refine .inr ?_
    rw [hmatch, hremove] at hunsent
    have hkept : (g.removeOutFile o).files = g.client.files := by simp [removeOutFile, hremove]
    exact nil_of_append_eq h.found ((congrArg (fun r => r.1.2) hunsent).symm.trans hkept)

theorem Opened.unaffected (hopened : g.Opened) (a : Answer)
    (h : ∀ extra, (∀ x ∈ extra, IsUnknown .data x) →
      seen see (runAll (Call.next GetFile.turn) (.waiting g) (extra ++ [a])) =
        seen see (runAll (Call.next GetFile.turn) (.waiting g) [a])) :
    Unaffected (.waiting g) a := by
  have hsame := seen_turn_shifted h
  obtain ⟨o, d | d⟩ := a
  · trivial
  have hdecides := hopened.decides o d g.expectedBlockNumber
  have hfillers := fun x w => hsame x w g.expectedBlockNumber
  refine ⟨hdecides.errorDecided hfillers, fun hmay => ?_⟩
  have htwo := hdecides.two_le hfillers (.inr rfl) hmay
  exact hopened.data_unaffected hsame (hmay.word htwo)

theorem opened_getFile (c : TFTPClient) (o : ClientOutcomes) (src dst : Bytes)
    (g : GetFile) (h : (c.getFile o src dst).1 = .waiting g) : g.Opened := by
  have hfits := requestMessage_length_le .rrq src c.transferMode
  cases hopen : o.openOk with
  | false =>
    have hrefused : OfStream.openFile c.files {} dst false = _ :=
      OfStream.openFile_refused (.inr rfl)
    simp only [TFTPClient.getFile, hopen, hrefused, if_true] at h
    cases h
  | true =>
    have hopened : OfStream.openFile c.files {} dst true = _ := OfStream.openFile_granted dst rfl
    simp only [TFTPClient.getFile, hopen, hopened, Bool.false_eq_true, if_false, if_pos hfits] at h
    split at h
    · cases h
      exact ⟨rfl, rfl, by simp [FileSystem.lookup]⟩
    · cases h

theorem Same.unknown {g g' : GetFile} (h : Same g g') {a : Answer}
    (ha : IsUnknown .data a) :
    ∃ g'', g'.turn a.1 a.2 = (.waiting g'', []) ∧ Same g g'' := by
  obtain ⟨hopened, buffer, n, -, rfl⟩ := h
  obtain ⟨o, _⟩ := a
  obtain ⟨d, rfl, hd, herror, hdata⟩ := ha
  have halike := OpcodeAlike.of_unknown g.client.recvBuffer buffer hd herror hdata
  exact ⟨_, turn_unknown hd herror hdata, hopened, _, _, halike, rfl⟩

end GetFile

end Tftp
end NetworkProtocols
