import NetworkProtocols.Ftp.FinalReply
import NetworkProtocols.Lib.LineEnds

/-!
# What RETR sends

In ASCII mode the lines of the file, each with a line end, the last one too. In binary mode the
blocks that `readsome` finds, which need not be all of the file.
-/

namespace NetworkProtocols
namespace Ftp

open Bytes LineEnds

def transferred : Bytes :=
  chars "226 The file transferred successfully, closing data connection"

variable (o : Outcomes) (s : FTPSession) (args : Bytes)

theorem sendAll_sent {pieces : List Bytes} {x : Execution} (h : (sendAll o pieces x).1 = true) :
    (sendAll o pieces x).2.sent = x.sent ++ pieces := by
  induction pieces generalizing x with
  | nil => exact (List.append_nil _).symm
  | cons data rest ih =>
    rw [sendAll, Execution.sendDataToClient] at h ⊢
    cases hfails : o.sendFails x.sent.length with
    | some n =>
      rw [hfails] at h
      cases h
    | none =>
      rw [hfails] at h
      dsimp only at h ⊢
      rw [ih h, List.append_assoc, List.singleton_append]

namespace Execution

theorem handleRetr_transfer (hsocket : s.dataSocket = true)
    (hstatus : o.refuses .status (s.joined args) = false)
    (hpresent : o.disk.present (s.joined args) = true) :
    let result := ((start s o.disk).called .status (s.joined args) true).sendFile o (s.joined args)
    (start s o.disk).handleRetr o args = (if result.1 = true then
      result.2.sendMessageToClient transferred else result.2).closeDataConnection := by
  have hopen : (start s o.disk).session.dataSocket = true := hsocket
  have hpath : (start s o.disk).session.joined args = s.joined args := rfl
  have hdisk : ((start s o.disk).called .status (s.joined args) true).disk.present
      (s.joined args) = true := hpresent
  unfold handleRetr
  rw [hopen, Bool.not_true, if_neg Bool.false_ne_true]
  dsimp only
  rw [hpath, hstatus, if_neg Bool.false_ne_true, Bool.not_false, hdisk, Bool.not_true,
    if_neg Bool.false_ne_true]
  rfl

/-- What a transfer that ends well has sent. -/
theorem sendFile_sent {x : Execution} {path : Bytes} (hdisk : x.disk = o.disk)
    (hsession : x.session = s) (hsent : x.sent = []) (h : (x.sendFile o path).1 = true) :
    (x.sendFile o path).2.sent = s.pieces o path := by
  have hread : x.readable o path = (start s o.disk).readable o path := by
    unfold readable
    rw [hdisk]
    rfl
  unfold sendFile at h ⊢
  unfold FTPSession.pieces
  rw [hread, hsession] at h
  rw [hread, hsession]
  cases hmode : s.transferType with
  | binary =>
    rw [hmode] at h
    dsimp only at h ⊢
    rw [sendBlocks_eq_sendAll] at h ⊢
    rw [sendAll_sent o h]
    simp [sendMessageToClient, called, hsent]
  | ascii =>
    rw [hmode] at h
    dsimp only at h ⊢
    rw [sendLines_eq_sendAll] at h ⊢
    rw [sendAll_sent o h]
    simp [sendMessageToClient, called, hsent]

/-- The transfer of a path that exists is answered with 226 exactly when every call to send gets
through, and then it sent all its pieces. -/
theorem handleRetr_sent (hsocket : s.dataSocket = true)
    (hstatus : o.refuses .status (s.joined args) = false)
    (hpresent : o.disk.present (s.joined args) = true) :
    (transferred ∈ ((start s o.disk).handleRetr o args).replies ↔
      ∀ i < (s.pieces o (s.joined args)).length, o.sendFails i = none) ∧
    ((∀ i < (s.pieces o (s.joined args)).length, o.sendFails i = none) →
      ((start s o.disk).handleRetr o args).sent = s.pieces o (s.joined args)) := by
  have heq := handleRetr_transfer o s args hsocket hstatus hpresent
  dsimp only at heq
  generalize hx : (start s o.disk).called .status (s.joined args) true = x at heq
  have htrue := sendFile_true_iff o s x (s.joined args) (by rw [← hx]; rfl) (by rw [← hx]; rfl)
    (by rw [← hx]; rfl)
  have hready := sendFile_not_answered o x (s.joined args)
  obtain ⟨ready, sent, hresult, -⟩ := sendFile_eq o (s.joined args) x
  have hsent : (x.sendFile o (s.joined args)).1 = true →
      (x.sendFile o (s.joined args)).2.sent = s.pieces o (s.joined args) :=
    sendFile_sent o s (by rw [← hx]; rfl) (by rw [← hx]; rfl) (by rw [← hx]; rfl)
  rw [heq]
  by_cases hdone : (x.sendFile o (s.joined args)).1 = true
  · rw [if_pos hdone]
    refine ⟨iff_of_true ?_ (htrue.mp hdone), fun _ => hsent hdone⟩
    simp [closeDataConnection, sendMessageToClient]
  · rw [if_neg hdone]
    refine ⟨iff_of_false (fun hmem => hready ?_) fun h => hdone (htrue.mpr h),
      fun h => absurd (htrue.mpr h) hdone⟩
    -- the one reply is the preliminary one, which is not final
    have hreplies : (x.sendFile o (s.joined args)).2.replies = [ready] := by
      rw [hresult, ← hx]
      rfl
    have hlast : transferred ∈ (x.sendFile o (s.joined args)).2.replies := hmem
    rw [hreplies, List.mem_singleton] at hlast
    refine ⟨⟨transferred, ?_, isFinal_chars rfl⟩, by rw [hresult, ← hx]; rfl⟩
    rw [hreplies, hlast]
    rfl

end Execution

/-- The file under a path can be opened, and this is what it holds. -/
structure Opens (path : Bytes) (content : Bytes) : Prop where
  status : o.refuses .status path = false
  read : o.refuses .read path = false
  nonempty : path ≠ []
  content : o.disk.files.lookup path = some content

theorem Opens.hasFile {o : Outcomes} {path content : Bytes} (h : Opens o path content) :
    o.disk.hasFile path = true := Disk.hasFile_eq_true h.nonempty h.content

theorem Opens.readable {o : Outcomes} {s : FTPSession} {path content : Bytes}
    (h : Opens o path content) : (Execution.start s o.disk).readable o path = some content := by
  have hfile : (Execution.start s o.disk).disk.hasFile path = true := h.hasFile
  rw [Execution.readable, hfile, h.read]
  exact h.content

/-- An ASCII upload of the bytes stores the content, wherever it is stored. -/
def RestoredBy (sent content : Bytes) : Prop :=
  ∀ (o : Outcomes) (s : FTPSession) (args : Bytes), s.dataSocket = true →
    s.transferType = .ascii → CanStore o args (.start s o.disk) → upload (taken o.pieces) = sent →
    ((Execution.start s o.disk).handleStor o args).disk.files.lookup (s.joined args) = some content

/-- What ASCII mode sends is the content with CR LF for every LF and a CR LF behind a last line
that has no LF. -/
theorem ascii_lines {content : Bytes} :
    ((split content LF).map (· ++ [CR, LF])).flatten =
      expand LF CR (if Terminated LF content then content else content ++ [LF]) := by
  obtain ⟨lines, last, hsplit, hcontent, hlines, hlast⟩ := exists_lines LF content
  by_cases hnil : last = []
  · have hitems : split content LF = lines := by
      rw [split, hsplit, hnil, List.getLast?_concat, if_pos rfl, List.dropLast_concat]
    rw [hnil, List.append_nil] at hcontent
    rw [hitems, ← expand_lines hlines, ← hcontent, if_pos]
    exact hcontent ▸ terminated_lines lines
  · have hitems : split content LF = lines ++ [last] := by
      rw [split, hsplit, List.getLast?_concat, if_neg]
      exact fun h => hnil (Option.some.inj h)
    have hall : ∀ line ∈ lines ++ [last], LF ∉ line := by
      intro line hmem
      rcases List.mem_append.mp hmem with hmem | hmem
      · exact hlines line hmem
      · exact List.mem_singleton.mp hmem ▸ hlast
    have hends : ((lines ++ [last]).map (· ++ [LF])).flatten = content ++ [LF] := by
      rw [List.map_append, List.flatten_append, List.map_singleton, List.flatten_singleton,
        ← List.append_assoc, ← hcontent]
    rw [hitems, ← expand_lines hall, hends, if_neg]
    exact hcontent ▸ not_terminated hlast hnil

/-- ASCII RETR sends the file with CR LF for every LF, and ASCII STOR restores it, exactly when
its last line is terminated, if there is one. -/
theorem ascii_inverse_iff {content : Bytes} (hsocket : s.dataSocket = true)
    (hmode : s.transferType = .ascii) (hopens : Opens o (s.joined args) content)
    (hcr : CR ∉ content) (hsends : ∀ i, o.sendFails i = none) :
    (((Execution.start s o.disk).handleRetr o args).sent.flatten = expand LF CR content ∧
      RestoredBy ((Execution.start s o.disk).handleRetr o args).sent.flatten content) ↔
      Terminated LF content := by
  have hpresent := Disk.present_of_file hopens.hasFile
  have hsent := (Execution.handleRetr_sent o s args hsocket hopens.status hpresent).2
    fun i _ => hsends i
  have hpieces : s.pieces o (s.joined args) = (split content LF).map (· ++ [CR, LF]) := by
    unfold FTPSession.pieces
    rw [hopens.readable, hmode]
    rfl
  rw [hsent, hpieces, ascii_lines]
  constructor
  · rintro ⟨hexact, -⟩
    by_contra hnot
    rw [if_neg hnot] at hexact
    exact expand_ne_append (by simp) hexact
  · intro hterminated
    rw [if_pos hterminated]
    refine ⟨rfl, fun o s args hsocket hmode hstore hupload => ?_⟩
    have hfilter : (expand LF CR content).filter (· ≠ CR) = content :=
      filter_expand (by decide) hcr
    have hstored := lookup_stored (x := Execution.start s o.disk) hsocket hstore
    have hascii : (Execution.start s o.disk).session.transferType = .ascii := hmode
    rw [hascii, hupload, TransferType.stored, hfilter] at hstored
    exact hstored

/-- The home directory with a file of two lines. -/
def linesDisk : Disk where
  files := .single (chars "/home/f") (chars "a\nb\n")
  isDirectory := homeDisk.isDirectory
  apart p hp := by
    have hne : p ≠ chars "/home/f" := by
      rintro rfl
      revert hp
      decide
    simp [FileSystem.single, hne]

def asciiSession : FTPSession := { connected with transferType := .ascii }

/-- Two lines go to the client and back. -/
theorem ascii_inverse_lines :
    ((Execution.start asciiSession linesDisk).handleRetr { disk := linesDisk }
        (chars "f")).sent.flatten = expand LF CR (chars "a\nb\n") ∧
      RestoredBy ((Execution.start asciiSession linesDisk).handleRetr { disk := linesDisk }
        (chars "f")).sent.flatten (chars "a\nb\n") :=
  (ascii_inverse_iff { disk := linesDisk } asciiSession (chars "f") rfl rfl
    ⟨rfl, rfl, by decide, by decide⟩ (by decide) fun _ => rfl).mpr (by decide)

/-- A file without a line end comes back with one. -/
theorem ascii_adds_line_end :
    Opens { disk := homeDisk } (asciiSession.joined (chars "f")) (chars "text") ∧
    CR ∉ chars "text" ∧
    ((Execution.start asciiSession homeDisk).handleRetr { disk := homeDisk }
      (chars "f")).sent.flatten = chars "text\r\n" ∧
    chars "text\r\n" ≠ expand LF CR (chars "text") ∧
    TransferType.ascii.stored (chars "text\r\n") = chars "text\n" :=
  ⟨⟨rfl, rfl, by decide, by decide⟩, by decide, by decide +kernel, by decide, by decide⟩

/-- How many characters the loop of RETR is offered before the first zero of `readsome`. -/
def offered : List ℕ → ℕ
  | [] => 0
  | n :: available => if n = 0 then 0 else min n sendBufferSize + offered available

/-- The blocks are the front of the file that `readsome` offers. -/
theorem readBlocks_flatten (available : List ℕ) (content : Bytes) :
    (readBlocks available content).flatten = content.take (offered available) := by
  induction available generalizing content with
  | nil => rfl
  | cons n available ih =>
    rw [readBlocks, offered]
    by_cases hn : n = 0
    · simp [hn]
    · rw [if_neg hn]
      have hbuffer : 0 < min n sendBufferSize :=
        Nat.lt_min.mpr ⟨Nat.pos_of_ne_zero hn, by decide⟩
      by_cases hle : min n sendBufferSize ≤ content.length
      · rw [Nat.min_eq_left hle, if_neg (Nat.ne_of_gt hbuffer), List.flatten_cons, ih,
          List.take_add]
      · have hall : min (min n sendBufferSize) content.length = content.length :=
          Nat.min_eq_right (Nat.le_of_not_le hle)
        have hwhole : content.take (min n sendBufferSize + offered available) = content :=
          List.take_of_length_le (by omega)
        rw [hall, hwhole]
        split
        · rename_i hzero
          exact (List.eq_nil_of_length_eq_zero hzero).symm
        · rw [List.flatten_cons, ih, List.take_length, List.drop_length, List.take_nil,
            List.append_nil]

def SentWhole (path : Bytes) (x : Execution) : Prop :=
  o.disk.hasFile path = true ∧ o.disk.files.lookup path = some x.sent.flatten

instance (path : Bytes) (x : Execution) : Decidable (SentWhole o path x) :=
  inferInstanceAs (Decidable (_ ∧ _))

/-- The path is that of a regular file, which is empty, or was opened and offered to its end. -/
def OffersWhole (path : Bytes) : Prop :=
  o.disk.hasFile path = true ∧ ∃ content, o.disk.files.lookup path = some content ∧
    (content = [] ∨ o.refuses .read path = false ∧ content.length ≤ offered o.available)

theorem binary_pieces {path content : Bytes} (hmode : s.transferType = .binary)
    (hfile : o.disk.hasFile path = true) (hcontent : o.disk.files.lookup path = some content) :
    (s.pieces o path).flatten =
      if o.refuses .read path = false then content.take (offered o.available) else [] := by
  have hread : (Execution.start s o.disk).readable o path =
      if o.refuses .read path = false then some content else none := by
    have hhas : (Execution.start s o.disk).disk.hasFile path = true := hfile
    have hlookup : (Execution.start s o.disk).disk.files.lookup path = some content := hcontent
    rw [Execution.readable, hhas, hlookup]
    cases o.refuses .read path <;> rfl
  rw [FTPSession.pieces, hread, hmode]
  dsimp only
  rw [readBlocks_flatten]
  split
  · rfl
  · exact List.take_nil

/-- RETR in binary mode answers 226 for the whole file exactly when the file was offered to its
end, or when a call to send failed. -/
theorem binary_whole_iff (hmode : s.transferType = .binary)
    (hstatus : o.refuses .status (s.joined args) = false)
    (hpresent : o.disk.present (s.joined args) = true) :
    (transferred ∈ ((Execution.start s o.disk).handleRetr o args).replies →
      SentWhole o (s.joined args) ((Execution.start s o.disk).handleRetr o args)) ↔
    (s.dataSocket = true →
      (∀ i < (s.pieces o (s.joined args)).length, o.sendFails i = none) →
      OffersWhole o (s.joined args)) := by
  cases hsocket : s.dataSocket with
  | false =>
    have hclosed : (Execution.start s o.disk).session.dataSocket = false := hsocket
    refine iff_of_true (fun hmem => ?_) fun h => absurd h Bool.false_ne_true
    unfold Execution.handleRetr at hmem
    rw [hclosed, Bool.not_false, if_pos rfl] at hmem
    simp [Execution.start, Execution.sendMessageToClient, transferred, chars] at hmem
  | true =>
    obtain ⟨hreply, hsent⟩ := Execution.handleRetr_sent o s args hsocket hstatus hpresent
    rw [hreply, forall_prop_of_true rfl]
    refine forall_congr' fun hsends => ?_
    rw [SentWhole, OffersWhole, hsent hsends]
    refine and_congr_right fun hfile => ?_
    obtain ⟨content, hcontent⟩ : ∃ content, o.disk.files.lookup (s.joined args) = some content := by
      rw [Disk.hasFile, Bool.and_eq_true] at hfile
      exact Option.isSome_iff_exists.mp hfile.2
    have hsame : (∃ content', some content = some content' ∧ (content' = [] ∨
        o.refuses .read (s.joined args) = false ∧ content'.length ≤ offered o.available)) ↔
        (content = [] ∨
          o.refuses .read (s.joined args) = false ∧ content.length ≤ offered o.available) := by
      simp
    rw [hcontent, hsame, binary_pieces o s hmode hfile hcontent, Option.some_inj]
    split
    · rename_i hread
      have hfront : content = content.take (offered o.available) ↔
          content.length ≤ offered o.available := by
        refine ⟨fun h => ?_, fun h => (List.take_of_length_le h).symm⟩
        rw [h]
        exact List.length_take_le _ _
      rw [hfront, and_iff_right hread]
      refine ⟨.inr, ?_⟩
      rintro (rfl | hle)
      · exact Nat.zero_le _
      · exact hle
    · rename_i hread
      rw [or_iff_left fun h => hread h.1]

/-- A file that `readsome` finds in its buffer is sent whole. -/
theorem binary_whole_file : SentWhole { disk := homeDisk, available := [4] } (chars "/home/f")
    ((Execution.start connected homeDisk).handleRetr { disk := homeDisk, available := [4] }
      (chars "f")) := by
  have hoffers : OffersWhole { disk := homeDisk, available := [4] } (chars "/home/f") :=
    ⟨by decide, chars "text", by decide, .inr ⟨rfl, by decide⟩⟩
  exact (binary_whole_iff { disk := homeDisk, available := [4] } connected (chars "f") rfl rfl
    (by decide)).mpr (fun _ _ => hoffers) (by decide +kernel)

/-- A directory is answered 226, and so is a file of which nothing was in the buffer. -/
theorem binary_not_whole :
    transferred ∈
      ((Execution.start connected homeDisk).handleRetr { disk := homeDisk } []).replies ∧
    ¬ SentWhole { disk := homeDisk } (connected.joined [])
      ((Execution.start connected homeDisk).handleRetr { disk := homeDisk } []) ∧
    transferred ∈
      ((Execution.start connected homeDisk).handleRetr { disk := homeDisk } (chars "f")).replies ∧
    ¬ SentWhole { disk := homeDisk } (connected.joined (chars "f"))
      ((Execution.start connected homeDisk).handleRetr { disk := homeDisk } (chars "f")) := by
  decide +kernel

end Ftp
end NetworkProtocols
