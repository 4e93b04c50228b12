import NetworkProtocols.Tftp.Handlers

/-!
# A datagram and what earlier ones left in the receive buffer

The handlers read opcode, block number, name and mode where the buffer has them and do
not ask how many bytes arrived. A datagram is interpreted by its own bytes only if it
ends behind everything that its opcode makes the session read.
-/

namespace NetworkProtocols
namespace Tftp

open Bytes

namespace Request

theorem parse_append {d : Bytes} {r : Request} (h : parse d = some r) (t : Bytes) :
    parse (d ++ t) = some r := by
  unfold parse at h ⊢
  cases hname : cString (d.drop 2) with
  | none => simp [hname] at h
  | some name =>
    rw [hname] at h
    rw [cString_drop_append t hname]
    by_cases hne : name = []
    · simpa [hne] using h
    · simp only [hne, if_false] at h ⊢
      cases hmode : cString (d.drop (2 + (name.length + 1))) with
      | none => simp [hmode] at h
      | some mode =>
        rw [cString_drop_append t hmode]
        rwa [hmode] at h

/-- A request that does not end is not ended by bytes without a NUL. -/
theorem parse_append_none {d t : Bytes} (h : parse d = none) (ht : 0 ∉ t.drop (2 - d.length)) :
    parse (d ++ t) = none := by
  have hsub : ∀ {i}, 2 ≤ i → 0 ∉ t.drop (i - d.length) := fun hi hmem =>
    ht (List.drop_subset_drop_left t (by omega) hmem)
  unfold parse at h ⊢
  cases hname : cString (d.drop 2) with
  | none => rw [cString_drop_append_none hname ht]
  | some name =>
    rw [hname] at h
    rw [cString_drop_append t hname]
    by_cases hne : name = []
    · simp [hne] at h
    · simp only [hne, if_false] at h ⊢
      cases hmode : cString (d.drop (2 + (name.length + 1))) with
      | none => rw [cString_drop_append_none hmode (hsub (by omega))]
      | some mode =>
        rw [hmode] at h
        dsimp only at h
        split at h
        · cases h
        split at h <;> cases h

end Request

/-- The bytes of `d` do not exclude that the word at position `i` is `w`. -/
def Fits (d : Bytes) (i : ℕ) (w : UInt16) : Prop :=
  (∀ x ∈ d[i]?, x = lowByte w) ∧ ∀ x ∈ d[i + 1]?, x = highByte w

namespace Buffer

variable (b : Buffer) {d : Datagram} {i : ℕ} {w : UInt16}

theorem getD_fill_of_mem (hd : d.length ≤ bufferSize) {x : Byte} (hx : x ∈ d[i]?) :
    (b.fill d).bytes.getD i 0 = x := by
  obtain ⟨hi, rfl⟩ := List.getElem?_eq_some_iff.mp hx
  rw [fill_bytes b hd, List.getD_eq_getElem?_getD, List.getElem?_append_left hi,
    List.getElem?_eq_getElem hi, Option.getD_some]

theorem getD_fill_of_le (hd : d.length ≤ bufferSize) (hi : d.length ≤ i) :
    (b.fill d).bytes.getD i 0 = b.bytes.getD i 0 := by
  rw [fill_bytes b hd, List.getD_eq_getElem?_getD, List.getElem?_append_right hi,
    List.getElem?_drop, Nat.add_sub_cancel' hi, List.getD_eq_getElem?_getD]

theorem fits_word (hd : d.length ≤ bufferSize) (i : ℕ) : Fits d i ((b.fill d).word i) := by
  obtain ⟨hlow, hhigh⟩ := word_eq_iff.mp (Eq.refl ((b.fill d).word i))
  exact ⟨fun x hx => (b.getD_fill_of_mem hd hx).symm.trans hlow,
    fun x hx => (b.getD_fill_of_mem hd hx).symm.trans hhigh⟩

theorem word_fill (hd : d.length ≤ bufferSize) (h : Fits d i w)
    (hlow : d.length ≤ i → b.bytes.getD i 0 = lowByte w)
    (hhigh : d.length ≤ i + 1 → b.bytes.getD (i + 1) 0 = highByte w) : (b.fill d).word i = w := by
  have hbyte : ∀ {j : ℕ} {c : Byte}, (∀ x ∈ d[j]?, x = c) →
      (d.length ≤ j → b.bytes.getD j 0 = c) → (b.fill d).bytes.getD j 0 = c := by
    intro j c hin hout
    by_cases hj : d.length ≤ j
    · rw [b.getD_fill_of_le hd hj, hout hj]
    · have hget : d[j]? = some d[j] := List.getElem?_eq_getElem (by omega)
      rw [b.getD_fill_of_mem hd (Option.mem_def.mpr hget)]
      exact hin _ (Option.mem_def.mpr hget)
  exact word_eq_iff.mpr ⟨hbyte h.1 hlow, hbyte h.2 hhigh⟩

theorem word_fill_of_le (hd : d.length ≤ bufferSize) (hi : i + 2 ≤ d.length) (h : Fits d i w) :
    (b.fill d).word i = w :=
  b.word_fill hd h (fun hle => by omega) (fun hle => by omega)

theorem request_fill {r : Request} (hd : d.length ≤ bufferSize) (h : Request.parse d = some r) :
    (b.fill d).request = some r := by
  rw [request, fill_bytes b hd]
  exact Request.parse_append h _

/-- A buffer that completes a truncated opcode and block number, and ends no string. -/
def stale (v w : UInt16) : Buffer where
  bytes := wordBytes v ++ wordBytes w ++ List.replicate 512 1
  size := by rw [List.length_append, List.length_replicate]; rfl

variable {v : UInt16}

theorem stale_word_zero (w : UInt16) (hd : d.length ≤ bufferSize) (h : Fits d 0 v) :
    ((stale v w).fill d).word 0 = v :=
  (stale v w).word_fill hd h (fun _ => rfl) (fun _ => rfl)

theorem stale_word_two (v : UInt16) (hd : d.length ≤ bufferSize) (h : Fits d 2 w) :
    ((stale v w).fill d).word 2 = w :=
  (stale v w).word_fill hd h (fun _ => rfl) (fun _ => rfl)

theorem stale_request (v : UInt16) (hlow : lowByte w ≠ 0) (hhigh : highByte w ≠ 0)
    (hd : d.length ≤ bufferSize) (h : Request.parse d = none) :
    ((stale v w).fill d).request = none := by
  rw [request, fill_bytes _ hd]
  refine Request.parse_append_none h fun hmem => ?_
  rw [List.drop_drop] at hmem
  have hmem₂ : 0 ∈ (stale v w).bytes.drop 2 := List.drop_subset_drop_left _ (by omega) hmem
  have htail : (stale v w).bytes.drop 2 = wordBytes w ++ List.replicate 512 1 := rfl
  rw [htail, List.mem_append, List.mem_replicate] at hmem₂
  rcases hmem₂ with hword | ⟨-, hone⟩
  · simp only [wordBytes, List.mem_cons, List.not_mem_nil, or_false] at hword
    rcases hword with hzero | hzero
    · exact hlow hzero.symm
    · exact hhigh hzero.symm
  · exact absurd hone (by decide)

end Buffer

/-- The opcodes for which a session, or no session, makes the server read a request. -/
def ReadsRequest : Option Session → UInt16 → Prop
  | none, w => w = MessageType.rrq.code ∨ w = MessageType.wrq.code
  | some (.read _), w => w = MessageType.rrq.code
  | some (.write _), w => w = MessageType.wrq.code

/-- The number with which the block number behind an opcode is compared. -/
def awaited : Option Session → UInt16 → Option UInt16
  | some (.read s), w => if w = MessageType.ack.code then some s.blockCounter else none
  | some (.write s), w => if w = MessageType.data.code then some (s.blockCounter + 1) else none
  | none, _ => none

/-- A DATA message with the awaited number: its payload is stored. -/
def StoresPayload (session : Option Session) (data : Buffer) : Prop :=
  ∃ s, session = some (.write s) ∧ data.word 0 = MessageType.data.code ∧
    data.word 2 = s.blockCounter + 1

/-- The buffers of the property `P` are all handled with the same result. -/
def Determined {α : Type} (P : Buffer → ℕ → Prop) (f : Buffer → ℕ → Option α) : Prop :=
  ∃ r, ∀ data n, P data n → f data n = some r

namespace Determined

variable {α β : Type} {P : Buffer → ℕ → Prop} {f : Buffer → ℕ → Option α}

theorem map (h : Determined P f) (g : α → β) : Determined P fun data n => (f data n).map g := by
  obtain ⟨r, hr⟩ := h
  exact ⟨g r, fun data n hp => congrArg (Option.map g) (hr data n hp)⟩

theorem congr {f' : Buffer → ℕ → Option α} (h : Determined P f)
    (heq : ∀ data n, P data n → f' data n = f data n) : Determined P f' := by
  obtain ⟨r, hr⟩ := h
  exact ⟨r, fun data n hp => (heq data n hp).trans (hr data n hp)⟩

end Determined

section Handlers

variable (fs : FileSystem) (o : Outcomes)

theorem TFTPSessionRead.determined_request (s : TFTPSessionRead) (q : Request) :
    Determined (fun data _ => data.word 0 = MessageType.rrq.code ∧ data.request = some q)
      (s.onDataReceived fs o) := by
  cases q with
  | noFilename => exact ⟨_, fun _ _ h => onDataReceived_malformed h.1 (.inl h.2)⟩
  | invalidMode => exact ⟨_, fun _ _ h => onDataReceived_malformed h.1 (.inr h.2)⟩
  | accepted name mode => exact ⟨_, fun _ _ h => onDataReceived_request h.1 h.2⟩

theorem TFTPSessionWrite.determined_request (s : TFTPSessionWrite) (q : Request) :
    Determined (fun data _ => data.word 0 = MessageType.wrq.code ∧ data.request = some q)
      (s.onDataReceived fs o) := by
  cases q with
  | noFilename => exact ⟨_, fun _ _ h => onDataReceived_malformed h.1 (.inl h.2)⟩
  | invalidMode => exact ⟨_, fun _ _ h => onDataReceived_malformed h.1 (.inr h.2)⟩
  | accepted name mode => exact ⟨_, fun _ _ h => onDataReceived_request h.1 h.2⟩

end Handlers

namespace TFTPServer

variable {session : Option Session} {w k : UInt16}

theorem awaited_read {s : TFTPSessionRead} :
    awaited (some (.read s)) w = some k ↔ w = MessageType.ack.code ∧ k = s.blockCounter := by
  by_cases hw : w = MessageType.ack.code <;> simp [awaited, hw, eq_comm]

theorem awaited_write {s : TFTPSessionWrite} :
    awaited (some (.write s)) w = some k ↔ w = MessageType.data.code ∧ k = s.blockCounter + 1 := by
  by_cases hw : w = MessageType.data.code <;> simp [awaited, hw, eq_comm]

/-- The effect of a request depends on its opcode, its name and its mode. -/
theorem determined_request (hw : ReadsRequest session w) (q : Request) (fs : FileSystem)
    (ep : Endpoint) (o : Outcomes) :
    Determined (fun data _ => data.word 0 = w ∧ data.request = some q)
      (handle session fs ep o) := by
  rcases session with _ | s | s
  · rcases hw with rfl | rfl
    · refine (((TFTPSessionRead.determined_request fs o { ep := ep } q).map
        fun r => (Session.read r.1, fs, r.2)).map fun r => (some r.1, r.2)).congr ?_
      rintro data n ⟨hw, -⟩
      simp only [handle, newSession, hw, if_true]
      rfl
    · refine (((TFTPSessionWrite.determined_request fs o { ep := ep } q).map
        fun r => (Session.write r.1, r.2.1, r.2.2)).map fun r => (some r.1, r.2)).congr ?_
      rintro data n ⟨hw, -⟩
      have hne : ¬ MessageType.wrq.code = MessageType.rrq.code := by decide
      simp only [handle, newSession, hw, if_neg hne, if_true]
      rfl
  · obtain rfl := hw
    exact ((TFTPSessionRead.determined_request fs o s q).map
      fun r => (Session.read r.1, fs, r.2)).map _
  · obtain rfl := hw
    exact ((TFTPSessionWrite.determined_request fs o s q).map
      fun r => (Session.write r.1, r.2.1, r.2.2)).map _

theorem determined_awaited (hk : awaited session w = some k) (bytes : Bytes) (fs : FileSystem)
    (ep : Endpoint) (o : Outcomes) :
    Determined (fun data n => data.word 0 = w ∧ data.word 2 = k ∧
      data.slice 4 (sizeSub n 4) = some bytes) (handle session fs ep o) := by
  rcases session with _ | s | s
  · cases hk
  · obtain ⟨hw, rfl⟩ := awaited_read.mp hk
    refine Determined.map (Determined.map ?_ _) _
    cases hend : s.readComplete with
    | true =>
      exact ⟨_, fun _ _ h => TFTPSessionRead.onDataReceived_last_ack (h.1.trans hw) h.2.1 hend⟩
    | false =>
      exact ⟨_, fun _ _ h => TFTPSessionRead.onDataReceived_ack (h.1.trans hw) h.2.1 hend⟩
  · obtain ⟨hw, rfl⟩ := awaited_write.mp hk
    refine Determined.map (Determined.map ?_ _) _
    exact ⟨_, fun _ _ h => TFTPSessionWrite.onDataReceived_expected (h.1.trans hw) h.2.1 h.2.2⟩

theorem determined_unawaited (hk : awaited session w = some k) (fs : FileSystem) (ep : Endpoint)
    (o : Outcomes) :
    Determined (fun data _ => data.word 0 = w ∧ data.word 2 ≠ k) (handle session fs ep o) := by
  rcases session with _ | s | s
  · cases hk
  · obtain ⟨hw, rfl⟩ := awaited_read.mp hk
    refine Determined.map (Determined.map ?_ _) _
    exact ⟨_, fun _ _ h => TFTPSessionRead.onDataReceived_other_ack (h.1.trans hw) h.2⟩
  · obtain ⟨hw, rfl⟩ := awaited_write.mp hk
    refine Determined.map (Determined.map ?_ _) _
    exact ⟨_, fun _ _ h => TFTPSessionWrite.onDataReceived_unexpected (h.1.trans hw) h.2⟩

theorem determined_other (session : Option Session) (fs : FileSystem) (ep : Endpoint)
    (o : Outcomes) :
    Determined (fun data _ => ¬ ReadsRequest session (data.word 0) ∧
      awaited session (data.word 0) = none) (handle session fs ep o) := by
  rcases session with _ | s | s
  · refine ⟨(none, fs, sendErrorMessage ep o .illegalOperation []), ?_⟩
    rintro data n ⟨hw, -⟩
    obtain ⟨hr, hw⟩ := not_or.mp hw
    simp only [handle, newSession, if_neg hr, if_neg hw]
  · refine Determined.map (Determined.map ⟨(s, []), ?_⟩ _) _
    rintro data n ⟨hr, ha⟩
    refine TFTPSessionRead.onDataReceived_other hr fun hack => ?_
    simp [awaited, hack] at ha
  · refine Determined.map (Determined.map ⟨(s, fs, []), ?_⟩ _) _
    rintro data n ⟨hw, hd⟩
    refine TFTPSessionWrite.onDataReceived_other hw fun hdata => ?_
    simp [awaited, hdata] at hd

end TFTPServer

namespace TFTPServer

section Faults

variable {fs : FileSystem} {o : Outcomes} {data : Buffer} {n : ℕ}

theorem read_isSome_iff (s : TFTPSessionRead) :
    (s.onDataReceived fs o data n).isSome ↔
      (data.word 0 = MessageType.rrq.code → data.request.isSome) := by
  by_cases hw : data.word 0 = MessageType.rrq.code
  · cases hreq : data.request with
    | none => simp [TFTPSessionRead.onDataReceived_unterminated hw hreq, hw]
    | some q =>
      obtain ⟨r, hr⟩ := s.determined_request fs o q
      simp [hr data n ⟨hw, hreq⟩]
  · unfold TFTPSessionRead.onDataReceived
    simp only [hw, if_false, false_imp_iff, iff_true]
    split
    · split
      · rfl
      · split <;> rfl
    · rfl

theorem write_isSome_iff (s : TFTPSessionWrite) :
    (s.onDataReceived fs o data n).isSome ↔
      (data.word 0 = MessageType.wrq.code → data.request.isSome) ∧
      (StoresPayload (some (.write s)) data → (data.slice 4 (sizeSub n 4)).isSome) := by
  have hne : MessageType.data.code ≠ MessageType.wrq.code := by decide
  have hstores : StoresPayload (some (.write s)) data ↔
      data.word 0 = MessageType.data.code ∧ data.word 2 = s.blockCounter + 1 := by
    simp [StoresPayload]
  rw [hstores]
  by_cases hw : data.word 0 = MessageType.wrq.code
  · cases hreq : data.request with
    | none => simp [TFTPSessionWrite.onDataReceived_unterminated hw hreq, hw]
    | some q =>
      obtain ⟨r, hr⟩ := s.determined_request fs o q
      simp [hr data n ⟨hw, hreq⟩, hw, hne.symm]
  by_cases hdata : data.word 0 = MessageType.data.code
  · by_cases hn : data.word 2 = s.blockCounter + 1
    · cases hb : data.slice 4 (sizeSub n 4) with
      | none => simp [TFTPSessionWrite.onDataReceived_overrun hdata hn hb, hdata, hn]
      | some bytes => simp [TFTPSessionWrite.onDataReceived_expected hdata hn hb, hw]
    · simp [TFTPSessionWrite.onDataReceived_unexpected hdata hn, hw, hn]
  · simp [TFTPSessionWrite.onDataReceived_other hw hdata, hw, hdata]

/-- The handlers of the model go on exactly where the strings and the payload end. -/
theorem handle_isSome_iff (session : Option Session) (ep : Endpoint) :
    (handle session fs ep o data n).isSome ↔
      (ReadsRequest session (data.word 0) → data.request.isSome) ∧
      (StoresPayload session data → (data.slice 4 (sizeSub n 4)).isSome) := by
  rcases session with _ | s | s
  · have hstores : ¬ StoresPayload none data := by simp [StoresPayload]
    simp only [hstores, false_imp_iff, and_true, ReadsRequest, handle, newSession]
    by_cases hr : data.word 0 = MessageType.rrq.code
    · simpa [hr, Session.onDataReceived] using @read_isSome_iff fs o data n { ep := ep }
    by_cases hw : data.word 0 = MessageType.wrq.code
    · have hne : MessageType.wrq.code ≠ MessageType.rrq.code := by decide
      have hdata : MessageType.wrq.code ≠ MessageType.data.code := by decide
      simpa [hw, hne, hdata, StoresPayload, Session.onDataReceived] using
        @write_isSome_iff fs o data n { ep := ep }
    · simp [hr, hw]
  · have hstores : ¬ StoresPayload (some (.read s)) data := by simp [StoresPayload]
    simp only [hstores, false_imp_iff, and_true, ReadsRequest, handle, Session.onDataReceived,
      Option.isSome_map]
    exact read_isSome_iff s
  · simp only [ReadsRequest, handle, Session.onDataReceived, Option.isSome_map]
    exact write_isSome_iff s

end Faults

end TFTPServer

namespace OwnBytes

open TFTPServer

/-- The datagram itself holds the name and the mode, or the block number and the payload,
that it makes the session read, also where stale bytes may complete its opcode or its
block number. -/
def SelfContained (session : Option Session) (d : Datagram) : Prop :=
  ∀ w, Fits d 0 w →
    (ReadsRequest session w → (Request.parse d).isSome) ∧
    ∀ k, awaited session w = some k → Fits d 2 k → 4 ≤ d.length

/-- Whatever the buffer held before, the datagram is answered in the same way and leaves
the same sessions and the same files. -/
def OwnBytesOnly (srv : TFTPServer) (ep : Endpoint) (d : Datagram) : Prop :=
  ∀ (o : Outcomes) (b b' : Buffer), ∃ srv₁ srv₂ sent,
    receive { srv with recvBuffer := b } (.received ep d o) = some (srv₁, sent) ∧
    receive { srv with recvBuffer := b' } (.received ep d o) = some (srv₂, sent) ∧
    srv₁.sessions = srv₂.sessions ∧ srv₁.files = srv₂.files

variable {session : Option Session} {d : Datagram}

theorem two_le_of_parse (h : (Request.parse d).isSome) : 2 ≤ d.length := by
  by_contra hlt
  rw [Request.parse, List.drop_eq_nil_of_le (by omega)] at h
  cases h

theorem slice_of_le (b : Buffer) (hd : d.length ≤ bufferSize) (hlen : 4 ≤ d.length) :
    (b.fill d).slice 4 (sizeSub (min d.length bufferSize) 4) = some (d.drop 4) := by
  rw [Nat.min_eq_left hd, sizeSub_of_le hlen hd]
  exact b.slice_fill hlen hd

/-- A self-contained datagram has one effect, whatever the buffer held before. -/
theorem SelfContained.determined (h : SelfContained session d) (hd : d.length ≤ bufferSize)
    (fs : FileSystem) (ep : Endpoint) (o : Outcomes) :
    ∃ r, ∀ b : Buffer,
      handle session fs ep o (b.fill d) (min d.length bufferSize) = some r := by
  by_cases hreads : ∃ w, Fits d 0 w ∧ ReadsRequest session w
  · obtain ⟨w, hw, hread⟩ := hreads
    have hsome := (h w hw).1 hread
    obtain ⟨q, hq⟩ := Option.isSome_iff_exists.mp hsome
    obtain ⟨r, hr⟩ := determined_request hread q fs ep o
    exact ⟨r, fun b => hr _ _
      ⟨b.word_fill_of_le hd (two_le_of_parse hsome) hw, b.request_fill hd hq⟩⟩
  by_cases hawaits : ∃ w k, Fits d 0 w ∧ awaited session w = some k
  · obtain ⟨w, k, hw, hk⟩ := hawaits
    by_cases hfits : Fits d 2 k
    · have hlen := (h w hw).2 k hk hfits
      obtain ⟨r, hr⟩ := determined_awaited hk (d.drop 4) fs ep o
      exact ⟨r, fun b => hr _ _ ⟨b.word_fill_of_le hd (by omega) hw,
        b.word_fill_of_le hd (by omega) hfits, slice_of_le b hd hlen⟩⟩
    · have hlen : 2 ≤ d.length := by
        by_contra hlt
        have hnone : ∀ i, 2 ≤ i → d[i]? = none := fun i hi =>
          List.getElem?_eq_none_iff.mpr (by omega)
        refine hfits ⟨?_, ?_⟩
        · simp [hnone 2]
        · simp [hnone 3]
      obtain ⟨r, hr⟩ := determined_unawaited hk fs ep o
      refine ⟨r, fun b => hr _ _ ⟨b.word_fill_of_le hd hlen hw, fun heq => hfits ?_⟩⟩
      rw [← heq]
      exact b.fits_word hd 2
  · obtain ⟨r, hr⟩ := determined_other session fs ep o
    refine ⟨r, fun b => hr _ _ ⟨fun hread => hreads ⟨_, b.fits_word hd 0, hread⟩, ?_⟩⟩
    cases hk : awaited session ((b.fill d).word 0) with
    | none => rfl
    | some k => exact absurd ⟨_, k, b.fits_word hd 0, hk⟩ hawaits

variable {srv : TFTPServer} {ep : Endpoint}

theorem ownBytesOnly_of_selfContained (hd : d.length ≤ bufferSize)
    (h : SelfContained (srv.sessions ep) d) : OwnBytesOnly srv ep d := by
  intro o b b'
  obtain ⟨r, hr⟩ := h.determined hd srv.files ep o
  exact ⟨_, _, r.2.2, receive_of_handle (s := { srv with recvBuffer := b }) (hr b),
    receive_of_handle (s := { srv with recvBuffer := b' }) (hr b'), rfl, rfl⟩

theorem handle_unterminated {w : UInt16} {data : Buffer} (hread : ReadsRequest session w)
    (hw : data.word 0 = w) (hreq : data.request = none) (fs : FileSystem) (ep : Endpoint)
    (o : Outcomes) (n : ℕ) :
    handle session fs ep o data n = none := by
  rw [← Option.not_isSome_iff_eq_none, handle_isSome_iff]
  rintro ⟨hstrings, -⟩
  have hsome := hstrings (hw ▸ hread)
  rw [hreq] at hsome
  cases hsome

/-- Without a fault for any buffer, every request that may be read ends in the datagram. -/
theorem OwnBytesOnly.parse (h : OwnBytesOnly srv ep d) (hd : d.length ≤ bufferSize) {w : UInt16}
    (hw : Fits d 0 w) (hread : ReadsRequest (srv.sessions ep) w) : (Request.parse d).isSome := by
  rw [Option.isSome_iff_ne_none]
  intro hparse
  let b := Buffer.stale w 0x0101
  obtain ⟨_, _, _, hgo, -⟩ := h {} b b
  have hnone := handle_unterminated hread (Buffer.stale_word_zero 0x0101 hd hw)
    (Buffer.stale_request w (by decide) (by decide) hd hparse) srv.files ep {}
    (min d.length bufferSize)
  rw [receive_of_handle_none (s := { srv with recvBuffer := b }) hnone] at hgo
  cases hgo

theorem slice_of_lt (data : Buffer) (hlen : d.length < 4) :
    data.slice 4 (sizeSub (min d.length bufferSize) 4) = none := by
  rw [← Option.not_isSome_iff_eq_none, data.slice_isSome_iff (Nat.min_le_right ..)]
  omega

/-- A stale byte that makes the block number another one. -/
theorem stale_word_two_ne (v k : UInt16) (hd : d.length ≤ bufferSize) (hlen : d.length < 4) :
    ((Buffer.stale v (word (lowByte k) (highByte k + 1))).fill d).word 2 ≠ k := by
  intro heq
  obtain ⟨-, hhigh⟩ := word_eq_iff.mp heq
  rw [Buffer.getD_fill_of_le _ hd (by omega)] at hhigh
  have hstale : highByte k + 1 = highByte (word (lowByte k) (highByte k + 1)) :=
    (word_eq_iff.mp rfl).2
  have hsame : highByte k + 1 = highByte k := hstale.trans hhigh
  have htoNat := congrArg UInt8.toNat hsame
  have hlt := (highByte k).toNat_lt
  rw [UInt8.toNat_add] at htoNat
  have hone : UInt8.toNat 1 = 1 := rfl
  omega

theorem sent_eq {b : Buffer} {o : Outcomes} {session session' : Session} {fs : FileSystem}
    {out sent : List Packet} {srv' : TFTPServer} (hs : srv.sessions ep = some session)
    (hgo : session.onDataReceived srv.files o (b.fill d) (min d.length bufferSize) =
      some (session', fs, out))
    (h : receive { srv with recvBuffer := b } (.received ep d o) = some (srv', sent)) :
    sent = out := by
  rw [receive_stored (s := { srv with recvBuffer := b }) hs hgo] at h
  exact (Prod.mk.inj (Option.some.inj h)).2.symm

theorem sent_eq_new {b : Buffer} {o : Outcomes} {session session' : Session} {fs : FileSystem}
    {out sent : List Packet} {srv' : TFTPServer} (hs : srv.sessions ep = none)
    (hnew : newSession ep ((b.fill d).word 0) = some session)
    (hgo : session.onDataReceived srv.files o (b.fill d) (min d.length bufferSize) =
      some (session', fs, out))
    (h : receive { srv with recvBuffer := b } (.received ep d o) = some (srv', sent)) :
    sent = out := by
  rw [receive_new (s := { srv with recvBuffer := b }) hs hnew hgo] at h
  exact (Prod.mk.inj (Option.some.inj h)).2.symm

/-- Stale bytes may complete the block number of an ACK to the awaited one or to another,
which are answered differently. -/
theorem OwnBytesOnly.four_le_read (h : OwnBytesOnly srv ep d) (hd : d.length ≤ bufferSize)
    {s : TFTPSessionRead} (hs : srv.sessions ep = some (.read s))
    (hw : Fits d 0 MessageType.ack.code) (hfits : Fits d 2 s.blockCounter) : 4 ≤ d.length := by
  by_contra hlen
  let other := word (lowByte s.blockCounter) (highByte s.blockCounter + 1)
  obtain ⟨_, _, sent, hgo, hgo', -⟩ :=
    h {} (.stale MessageType.ack.code s.blockCounter) (.stale MessageType.ack.code other)
  have hother : s.onDataReceived srv.files {} _ (min d.length bufferSize) = some (s, _) :=
    TFTPSessionRead.onDataReceived_other_ack (Buffer.stale_word_zero other hd hw)
      (stale_word_two_ne MessageType.ack.code s.blockCounter hd (by omega))
  have hsent : sent = [(s.ep, errorMessage .unknownTransferId [])] :=
    sent_eq hs (Session.onDataReceived_read hother) hgo'
  have hw₀ := Buffer.stale_word_zero s.blockCounter hd hw
  have hw₂ := Buffer.stale_word_two MessageType.ack.code hd hfits
  cases hend : s.readComplete with
  | true =>
    have hlast : s.onDataReceived srv.files {} _ (min d.length bufferSize) = some (_, []) :=
      TFTPSessionRead.onDataReceived_last_ack hw₀ hw₂ hend
    cases (sent_eq hs (Session.onDataReceived_read hlast) hgo).symm.trans hsent
  | false =>
    have hnext : s.onDataReceived srv.files {} _ (min d.length bufferSize) = some _ :=
      TFTPSessionRead.onDataReceived_ack hw₀ hw₂ hend
    have hdata := (sent_eq hs (Session.onDataReceived_read hnext) hgo).symm.trans hsent
    have hhead := congrArg (fun d : Datagram => d.take 1) (Prod.mk.inj (List.cons.inj hdata).1).2
    cases hhead

/-- Stale bytes may complete the block number of a DATA message to the awaited one, and
its payload is then read past the end of the buffer. -/
theorem OwnBytesOnly.four_le_write (h : OwnBytesOnly srv ep d) (hd : d.length ≤ bufferSize)
    {s : TFTPSessionWrite} (hs : srv.sessions ep = some (.write s))
    (hw : Fits d 0 MessageType.data.code) (hfits : Fits d 2 (s.blockCounter + 1)) :
    4 ≤ d.length := by
  by_contra hlen
  let b := Buffer.stale MessageType.data.code (s.blockCounter + 1)
  obtain ⟨_, _, _, hgo, -⟩ := h {} b b
  have hnone : handle (srv.sessions ep) srv.files ep {} (b.fill d) (min d.length bufferSize) =
      none := by
    rw [← Option.not_isSome_iff_eq_none, handle_isSome_iff]
    rintro ⟨-, hpayload⟩
    have hsome := hpayload
      ⟨s, hs, Buffer.stale_word_zero _ hd hw, Buffer.stale_word_two _ hd hfits⟩
    rw [slice_of_lt _ (by omega)] at hsome
    cases hsome
  rw [receive_of_handle_none (s := { srv with recvBuffer := b }) hnone] at hgo
  cases hgo

theorem OwnBytesOnly.four_le (h : OwnBytesOnly srv ep d) (hd : d.length ≤ bufferSize)
    {w k : UInt16} (hw : Fits d 0 w) (hk : awaited (srv.sessions ep) w = some k)
    (hfits : Fits d 2 k) : 4 ≤ d.length := by
  rcases hs : srv.sessions ep with _ | s | s
  · rw [hs] at hk
    cases hk
  · rw [hs] at hk
    obtain ⟨rfl, rfl⟩ := awaited_read.mp hk
    exact h.four_le_read hd hs hw hfits
  · rw [hs] at hk
    obtain ⟨rfl, rfl⟩ := awaited_write.mp hk
    exact h.four_le_write hd hs hw hfits

/-- A datagram is interpreted by its own bytes only if and only if it is self-contained. -/
theorem ownBytesOnly_iff (srv : TFTPServer) (ep : Endpoint) (hd : d.length ≤ bufferSize) :
    OwnBytesOnly srv ep d ↔ SelfContained (srv.sessions ep) d := by
  refine ⟨fun h w hw => ⟨fun hread => h.parse hd hw hread, fun k hk hfits => ?_⟩,
    ownBytesOnly_of_selfContained hd⟩
  exact h.four_le hd hw hk hfits

theorem ownBytesOnly_iff_ack :
    OwnBytesOnly (.init (.single [97] [])) ⟨0, 0⟩ (ackMessage 0) ↔
      SelfContained none (ackMessage 0) :=
  ownBytesOnly_iff _ _ (by decide)

/-- A truncated read request is answered with the file that another client asked for
before. -/
theorem truncated_request_discloses :
    ¬ OwnBytesOnly (.init (.single [97] [1, 2, 3])) ⟨0, 0⟩ [1, 0] := by
  intro h
  obtain ⟨_, _, sent, hgo, hgo', -⟩ :=
    h {} .blank (Buffer.blank.fill (requestMessage .rrq [97] .binary))
  have hblank : (Buffer.blank.fill [1, 0]).request = some .noFilename := rfl
  have hleft : ((Buffer.blank.fill (requestMessage .rrq [97] .binary)).fill [1, 0]).request =
      some (.accepted [97] .binary) := rfl
  generalize Buffer.blank.fill (requestMessage .rrq [97] .binary) = left at *
  generalize Buffer.blank = blank at *
  have hw : ∀ b : Buffer, (b.fill [1, 0]).word 0 = MessageType.rrq.code := fun b =>
    b.word_fill_wordBytes MessageType.rrq.code
  have hnew : ∀ b : Buffer,
      newSession ⟨0, 0⟩ ((b.fill [1, 0]).word 0) = some (.read { ep := ⟨0, 0⟩ }) :=
    fun b => by rw [hw b]; rfl
  have hnothing := sent_eq_new rfl (hnew blank) (Session.onDataReceived_read
    (TFTPSessionRead.onDataReceived_malformed (hw blank) (.inl hblank))) hgo
  have hfile := sent_eq_new rfl (hnew left) (Session.onDataReceived_read
    (TFTPSessionRead.onDataReceived_request (hw left) hleft)) hgo'
  have hsame := hnothing.symm.trans hfile
  revert hsame
  decide

end OwnBytes

end Tftp
end NetworkProtocols
