import NetworkProtocols.Tftp.Handlers

/-!
# What one datagram can reach

`receive` touches the session of the sender, the files this session has open or is asked
to open, and the receive buffer. The handlers are compared here in two file systems that
agree on such a set of files.
-/

namespace NetworkProtocols
namespace Tftp

open FileSystem

variable {own : Path → Prop} {fs fs' : FileSystem} {o : Outcomes} {data : Buffer} {n : ℕ}

theorem TFTPSession.mem_send {s : TFTPSession} {o : Outcomes} {d : Datagram} {p : Packet}
    (h : p ∈ s.send o d) : p.1 = s.ep := by
  unfold TFTPSession.send at h
  split at h
  · rw [List.mem_singleton.mp h]
  · cases h

theorem AtMostError.mem {ep : Endpoint} {sent : List Packet} (h : AtMostError ep sent) {p : Packet}
    (hp : p ∈ sent) : p.1 = ep := by
  rcases h with rfl | ⟨code, rfl⟩
  · cases hp
  · rw [List.mem_singleton.mp hp]

section Payload

variable {inFile : IfStream} {outFile : OfStream}

theorem fillNetascii_agree (h : AgreeOn own fs fs') (hs : inFile.In own) (lineFeed : Bool)
    (buf : Bytes) :
    fillNetascii fs' inFile lineFeed buf = fillNetascii fs inFile lineFeed buf ∧
    (fillNetascii fs inFile lineFeed buf).1.In own := by
  fun_induction fillNetascii fs inFile lineFeed buf with
  | case1 inFile lineFeed buf hlt buf₁ inFile₁ hpeek =>
    have hin : inFile₁.In own := hs.peek hpeek
    refine ⟨?_, hin⟩
    rw [fillNetascii, if_pos hlt, ← IfStream.peek_agree h hs, hpeek]
    rfl
  | case2 inFile lineFeed buf hlt buf₁ inFile₁ buf₂ hfull hpeek =>
    have hin : inFile₁.In own := hs.peek hpeek
    refine ⟨?_, hin.get fs⟩
    rw [fillNetascii, if_pos hlt, ← IfStream.peek_agree h hs, hpeek]
    dsimp only
    rw [if_pos rfl, ← IfStream.get_agree h hin]
    exact if_pos hfull
  | case3 inFile lineFeed buf hlt buf₁ inFile₁ buf₂ hroom y hpeek ih =>
    have hin : inFile₁.In own := hs.peek hpeek
    obtain ⟨heq, hin'⟩ := ih (hin.get fs)
    refine ⟨?_, hin'⟩
    rw [← heq, fillNetascii, if_pos hlt, ← IfStream.peek_agree h hs, hpeek]
    dsimp only
    rw [if_pos rfl, ← IfStream.get_agree h hin]
    exact if_neg hroom
  | case4 inFile lineFeed buf hlt buf₁ inFile₁ x hpeek hx y ih =>
    have hin : inFile₁.In own := hs.peek hpeek
    obtain ⟨heq, hin'⟩ := ih (hin.get fs)
    refine ⟨?_, hin'⟩
    rw [← heq, fillNetascii, if_pos hlt, ← IfStream.peek_agree h hs, hpeek]
    dsimp only
    rw [if_neg hx, ← IfStream.get_agree h hin]
    rfl
  | case5 inFile lineFeed buf hfull =>
    refine ⟨?_, hs⟩
    rw [fillNetascii, if_neg hfull]

theorem nextPayload_agree (h : AgreeOn own fs fs') (hs : inFile.In own) (mode : TransferMode)
    (lineFeed : Bool) :
    nextPayload fs' mode inFile lineFeed = nextPayload fs mode inFile lineFeed ∧
    (nextPayload fs mode inFile lineFeed).1.In own := by
  cases mode with
  | ascii => exact fillNetascii_agree h hs lineFeed []
  | binary =>
    unfold nextPayload
    rw [IfStream.read_agree h hs]
    exact ⟨rfl, hs.read fs' 512⟩

theorem storePayload_agree (h : AgreeOn own fs fs') (mode : TransferMode) (outFile : OfStream)
    (payload : Bytes) :
    (storePayload fs mode outFile payload).1 = (storePayload fs' mode outFile payload).1 ∧
    AgreeOn own (storePayload fs mode outFile payload).2
      (storePayload fs' mode outFile payload).2 := by
  cases mode with
  | binary => exact OfStream.write_agree h outFile payload
  | ascii =>
    unfold storePayload
    induction payload generalizing fs fs' outFile with
    | nil => exact ⟨rfl, h⟩
    | cons b payload ih =>
      obtain ⟨hstream, hfiles⟩ := OfStream.write_agree h outFile [b]
      by_cases hb : b = CR
      · simpa [storeNetascii, hb] using ih h outFile
      · have hrest := ih hfiles (outFile.put fs b).1
        simp only [storeNetascii, if_neg hb]
        rwa [OfStream.put, hstream] at hrest ⊢

theorem storePayload_frame (fs : FileSystem) (hs : outFile.In own) (mode : TransferMode)
    (payload : Bytes) :
    (storePayload fs mode outFile payload).1.In own ∧
    AgreeOn (fun q => ¬ own q) (storePayload fs mode outFile payload).2 fs := by
  cases mode with
  | binary => exact OfStream.write_frame fs hs payload
  | ascii =>
    unfold storePayload
    induction payload generalizing fs outFile with
    | nil => exact ⟨hs, .refl _ _⟩
    | cons b payload ih =>
      obtain ⟨hin, hframe⟩ := OfStream.write_frame fs hs [b]
      by_cases hb : b = CR
      · simpa [storeNetascii, hb] using ih fs hs
      · obtain ⟨hin', hframe'⟩ := ih (outFile.put fs b).2 hin
        simp only [storeNetascii, if_neg hb]
        exact ⟨hin', hframe'.trans hframe⟩

end Payload

/-- Every file that the buffer asks to open is in `own`. -/
def AsksWithin (own : Path → Prop) (fs : FileSystem) (data : Buffer) : Prop :=
  data.word 0 = MessageType.rrq.code ∨ data.word 0 = MessageType.wrq.code →
    ∀ name mode, data.request = some (.accepted name mode) → own (fs.denotes name)

/-- A WRQ is told the same of the path that it looks up. -/
def FoundAlike (fs fs' : FileSystem) (data : Buffer) : Prop :=
  data.word 0 = MessageType.wrq.code → ∀ name mode, data.request = some (.accepted name mode) →
    (fs.lookup (fs.filePath name)).isSome = (fs'.lookup (fs'.filePath name)).isSome

theorem FoundAlike.refl (fs : FileSystem) (data : Buffer) : FoundAlike fs fs data :=
  fun _ _ _ _ => rfl

theorem TFTPSessionWrite.checksPass_iff {name : Bytes}
    (h : (fs.lookup (fs.filePath name)).isSome = (fs'.lookup (fs'.filePath name)).isSome)
    (o : Outcomes) : ChecksPass fs o name ↔ ChecksPass fs' o name := by
  rw [ChecksPass, ChecksPass, ← Option.isNone_iff_eq_none, ← Option.isNone_iff_eq_none,
    ← Option.not_isSome, ← Option.not_isSome, h]

namespace TFTPSessionRead

variable {s : TFTPSessionRead}

theorem sendBlockOfData_agree (h : AgreeOn own fs fs') (hs : s.inFile.In own) (o : Outcomes) :
    s.sendBlockOfData fs' o = s.sendBlockOfData fs o ∧
    (s.sendBlockOfData fs o).1.inFile.In own := by
  obtain ⟨heq, hin⟩ := nextPayload_agree h hs s.transferMode s.lineFeed
  exact ⟨by rw [sendBlockOfData, sendBlockOfData, heq], hin⟩

theorem openAndSend_agree (h : AgreeOn own fs fs') (hs : s.inFile.In own) (o : Outcomes)
    {name : Bytes} (hown : own (fs.denotes name)) :
    s.openAndSend fs' o name = s.openAndSend fs o name ∧
    (s.openAndSend fs o name).1.inFile.In own := by
  have hin := hs.openFile hown o.openOk
  obtain ⟨heq, hin'⟩ := sendBlockOfData_agree
    (s := { s with inFile := s.inFile.openFile fs name o.openOk }) h hin o
  unfold openAndSend
  rw [← IfStream.openFile_agree h hown]
  dsimp only
  split
  · exact ⟨rfl, hin⟩
  · exact ⟨heq, hin'⟩

theorem openAndSend_ep (s : TFTPSessionRead) (fs : FileSystem) (o : Outcomes) (name : Bytes) :
    (s.openAndSend fs o name).1.ep = s.ep ∧ ∀ p ∈ (s.openAndSend fs o name).2, p.1 = s.ep := by
  unfold openAndSend
  dsimp only
  split
  · exact ⟨rfl, fun p hp => TFTPSession.mem_send hp⟩
  · exact ⟨rfl, fun p hp => TFTPSession.mem_send hp⟩

end TFTPSessionRead

namespace Session

/-- The file that the session has open, if any, is in `own`. -/
def In (own : Path → Prop) : Session → Prop
  | read s => s.inFile.In own
  | write s => s.outFile.In own

/-- The results of one handler in two file systems: both are undefined, or the session and
the answers are the same, the files of `own` too, and the handler of `s` kept to them and
to its endpoint. -/
def Agrees (own : Path → Prop) (fs : FileSystem) (s : Session)
    (x y : Option (Session × FileSystem × List Packet)) : Prop :=
  (x = none ∧ y = none) ∨ ∃ t f f' sent, x = some (t, f, sent) ∧ y = some (t, f', sent) ∧
    AgreeOn own f f' ∧ AgreeOn (fun p => ¬ own p) f fs ∧ t.In own ∧ t.base.ep = s.base.ep ∧
    ∀ p ∈ sent, p.1 = s.base.ep

theorem agrees_read_none {s : TFTPSessionRead} (hx : s.onDataReceived fs o data n = none)
    (hy : s.onDataReceived fs' o data n = none) :
    Agrees own fs (read s) ((read s).onDataReceived fs o data n)
      ((read s).onDataReceived fs' o data n) :=
  .inl ⟨by rw [onDataReceived, hx]; rfl, by rw [onDataReceived, hy]; rfl⟩

theorem agrees_read {s : TFTPSessionRead} {r : TFTPSessionRead × List Packet}
    (h : AgreeOn own fs fs') (hx : s.onDataReceived fs o data n = some r)
    (hy : s.onDataReceived fs' o data n = some r) (hin : r.1.inFile.In own) (hep : r.1.ep = s.ep)
    (hsent : ∀ p ∈ r.2, p.1 = s.ep) :
    Agrees own fs (read s) ((read s).onDataReceived fs o data n)
      ((read s).onDataReceived fs' o data n) :=
  .inr ⟨read r.1, fs, fs', r.2, onDataReceived_read hx, onDataReceived_read hy, h,
    .refl _ _, hin, hep, hsent⟩

theorem agrees_write_none {s : TFTPSessionWrite} (hx : s.onDataReceived fs o data n = none)
    (hy : s.onDataReceived fs' o data n = none) :
    Agrees own fs (write s) ((write s).onDataReceived fs o data n)
      ((write s).onDataReceived fs' o data n) :=
  .inl ⟨by rw [onDataReceived, hx]; rfl, by rw [onDataReceived, hy]; rfl⟩

theorem agrees_write {s t : TFTPSessionWrite} {f f' : FileSystem} {sent : List Packet}
    (hx : s.onDataReceived fs o data n = some (t, f, sent))
    (hy : s.onDataReceived fs' o data n = some (t, f', sent)) (h : AgreeOn own f f')
    (hframe : AgreeOn (fun p => ¬ own p) f fs) (hin : t.outFile.In own) (hep : t.ep = s.ep)
    (hsent : ∀ p ∈ sent, p.1 = s.ep) :
    Agrees own fs (write s) ((write s).onDataReceived fs o data n)
      ((write s).onDataReceived fs' o data n) :=
  .inr ⟨write t, f, f', sent, onDataReceived_write hx, onDataReceived_write hy, h,
    hframe, hin, hep, hsent⟩

/-- A download does the same in two file systems that agree on its files. -/
theorem read_agrees {s : TFTPSessionRead} (h : AgreeOn own fs fs') (hs : s.inFile.In own)
    (hask : AsksWithin own fs data) (o : Outcomes) (n : ℕ) :
    Agrees own fs (read s) ((read s).onDataReceived fs o data n)
      ((read s).onDataReceived fs' o data n) := by
  open TFTPSessionRead in
  by_cases hw : data.word 0 = MessageType.rrq.code
  · cases hreq : data.request with
    | none =>
      exact agrees_read_none (onDataReceived_unterminated hw hreq)
        (onDataReceived_unterminated hw hreq)
    | some r =>
      cases r with
      | noFilename =>
        exact agrees_read h (onDataReceived_malformed hw (.inl hreq))
          (onDataReceived_malformed hw (.inl hreq)) hs rfl (by simp)
      | invalidMode =>
        exact agrees_read h (onDataReceived_malformed hw (.inr hreq))
          (onDataReceived_malformed hw (.inr hreq)) hs rfl (by simp)
      | accepted name mode =>
        obtain ⟨heq, hin⟩ := openAndSend_agree
          (s := { s with state := .active, transferMode := mode }) h hs o
          (hask (.inl hw) name mode hreq)
        obtain ⟨hep, hsent⟩ :=
          openAndSend_ep { s with state := .active, transferMode := mode } fs o name
        exact agrees_read h (onDataReceived_request hw hreq)
          ((onDataReceived_request hw hreq).trans (congrArg some heq)) hin hep hsent
  by_cases ha : data.word 0 = MessageType.ack.code
  · by_cases hn : data.word 2 = s.blockCounter
    · cases hend : s.readComplete with
      | true =>
        exact agrees_read h (onDataReceived_last_ack ha hn hend)
          (onDataReceived_last_ack ha hn hend) hs.close rfl (by simp)
      | false =>
        obtain ⟨heq, hin⟩ := sendBlockOfData_agree h hs o
        exact agrees_read h (onDataReceived_ack ha hn hend)
          ((onDataReceived_ack ha hn hend).trans (congrArg some heq)) hin rfl
          fun p hp => TFTPSession.mem_send hp
    · exact agrees_read h (onDataReceived_other_ack ha hn) (onDataReceived_other_ack ha hn) hs rfl
        fun p hp => TFTPSession.mem_send hp
  · exact agrees_read h (onDataReceived_other hw ha) (onDataReceived_other hw ha) hs rfl (by simp)

/-- A request is granted or refused in both file systems. -/
theorem write_request_agrees {s : TFTPSessionWrite} (h : AgreeOn own fs fs')
    (hs : s.outFile.In own) (hw : data.word 0 = MessageType.wrq.code) {name : Bytes}
    {mode : TransferMode} (hreq : data.request = some (.accepted name mode))
    (hown : own (fs.denotes name))
    (hfound : (fs.lookup (fs.filePath name)).isSome = (fs'.lookup (fs'.filePath name)).isSome)
    (o : Outcomes) (n : ℕ) :
    Agrees own fs (write s) ((write s).onDataReceived fs o data n)
      ((write s).onDataReceived fs' o data n) := by
  open TFTPSessionWrite in
  have hx : s.onDataReceived fs o data n = _ := onDataReceived_request hw hreq
  have hy : s.onDataReceived fs' o data n = _ := onDataReceived_request hw hreq
  by_cases hpass : ChecksPass fs o name
  · have hpass' : ChecksPass fs' o name := (checksPass_iff hfound o).mp hpass
    obtain ⟨hstream, hfiles⟩ := OfStream.openFile_agree h s.outFile name o.openOk
    obtain ⟨hin, hframe⟩ := OfStream.openFile_frame hs hown o.openOk
    rw [checkAndOpen_pass hpass] at hx
    rw [checkAndOpen_pass hpass', ← hstream] at hy
    exact agrees_write hx hy hfiles hframe hin rfl fun p hp => TFTPSession.mem_send hp
  · have hfail' : ¬ ChecksPass fs' o name := mt (checksPass_iff hfound o).mpr hpass
    rw [checkAndOpen_refuse hpass] at hx
    rw [checkAndOpen_refuse hfail', ← hfound] at hy
    exact agrees_write hx hy h (.refl _ _) hs rfl
      fun p hp => (atMostError_refusal _ _ _).mem hp

/-- A block is stored in both file systems. -/
theorem write_block_agrees {s : TFTPSessionWrite} (h : AgreeOn own fs fs')
    (hs : s.outFile.In own) (hd : data.word 0 = MessageType.data.code)
    (hn : data.word 2 = s.blockCounter + 1) (o : Outcomes) (n : ℕ) :
    Agrees own fs (write s) ((write s).onDataReceived fs o data n)
      ((write s).onDataReceived fs' o data n) := by
  open TFTPSessionWrite in
  cases hb : data.slice 4 (sizeSub n 4) with
  | none =>
    exact agrees_write_none (onDataReceived_overrun hd hn hb) (onDataReceived_overrun hd hn hb)
  | some bytes =>
    have hx : s.onDataReceived fs o data n = _ := onDataReceived_expected hd hn hb
    have hy : s.onDataReceived fs' o data n = _ := onDataReceived_expected hd hn hb
    obtain ⟨hstream, hfiles⟩ := storePayload_agree h s.transferMode s.outFile bytes
    obtain ⟨hin, hframe⟩ := storePayload_frame fs hs s.transferMode bytes
    rw [storeAndAcknowledge_eq] at hx hy
    rw [← hstream] at hy
    refine agrees_write hx hy hfiles hframe ?_ ?_ fun p hp => TFTPSession.mem_send hp
    · split
      · exact hin.close
      · exact hin
    · split <;> rfl

/-- An upload does the same in two file systems that agree on its files. -/
theorem write_agrees {s : TFTPSessionWrite} (h : AgreeOn own fs fs') (hs : s.outFile.In own)
    (hask : AsksWithin own fs data) (hfound : FoundAlike fs fs' data) (o : Outcomes) (n : ℕ) :
    Agrees own fs (write s) ((write s).onDataReceived fs o data n)
      ((write s).onDataReceived fs' o data n) := by
  open TFTPSessionWrite in
  by_cases hw : data.word 0 = MessageType.wrq.code
  · cases hreq : data.request with
    | none =>
      exact agrees_write_none (onDataReceived_unterminated hw hreq)
        (onDataReceived_unterminated hw hreq)
    | some r =>
      cases r with
      | noFilename =>
        exact agrees_write (onDataReceived_malformed hw (.inl hreq))
          (onDataReceived_malformed hw (.inl hreq)) h (.refl _ _) hs rfl (by simp)
      | invalidMode =>
        exact agrees_write (onDataReceived_malformed hw (.inr hreq))
          (onDataReceived_malformed hw (.inr hreq)) h (.refl _ _) hs rfl (by simp)
      | accepted name mode =>
        exact write_request_agrees h hs hw hreq (hask (.inr hw) name mode hreq)
          (hfound hw name mode hreq) o n
  by_cases hd : data.word 0 = MessageType.data.code
  · by_cases hn : data.word 2 = s.blockCounter + 1
    · exact write_block_agrees h hs hd hn o n
    · exact agrees_write (onDataReceived_unexpected hd hn) (onDataReceived_unexpected hd hn) h
        (.refl _ _) hs rfl fun p hp => TFTPSession.mem_send hp
  · exact agrees_write (onDataReceived_other hw hd) (onDataReceived_other hw hd) h (.refl _ _) hs
      rfl (by simp)

theorem agrees (s : Session) (h : AgreeOn own fs fs') (hs : s.In own)
    (hask : AsksWithin own fs data) (hfound : FoundAlike fs fs' data) (o : Outcomes) (n : ℕ) :
    Agrees own fs s (s.onDataReceived fs o data n) (s.onDataReceived fs' o data n) := by
  cases s with
  | read s => exact read_agrees h hs hask o n
  | write s => exact write_agrees h hs hask hfound o n

end Session

namespace TFTPServer

/-- The session stored for an endpoint answers there and has only files of `own` open. -/
def Owns (own : Path → Prop) (ep : Endpoint) (session : Option Session) : Prop :=
  ∀ s, session = some s → s.base.ep = ep ∧ s.In own

variable {session : Option Session} {ep : Endpoint}

theorem owns_none : Owns own ep none := fun _ h => by cases h

theorem owns_newSession (own : Path → Prop) {type : UInt16} {s : Session}
    (h : newSession ep type = some s) :
    s.base.ep = ep ∧ s.In own := by
  unfold newSession at h
  split at h
  · obtain rfl := Option.some.inj h
    exact ⟨rfl, fun p hp => by cases hp⟩
  split at h
  · obtain rfl := Option.some.inj h
    exact ⟨rfl, fun p hp => by cases hp⟩
  · cases h

/-- The handler of a session whose result is stored or erased. -/
theorem Session.handled_agrees {s : Session} {g : Session → Option Session} {t : Option Session}
    {f : FileSystem} {sent : List Packet} (h : AgreeOn own fs fs') (hep : s.base.ep = ep)
    (hin : s.In own) (hask : AsksWithin own fs data) (hfound : FoundAlike fs fs' data)
    (hg : ∀ s', g s' = none ∨ g s' = some s')
    (hgo : (s.onDataReceived fs o data n).map (fun r => (g r.1, r.2)) = some (t, f, sent)) :
    ∃ f', (s.onDataReceived fs' o data n).map (fun r => (g r.1, r.2)) = some (t, f', sent) ∧
      AgreeOn own f f' ∧ AgreeOn (fun p => ¬ own p) f fs ∧ Owns own ep t ∧
      ∀ p ∈ sent, p.1 = ep := by
  obtain ⟨⟨s', f₁, sent₁⟩, hx, heq⟩ := Option.map_eq_some_iff.mp hgo
  obtain ⟨rfl, hrest⟩ := Prod.mk.inj heq
  obtain ⟨rfl, rfl⟩ := Prod.mk.inj hrest
  rcases s.agrees h hin hask hfound o n with ⟨hnone, -⟩ | ⟨s₁, f₂, f', sent₂, h₁, h₁', hagree⟩
  · rw [hnone] at hx
    cases hx
  rw [h₁] at hx
  cases hx
  obtain ⟨hfiles, hframe, hin', hep', hsent⟩ := hagree
  rw [h₁']
  refine ⟨f', rfl, hfiles, hframe, fun u hu => ?_, fun p hp => (hsent p hp).trans hep⟩
  rcases hg s' with hnone | hsome
  · rw [hnone] at hu
    cases hu
  · rw [hsome] at hu
    cases hu
    exact ⟨hep'.trans hep, hin'⟩

/-- What `receive` does for one endpoint depends on its session and its files, and it
reaches nothing else. -/
theorem handle_agrees {t : Option Session} {f : FileSystem} {sent : List Packet}
    (h : AgreeOn own fs fs') (hs : Owns own ep session) (hask : AsksWithin own fs data)
    (hfound : FoundAlike fs fs' data) (hgo : handle session fs ep o data n = some (t, f, sent)) :
    ∃ f', handle session fs' ep o data n = some (t, f', sent) ∧ AgreeOn own f f' ∧
      AgreeOn (fun p => ¬ own p) f fs ∧ Owns own ep t ∧ ∀ p ∈ sent, p.1 = ep := by
  unfold handle at hgo ⊢
  cases session with
  | some s =>
    obtain ⟨hep, hin⟩ := hs s rfl
    refine Session.handled_agrees (g := fun s' => if s'.getState = .finished then none else some s')
      h hep hin hask hfound (fun s' => ?_) hgo
    by_cases hfin : s'.getState = .finished
    · exact .inl (if_pos hfin)
    · exact .inr (if_neg hfin)
  | none =>
    cases hnew : newSession ep (data.word 0) with
    | none =>
      simp only [hnew] at hgo ⊢
      cases hgo
      exact ⟨fs', rfl, h, .refl _ _, owns_none,
        fun p hp => TFTPSession.mem_send (s := { ep := ep }) hp⟩
    | some s =>
      simp only [hnew] at hgo ⊢
      obtain ⟨hep, hin⟩ := owns_newSession own hnew
      exact Session.handled_agrees h hep hin hask hfound (fun s' => .inr rfl) hgo

end TFTPServer

end Tftp
end NetworkProtocols
