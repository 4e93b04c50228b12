import NetworkProtocols.Tftp.OwnBytes

/-!
# The positions of the receive buffer that are read

The strings of a request are read up to their NULs and the payload of a DATA message up to the
number of bytes received. Neither is compared with the size of the array.
-/

namespace NetworkProtocols
namespace Tftp
namespace ReceiveBounds

open Bytes TFTPServer

/-- A string that is read from `start` takes the positions up to its NUL. Without one it takes
the position behind the array, and nothing is said of the positions behind that. -/
def Scans (data : Buffer) (start i : ℕ) : Prop :=
  start ≤ i ∧ i ≤ bufferSize ∧ ∀ j, start ≤ j → j < i → data.bytes[j]? ≠ some 0

/-- The positions that are read while the server handles what it received. -/
inductive Indexes (session : Option Session) (data : Buffer) (amount : ℕ) : ℕ → Prop
  | opcode {i} : i < 2 → Indexes session data amount i
  | name {i} : ReadsRequest session (data.word 0) → Scans data 2 i → Indexes session data amount i
  | mode {i filename} : ReadsRequest session (data.word 0) →
      cString (data.bytes.drop 2) = some filename → filename ≠ [] →
      Scans data (2 + (filename.length + 1)) i → Indexes session data amount i
  | number {i k} : awaited session (data.word 0) = some k → 2 ≤ i → i < 4 →
      Indexes session data amount i
  | payload {i} : StoresPayload session data → 4 ≤ i → i < 4 + sizeSub amount 4 →
      Indexes session data amount i

/-- All positions are inside the array, and the length of a payload is what is left of the
bytes behind the header. -/
def InsideBuffer (session : Option Session) (data : Buffer) (amount : ℕ) : Prop :=
  (∀ i, Indexes session data amount i → i < bufferSize) ∧
    (StoresPayload session data → sizeSub amount 4 + 4 = amount)

/-- Byte 2 is a NUL, or there are two from there on. -/
def Terminated (data : Buffer) : Prop :=
  data.bytes[2]? = some 0 ∨ 2 ≤ (data.bytes.drop 2).count 0

/-- Both strings of a request end inside the array; an empty name has no mode behind it. -/
def StringsEnd (data : Buffer) : Prop :=
  0 ∈ data.bytes.drop 2 ∧ ∀ filename, cString (data.bytes.drop 2) = some filename →
    filename ≠ [] → 0 ∈ data.bytes.drop (2 + (filename.length + 1))

section Strings

variable {data : Buffer}

theorem scans_inside_iff {start : ℕ} (hstart : start ≤ bufferSize) :
    (∀ i, Scans data start i → i < bufferSize) ↔ 0 ∈ data.bytes.drop start := by
  constructor
  · intro hinside
    by_contra hnone
    refine absurd (hinside bufferSize ⟨hstart, Nat.le_refl _, fun j hj _ hzero => hnone ?_⟩)
      (Nat.lt_irrefl _)
    rw [List.mem_iff_getElem?]
    exact ⟨j - start, by rwa [List.getElem?_drop, Nat.add_sub_cancel' hj]⟩
  · rintro hzero i ⟨-, hle, hnone⟩
    obtain ⟨k, hk⟩ := List.mem_iff_getElem?.mp hzero
    rw [List.getElem?_drop] at hk
    have hlt : start + k < data.bytes.length := List.getElem?_eq_some_iff.mp hk |>.1
    rw [data.size] at hlt
    by_contra hge
    exact hnone (start + k) (Nat.le_add_right ..) (by omega) hk

theorem request_isSome_iff : data.request.isSome ↔ StringsEnd data := by
  unfold Buffer.request Request.parse StringsEnd
  rw [← cString_isSome_iff]
  cases hname : cString (data.bytes.drop 2) with
  | none => simp
  | some filename =>
    by_cases hempty : filename = []
    · simp [hempty]
    · have hmode := @cString_isSome_iff (data.bytes.drop (2 + (filename.length + 1)))
      simp only [hempty, if_false, Option.isSome_some, true_and, Option.some.injEq, forall_eq',
        ne_eq, not_false_eq_true, forall_const, ← hmode]
      cases cString (data.bytes.drop (2 + (filename.length + 1))) with
      | none => rfl
      | some mode =>
        dsimp only
        rw [apply_ite Option.isSome, apply_ite Option.isSome]
        simp

/-- A name that ends is followed by the rest of the bytes, its NUL between them. -/
theorem stringsEnd_iff : StringsEnd data ↔ Terminated data := by
  unfold StringsEnd Terminated
  rw [← cString_isSome_iff]
  have hbyte : data.bytes[2]? = (data.bytes.drop 2)[0]? := by rw [List.getElem?_drop]
  cases hname : cString (data.bytes.drop 2) with
  | none =>
    have hnone := cString_eq_none.mp hname
    have hfirst : data.bytes[2]? ≠ some 0 := fun h => hnone (List.mem_of_getElem? (hbyte ▸ h))
    simp [hfirst, List.count_eq_zero.mpr hnone]
  | some filename =>
    obtain ⟨hzero, rest, hrest⟩ := cString_eq_some.mp hname
    have hbehind : data.bytes.drop (2 + (filename.length + 1)) = rest := by
      rw [← List.drop_drop, hrest, ← List.drop_drop, List.drop_left' rfl]
      rfl
    have hcount : (data.bytes.drop 2).count 0 = rest.count 0 + 1 := by
      rw [hrest, List.count_append, List.count_eq_zero.mpr hzero, Nat.zero_add,
        List.count_cons_self]
    have hmem : 0 ∈ rest ↔ 2 ≤ (data.bytes.drop 2).count 0 := by
      rw [hcount, ← List.count_pos_iff]
      omega
    rw [hbyte]
    cases filename with
    | nil => simp [hrest]
    | cons b filename =>
      have hb : b ≠ 0 := fun h => hzero (h ▸ List.mem_cons_self)
      simp only [List.length_cons] at hbehind
      simp [hbehind, hmem, hrest, hb]

end Strings

section Positions

variable {session : Option Session} {data : Buffer} {amount : ℕ}

/-- The strings of a request are inside the array when both end there. -/
theorem strings_inside_iff :
    (∀ i, Scans data 2 i → i < bufferSize) ∧
      (∀ i filename, cString (data.bytes.drop 2) = some filename → filename ≠ [] →
        Scans data (2 + (filename.length + 1)) i → i < bufferSize) ↔ StringsEnd data := by
  rw [scans_inside_iff (by decide)]
  refine and_congr_right fun hzero => ?_
  have hstart : ∀ filename, cString (data.bytes.drop 2) = some filename →
      2 + (filename.length + 1) ≤ bufferSize := by
    intro filename hname
    obtain ⟨-, rest, hrest⟩ := cString_eq_some.mp hname
    have hlength := congrArg List.length hrest
    rw [List.length_drop, data.size, List.length_append, List.length_cons] at hlength
    rw [bufferSize] at hlength ⊢
    omega
  constructor
  · intro hmode filename hname hne
    rw [← scans_inside_iff (hstart filename hname)]
    exact fun i hi => hmode i filename hname hne hi
  · intro hmode i filename hname hne
    exact (scans_inside_iff (hstart filename hname)).mpr (hmode filename hname hne) i

/-- All positions are inside the array exactly when the strings and the payload are. -/
theorem indexes_inside_iff (hamount : amount ≤ bufferSize) :
    (∀ i, Indexes session data amount i → i < bufferSize) ↔
      (ReadsRequest session (data.word 0) → StringsEnd data) ∧
      (StoresPayload session data → 4 ≤ amount) := by
  rw [← strings_inside_iff]
  constructor
  · intro hinside
    refine ⟨fun hreads => ⟨fun i hi => hinside i (.name hreads hi),
      fun i filename hname hne hi => hinside i (.mode hreads hname hne hi)⟩, fun hstores => ?_⟩
    by_contra hlt
    have hlarge := bufferSize_lt_sizeSub (Nat.lt_of_not_le hlt) (by decide)
    have hlast := hinside (4 + bufferSize) (.payload hstores (by omega) (by omega))
    omega
  · rintro ⟨hstrings, hpayload⟩ i hi
    cases hi with
    | opcode hlt => exact Nat.lt_trans hlt (by decide)
    | name hreads hscan => exact (hstrings hreads).1 i hscan
    | mode hreads hname hne hscan => exact (hstrings hreads).2 i _ hname hne hscan
    | number _ _ hlt => exact Nat.lt_trans hlt (by decide)
    | payload hstores _ hlt =>
      have hle := hpayload hstores
      rw [sizeSub_of_le hle hamount] at hlt
      omega

end Positions

/-- Handling a datagram stays inside the receive buffer if and only if the strings of a request
that is read end in the buffer and an awaited DATA message is as long as its header. The model
goes on exactly where no position is outside. -/
theorem inside_buffer_iff (srv : TFTPServer) (ep : Endpoint) (d : Datagram) (o : Outcomes) :
    let session := srv.sessions ep
    let data := srv.recvBuffer.fill d
    let amount := min d.length bufferSize
    (InsideBuffer session data amount ↔
      (ReadsRequest session (data.word 0) → Terminated data) ∧
      (StoresPayload session data → 4 ≤ d.length)) ∧
    ((srv.receive (.received ep d o)).isSome ↔
      ∀ i, Indexes session data amount i → i < bufferSize) := by
  intro session data amount
  have hamount : amount ≤ bufferSize := Nat.min_le_right ..
  have hlength : 4 ≤ amount ↔ 4 ≤ d.length := header_received_iff _
  constructor
  · rw [InsideBuffer, indexes_inside_iff hamount, stringsEnd_iff, hlength, and_iff_left_iff_imp]
    rintro ⟨-, hpayload⟩ hstores
    have hle := hlength.mpr (hpayload hstores)
    rw [sizeSub_of_le hle hamount, Nat.sub_add_cancel hle]
  · rw [receive_eq_handle, Option.isSome_map, handle_isSome_iff, indexes_inside_iff hamount,
      request_isSome_iff, Buffer.slice_isSome_iff _ hamount]

theorem unterminated_outside (b : Buffer) {letters : Bytes} (hlength : letters.length = 514)
    (hzero : 0 ∉ letters) :
    ¬ InsideBuffer none (b.fill (wordBytes MessageType.rrq.code ++ letters)) bufferSize := by
  rintro ⟨hinside, -⟩
  obtain ⟨hstrings, -⟩ := (indexes_inside_iff (Nat.le_refl _)).mp hinside
  have hd : (wordBytes MessageType.rrq.code ++ letters).length = bufferSize := by
    rw [List.length_append, hlength]
    rfl
  have hreads : ReadsRequest none
      ((b.fill (wordBytes MessageType.rrq.code ++ letters)).word 0) :=
    .inl (b.word_fill_zero (Nat.le_of_eq hd))
  have hmem := (hstrings hreads).1
  rw [b.fill_bytes (Nat.le_of_eq hd), hd, List.drop_eq_nil_of_le (Nat.le_of_eq b.size),
    List.append_nil, List.drop_left' (wordBytes_length _)] at hmem
  exact hzero hmem

/-- A read request without a NUL in 516 bytes, and two bytes of a DATA message behind which the
buffer still has the awaited number. -/
theorem outside_buffer :
    ¬ InsideBuffer none
      (Buffer.blank.fill (wordBytes MessageType.rrq.code ++ List.replicate 514 97)) bufferSize ∧
    ¬ InsideBuffer (some (.write { ep := ⟨0, 0⟩ }))
      ((Buffer.blank.fill (dataMessage 1 [])).fill [3, 0]) 2 := by
  constructor
  · refine unterminated_outside .blank List.length_replicate fun hzero => ?_
    exact absurd (List.eq_of_mem_replicate hzero) (by decide)
  · rintro ⟨-, hlength⟩
    exact absurd (hlength ⟨{ ep := ⟨0, 0⟩ }, rfl, rfl, rfl⟩) (by decide)

end ReceiveBounds
end Tftp
end NetworkProtocols
