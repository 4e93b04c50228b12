import NetworkProtocols.Dns.Entries
import NetworkProtocols.Dns.Query

/-!
# Where the decoding of a response goes

The entries of a message follow one another, each where the one before it ends, up to the
first one that is stored where its vector has no element. The decoder stays in the message
when every entry that it comes to lies inside, and it ends when none of their names runs
into a cycle of pointers and each of them has an element.
-/

namespace NetworkProtocols
namespace Dns

open Program Relation

/-- An entry, and whether the vector of its section has an element for it. -/
abbrev Slot := Entry × Bool

/-- The entries `i` to `i + n - 1` of a section whose vector has `size` elements. -/
def slots (entry : Entry) (i n size : ℕ) : List Slot :=
  (List.range' i n).map fun j => (entry, decide (j < size))

theorem slots_succ (entry : Entry) (i n size : ℕ) :
    slots entry i (n+1) size = (entry, decide (i < size)) :: slots entry (i+1) n size := rfl

/-- The entries that a header announces, in the order of the sections. The vectors of the
questions and of the answers are resized, the others are as `self` has them. -/
def entries (self : DNSResponse) (m : DNSMessage) : List Slot :=
  slots .question 0 m.qCount.toNat m.qCount.toNat ++ (slots .record 0 m.aCount.toNat m.aCount.toNat
    ++ (slots .record 0 m.nsCount.toNat self.authorityResourceRecords.size
      ++ slots .record 0 m.arCount.toNat self.additionalResourceRecords.size))

/-- An entry is complete and is stored. -/
def Slot.Passed (buffer : Bytes) (slot : Slot) (p e : ℕ) : Prop :=
  slot.1.Span buffer p e ∧ slot.2 = true

/-- An entry lies at `p`, behind entries that are complete and stored. -/
def EntryAt (self : DNSResponse) (buffer : Bytes) (slot : Slot) (p : ℕ) : Prop :=
  ∃ m tail rest, buffer = DNSMessage.encode m ++ tail ∧
    ReflTransGen (Advances (Slot.Passed buffer)) (entries self m, 12) (slot :: rest, p)

def Slot.store (slot : Slot) (e : ℕ) : Except Halt ℕ :=
  if slot.2 then .ok e else .error .noElement

/-- An entry is read and then stored, if there is an element for it. -/
def Slot.take (buffer : Bytes) (p : ℕ) (slot : Slot) : Program ℕ := do
  let e ← slot.1.skip buffer p
  slot.store e

section Slots

variable {buffer : Bytes}

theorem Slot.take_stable (p : ℕ) (slot : Slot) : (slot.take buffer p).Stable :=
  (Entry.skip_stable p slot.1).bind fun _ => stable_lift _

theorem Slot.take_returns (p : ℕ) (slot : Slot) (e : ℕ) :
    (slot.take buffer p).Returns e ↔ slot.Passed buffer p e := by
  rw [Slot.take, returns_bind (Entry.skip_stable p slot.1) fun _ => stable_lift _]
  simp only [Entry.skip_returns, returns_lift, Slot.store, Slot.Passed]
  constructor
  · rintro ⟨e', hspan, hstore⟩
    split at hstore
    next hslot => exact ⟨Except.ok.inj hstore ▸ hspan, hslot⟩
    next => cases hstore
  · rintro ⟨hspan, hslot⟩
    exact ⟨e, hspan, if_pos hslot⟩

theorem Slot.take_strays (p : ℕ) (slot : Slot) :
    (slot.take buffer p).Strays ↔ ¬ slot.1.Inside buffer p := by
  rw [Slot.take, strays_bind (Entry.skip_stable p slot.1) fun _ => stable_lift _,
    Entry.skip_strays]
  simp only [strays_lift, Slot.store]
  refine or_iff_left ?_
  rintro ⟨e, -, hstore⟩
  split at hstore <;> cases hstore

theorem Slot.take_terminates (p : ℕ) (slot : Slot) :
    (slot.take buffer p).Terminates ↔
      slot.1.Acyclic buffer p ∧ (slot.2 = true ∨ ¬ ∃ e, slot.1.Span buffer p e) := by
  rw [Slot.take, terminates_bind (Entry.skip_stable p slot.1) fun _ => stable_lift _,
    Entry.skip_terminates]
  refine and_congr_right fun _ => ?_
  simp only [Entry.skip_returns, Slot.store]
  by_cases hslot : slot.2 = true
  · rw [or_iff_left_of_imp fun _ => hslot]
    refine ⟨fun _ => hslot, fun _ e _ => ?_⟩
    rw [if_pos hslot]
    exact terminates_pure e
  · rw [or_iff_right hslot]
    constructor
    · rintro h ⟨e, hspan⟩
      have hstop := h e hspan
      rw [if_neg hslot] at hstop
      rcases hstop with ⟨_, _, hx⟩ | ⟨_, hx⟩ <;> cases hx
    · exact fun h e hspan => absurd ⟨e, hspan⟩ h

end Slots

section Pass

variable {buffer : Bytes} {α β : Type}

theorem readEntries_stable {read : ℕ → Program (α × ℕ)} (hread : ∀ b, (read b).Stable)
    (n i : ℕ) (v : StdVector α) (b : ℕ) : (readEntries read n i v b).Stable := by
  induction n generalizing i v b with
  | zero => exact stable_pure _
  | succ n ih => exact (hread b).bind fun _ => (stable_lift _).bind fun _ => ih _ _ _

theorem assign_bind (v : StdVector α) (i : ℕ) (x : α) (entry : Entry) (e : ℕ)
    (next : ℕ → ℕ → Program β) :
    ((liftM (v.assign i x) : Program (StdVector α)) >>= fun w => next w.size e) =
      (liftM (Slot.store (entry, decide (i < v.size)) e) : Program ℕ) >>= next v.size := by
  by_cases hi : i < v.size
  · have ha : v.assign i x = .ok ⟨v.elems.set i x⟩ := StdVector.assign_eq_ok.mpr ⟨hi, rfl⟩
    have hs : Slot.store (entry, decide (i < v.size)) e = .ok e := by simp [Slot.store, hi]
    rw [ha, hs]
    exact congrArg (next · e) (StdVector.assign_size ha)
  · have ha : v.assign i x = .error .noElement :=
      StdVector.assign_eq_error.mpr ⟨rfl, Nat.le_of_not_lt hi⟩
    have hs : Slot.store (entry, decide (i < v.size)) e = .error .noElement := by
      simp [Slot.store, hi]
    rw [ha, hs]
    rfl

theorem readEntries_bind {read : ℕ → Program (α × ℕ)} {entry : Entry}
    (hskip : ∀ p, entry.skip buffer p = (fun r => p + r.2) <$> read p)
    (next : ℕ → Program β) (n i : ℕ) (v : StdVector α) (b : ℕ) :
    (readEntries read n i v b >>= fun r => next r.2) =
      (slots entry i n v.size).foldlM (Slot.take buffer) b >>= next := by
  induction n generalizing i v b with
  | zero => simp [readEntries, slots]
  | succ n ih =>
    have hassign := fun (x : α) (e : ℕ) => assign_bind v i x entry e
      fun size e => (slots entry (i+1) n size).foldlM (Slot.take buffer) e >>= next
    rw [slots_succ, List.foldlM_cons, Slot.take, hskip]
    simp only [readEntries, bind_assoc, ih, hassign, bind_map_left]

theorem readEntries_foldlM {read : ℕ → Program (α × ℕ)} {entry : Entry}
    (hskip : ∀ p, entry.skip buffer p = (fun r => p + r.2) <$> read p)
    (rest : List Slot) (n i : ℕ) (v : StdVector α) (b : ℕ) :
    (readEntries read n i v b >>= fun r => rest.foldlM (Slot.take buffer) r.2) =
      (slots entry i n v.size ++ rest).foldlM (Slot.take buffer) b := by
  rw [List.foldlM_append]
  exact readEntries_bind hskip (fun b => rest.foldlM (Slot.take buffer) b) n i v b

theorem decode_stable (self : DNSResponse) : (self.decode buffer).Stable :=
  (stable_lift _).bind fun _ =>
    (readEntries_stable (fun _ => readQuestion_stable) _ _ _ _).bind fun _ =>
      (readEntries_stable (fun _ => readResourceRecord_stable) _ _ _ _).bind fun _ =>
        (readEntries_stable (fun _ => readResourceRecord_stable) _ _ _ _).bind fun _ =>
          (readEntries_stable (fun _ => readResourceRecord_stable) _ _ _ _).bind fun _ =>
            stable_pure _

theorem decode_pass (self : DNSResponse) :
    Prod.snd <$> self.decode buffer =
      (liftM (DNSMessage.decode buffer) : Program (DNSMessage × ℕ)) >>= fun r =>
        (entries self r.1).foldlM (Slot.take buffer) r.2 := by
  have hq : ∀ p, Entry.skip buffer p .question = (fun r => p + r.2) <$> readQuestion buffer p :=
    fun _ => rfl
  have hr : ∀ p, Entry.skip buffer p .record =
      (fun r => p + r.2) <$> readResourceRecord buffer p := fun _ => rfl
  simp only [DNSResponse.decode, map_bind, map_pure, readEntries_bind hr, bind_pure,
    readEntries_foldlM hr, readEntries_foldlM hq, entries, StdVector.resize_size,
    StdVector.reserve]

theorem decode_strays_iff (self : DNSResponse) :
    (self.decode buffer).Strays ↔
      buffer.length < 12 ∨
        ∃ slot p, EntryAt self buffer slot p ∧ ¬ slot.1.Inside buffer p := by
  rw [← strays_map (decode_stable self) Prod.snd, decode_pass,
    strays_bind (stable_lift _) fun _ => foldlM_stable Slot.take_stable _ _]
  simp only [returns_lift, strays_lift, DNSMessage.decode_eq_error, true_and]
  refine or_congr_right ⟨?_, ?_⟩
  · rintro ⟨⟨m, n⟩, hheader, hfold⟩
    obtain ⟨rfl, tail, hbuffer⟩ := DNSMessage.decode_eq_ok.mp hheader
    obtain ⟨slot, rest, p, hreach, hout⟩ :=
      (strays_foldlM Slot.take_stable Slot.take_returns).mp hfold
    exact ⟨slot, p, ⟨m, tail, rest, hbuffer, hreach⟩, (Slot.take_strays p slot).mp hout⟩
  · rintro ⟨slot, p, ⟨m, tail, rest, hbuffer, hreach⟩, hout⟩
    exact ⟨(m, 12), DNSMessage.decode_eq_ok.mpr ⟨rfl, tail, hbuffer⟩,
      (strays_foldlM Slot.take_stable Slot.take_returns).mpr
        ⟨slot, rest, p, hreach, (Slot.take_strays p slot).mpr hout⟩⟩

/-- The decoder returns, or a read outside stops it, when no chain of pointers that it comes
to has a cycle and every entry that it reads whole has an element. -/
theorem decode_terminates_iff (self : DNSResponse) :
    (self.decode buffer).Terminates ↔
      ∀ slot p, EntryAt self buffer slot p → slot.1.Acyclic buffer p ∧
        (slot.2 = true ∨ ¬ ∃ e, slot.1.Span buffer p e) := by
  rw [← terminates_map (decode_stable self) Prod.snd, decode_pass,
    terminates_bind (stable_lift _) fun _ => foldlM_stable Slot.take_stable _ _,
    and_iff_right (terminates_lift (DNSMessage.decode_reader buffer))]
  simp only [returns_lift]
  constructor
  · rintro h slot p ⟨m, tail, rest, hbuffer, hreach⟩
    have hfold := h (m, 12) (DNSMessage.decode_eq_ok.mpr ⟨rfl, tail, hbuffer⟩)
    have htake := (terminates_foldlM Slot.take_stable Slot.take_returns).mp hfold
    exact (Slot.take_terminates p slot).mp (htake slot rest p hreach)
  · rintro h ⟨m, n⟩ hheader
    obtain ⟨rfl, tail, hbuffer⟩ := DNSMessage.decode_eq_ok.mp hheader
    refine (terminates_foldlM Slot.take_stable Slot.take_returns).mpr fun slot rest p hreach => ?_
    exact (Slot.take_terminates p slot).mpr (h slot p ⟨m, tail, rest, hbuffer, hreach⟩)

def selfPointer : Bytes := [0, 0, 0, 0, 0, 1, 0, 0, 0, 0, 0, 0, 0xC0, 12, 0, 1, 0, 1]

theorem decode_selfPointer : ¬ ((DNSResponse.new 1 1 0).decode selfPointer).Terminates := by
  intro h
  rw [← terminates_map (decode_stable _) Prod.snd, decode_pass,
    terminates_bind (stable_lift _) fun _ => foldlM_stable Slot.take_stable _ _] at h
  have hfold := h.2 ({ qCount := 1 }, 12) (returns_lift.mpr rfl)
  have htake := (terminates_foldlM Slot.take_stable Slot.take_returns).mp hfold
    (.question, true) [] 12 .refl
  have hrun : LabelRun isPointer (selfPointer.drop 12) [] 12 2 := .pointer (by decide)
  have hhop : Hop selfPointer 12 12 := ⟨by decide, [], 2, hrun⟩
  exact ((Slot.take_terminates 12 _).mp htake).1 [] 12 2 hrun ⟨12, .refl, .single hhop⟩

end Pass

/-- Which buffers the two decoders read without leaving them. -/
theorem decoders_inside_iff (self : DNSResponse) (buffer : Bytes) :
    (DNSQuery.decode buffer ≠ .error .outside ↔ DNSQuery.Complete buffer) ∧
    (¬ (self.decode buffer).Strays ↔
      12 ≤ buffer.length ∧
        ∀ slot p, EntryAt self buffer slot p → slot.1.Inside buffer p) := by
  refine ⟨by rw [Ne, DNSQuery.decode_outside, not_not], ?_⟩
  rw [decode_strays_iff, not_or, Nat.not_lt]
  simp only [not_exists, not_and, not_not]

def cutName : Bytes := [0, 0, 0, 0, 0, 1, 0, 0, 0, 0, 0, 0, 5, 97]

theorem decoders_cutName :
    DNSQuery.decode cutName = .error .outside ∧
    ((DNSResponse.new 1 1 0).decode cutName).Strays :=
  ⟨rfl, 0, rfl⟩

end Dns
end NetworkProtocols
