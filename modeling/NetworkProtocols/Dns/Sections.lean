import NetworkProtocols.Dns.Compression
import NetworkProtocols.Dns.Framing

/-!
# The sections of a response

The loops of `decode` store what their readers return, entry by entry. The questions and
answers go to vectors that were resized for them, the authority and additional records to
vectors in which room was only reserved.
-/

namespace NetworkProtocols
namespace Dns

open Program Relation

/-- The entries that a reader finds one behind the other from `p` on, up to `e`. -/
inductive Reads {α : Type} (read : ℕ → Program (α × ℕ)) : ℕ → List α → ℕ → Prop
  | nil {p} : Reads read p [] p
  | cons {p x k xs e} : (read p).Returns (x, k) → Reads read (p + k) xs e → Reads read p (x :: xs) e

section Loop

variable {α : Type} {read : ℕ → Program (α × ℕ)}

theorem readEntries_returns (hread : ∀ b, (read b).Stable) {xs : List α} {p e : ℕ}
    (h : Reads read p xs e) {i : ℕ} {v : StdVector α} (hi : i + xs.length ≤ v.size) :
    (readEntries read xs.length i v p).Returns (v.overwrite i xs, e) := by
  induction h generalizing i v with
  | nil => exact returns_pure.mpr (by rw [StdVector.overwrite_nil])
  | @cons p x k xs e hx _ ih =>
    rw [List.length_cons] at hi ⊢
    have ha : v.assign i x = .ok ⟨v.elems.set i x⟩ :=
      StdVector.assign_eq_ok.mpr ⟨by omega, rfl⟩
    have hrest := ih (i := i + 1) (v := ⟨v.elems.set i x⟩)
      (by rw [StdVector.assign_size ha]; omega)
    rw [StdVector.overwrite_assign ha] at hrest
    rw [readEntries, returns_bind (hread _) fun _ =>
      (stable_lift _).bind fun _ => readEntries_stable hread _ _ _ _]
    refine ⟨_, hx, (returns_bind (stable_lift _) fun _ => readEntries_stable hread _ _ _ _).mpr ?_⟩
    exact ⟨_, returns_lift.mpr ha, hrest⟩

/-- The loop stops at the first entry for which there is no element. -/
theorem readEntries_misassigns (hread : ∀ b, (read b).Stable) {xs : List α} {p e : ℕ}
    (h : Reads read p xs e) {i : ℕ} {v : StdVector α} (hi : i ≤ v.size)
    (hfull : v.size < i + xs.length) : (readEntries read xs.length i v p).Misassigns := by
  induction h generalizing i v with
  | nil =>
    rw [List.length_nil] at hfull
    omega
  | @cons p x k xs e hx _ ih =>
    rw [List.length_cons] at hfull ⊢
    rw [readEntries]
    refine misassigns_bind_of_returns (hread _)
      (fun _ => (stable_lift _).bind fun _ => readEntries_stable hread _ _ _ _) hx ?_
    rcases Nat.lt_or_ge i v.size with hlt | hge
    · have ha : v.assign i x = .ok ⟨v.elems.set i x⟩ := StdVector.assign_eq_ok.mpr ⟨hlt, rfl⟩
      have hsize := StdVector.assign_size ha
      exact misassigns_bind_of_returns (stable_lift _)
        (fun _ => readEntries_stable hread _ _ _ _) (returns_lift.mpr ha)
        (ih (by rw [hsize]; omega) (by rw [hsize]; omega))
    · exact misassigns_bind ⟨0, StdVector.assign_eq_error.mpr ⟨rfl, hge⟩⟩

end Loop

/-- The header of a message, and what the readers find in its four sections. -/
structure Parsed (buffer : Bytes) (m : DNSMessage) (qs : List Question)
    (as nss ars : List ResourceRecord) (e₁ e₂ e₃ e₄ : ℕ) : Prop where
  header : ∃ rest, buffer = m.encode ++ rest
  questions : Reads (readQuestion buffer) 12 qs e₁ ∧ qs.length = m.qCount.toNat
  answers : Reads (readResourceRecord buffer) e₁ as e₂ ∧ as.length = m.aCount.toNat
  authority : Reads (readResourceRecord buffer) e₂ nss e₃ ∧ nss.length = m.nsCount.toNat
  additional : Reads (readResourceRecord buffer) e₃ ars e₄ ∧ ars.length = m.arCount.toNat

namespace Parsed

variable {buffer : Bytes} {m : DNSMessage} {qs : List Question} {as nss ars : List ResourceRecord}
  {e₁ e₂ e₃ e₄ : ℕ} (h : Parsed buffer m qs as nss ars e₁ e₂ e₃ e₄) (self : DNSResponse)
include h

theorem header_eq : DNSMessage.decode buffer = .ok (m, 12) := by
  obtain ⟨rest, hbuffer⟩ := h.header
  rw [hbuffer, DNSMessage.decode_encode]

theorem questions_returns :
    (readEntries (readQuestion buffer) m.qCount.toNat 0
      (self.questions.resize m.qCount.toNat {}) 12).Returns (⟨qs⟩, e₁) := by
  have hret := readEntries_returns (fun _ => readQuestion_stable) h.questions.1 (i := 0)
    (v := self.questions.resize qs.length {}) (by rw [StdVector.resize_size, Nat.zero_add])
  rwa [StdVector.overwrite_resize, h.questions.2] at hret

theorem answers_returns :
    (readEntries (readResourceRecord buffer) m.aCount.toNat 0
      (self.answerResourceRecords.resize m.aCount.toNat {}) e₁).Returns (⟨as⟩, e₂) := by
  have hret := readEntries_returns (fun _ => readResourceRecord_stable) h.answers.1 (i := 0)
    (v := self.answerResourceRecords.resize as.length {})
    (by rw [StdVector.resize_size, Nat.zero_add])
  rwa [StdVector.overwrite_resize, h.answers.2] at hret

theorem authority_returns (hroom : nss.length ≤ self.authorityResourceRecords.size) :
    (readEntries (readResourceRecord buffer) m.nsCount.toNat 0
      self.authorityResourceRecords e₂).Returns
        (self.authorityResourceRecords.overwrite 0 nss, e₃) := by
  rw [← h.authority.2]
  exact readEntries_returns (fun _ => readResourceRecord_stable) h.authority.1
    ((Nat.zero_add _).trans_le hroom)

/-- What `decode` makes of the four sections, when their vectors have the elements. -/
theorem decode_returns (hauthority : nss.length ≤ self.authorityResourceRecords.size)
    (hadditional : ars.length ≤ self.additionalResourceRecords.size) :
    (self.decode buffer).Returns ({ self with
      toDNSMessage := m
      questions := ⟨qs⟩
      answerResourceRecords := ⟨as⟩
      authorityResourceRecords := self.authorityResourceRecords.overwrite 0 nss
      additionalResourceRecords := self.additionalResourceRecords.overwrite 0 ars }, e₄) := by
  have hrec : ∀ b, (readResourceRecord buffer b).Stable := fun _ => readResourceRecord_stable
  have hques : ∀ b, (readQuestion buffer b).Stable := fun _ => readQuestion_stable
  have h4 := readEntries_returns hrec h.additional.1 ((Nat.zero_add _).trans_le hadditional)
  rw [h.additional.2] at h4
  obtain ⟨n₁, h1⟩ := (readEntries_stable hques _ _ _ _).eventually (h.questions_returns self)
  obtain ⟨n₂, h2⟩ := (readEntries_stable hrec _ _ _ _).eventually (h.answers_returns self)
  obtain ⟨n₃, h3⟩ :=
    (readEntries_stable hrec _ _ _ _).eventually (h.authority_returns self hauthority)
  obtain ⟨n₄, h4⟩ := (readEntries_stable hrec _ _ _ _).eventually h4
  refine ⟨n₁ + n₂ + n₃ + n₄, ?_⟩
  have hlift : ∀ (x : Except Halt (DNSMessage × ℕ)) n, (liftM x : Program _) n = x :=
    fun _ _ => rfl
  simp only [DNSResponse.decode, bind_apply, h.header_eq, hlift, Except.bind, StdVector.reserve,
    h1 _ (show n₁ ≤ n₁ + n₂ + n₃ + n₄ by omega), h2 _ (show n₂ ≤ n₁ + n₂ + n₃ + n₄ by omega),
    h3 _ (show n₃ ≤ n₁ + n₂ + n₃ + n₄ by omega), h4 _ (show n₄ ≤ n₁ + n₂ + n₃ + n₄ by omega)]
  rfl

/-- A record for which its vector has no element stops `decode`. -/
theorem decode_misassigns
    (hfull : self.authorityResourceRecords.size < nss.length ∨
      self.additionalResourceRecords.size < ars.length) :
    (self.decode buffer).Misassigns := by
  have hrec : ∀ b, (readResourceRecord buffer b).Stable := fun _ => readResourceRecord_stable
  have hques : ∀ b, (readQuestion buffer b).Stable := fun _ => readQuestion_stable
  have hlift : ∀ (x : Except Halt (DNSMessage × ℕ)) n, (liftM x : Program _) n = x :=
    fun _ _ => rfl
  obtain ⟨n₁, h1⟩ := (readEntries_stable hques _ _ _ _).eventually (h.questions_returns self)
  obtain ⟨n₂, h2⟩ := (readEntries_stable hrec _ _ _ _).eventually (h.answers_returns self)
  by_cases hroom : nss.length ≤ self.authorityResourceRecords.size
  · have h4 := readEntries_misassigns hrec h.additional.1 (i := 0) (Nat.zero_le _)
      (by rw [Nat.zero_add]; exact hfull.resolve_left (Nat.not_lt.mpr hroom))
    rw [h.additional.2] at h4
    obtain ⟨n₃, h3⟩ :=
      (readEntries_stable hrec _ _ _ _).eventually (h.authority_returns self hroom)
    obtain ⟨n₄, h4⟩ := (readEntries_stable hrec _ _ _ _).eventually_misassigns h4
    refine ⟨n₁ + n₂ + n₃ + n₄, ?_⟩
    simp only [DNSResponse.decode, bind_apply, h.header_eq, hlift, Except.bind, StdVector.reserve,
      h1 _ (show n₁ ≤ n₁ + n₂ + n₃ + n₄ by omega), h2 _ (show n₂ ≤ n₁ + n₂ + n₃ + n₄ by omega),
      h3 _ (show n₃ ≤ n₁ + n₂ + n₃ + n₄ by omega), h4 _ (show n₄ ≤ n₁ + n₂ + n₃ + n₄ by omega)]
  · have h3 := readEntries_misassigns hrec h.authority.1 (i := 0) (Nat.zero_le _)
      (by rw [Nat.zero_add]; exact Nat.lt_of_not_le hroom)
    rw [h.authority.2] at h3
    obtain ⟨n₃, h3⟩ := (readEntries_stable hrec _ _ _ _).eventually_misassigns h3
    refine ⟨n₁ + n₂ + n₃, ?_⟩
    simp only [DNSResponse.decode, bind_apply, h.header_eq, hlift, Except.bind, StdVector.reserve,
      h1 _ (show n₁ ≤ n₁ + n₂ + n₃ by omega), h2 _ (show n₂ ≤ n₁ + n₂ + n₃ by omega),
      h3 _ (show n₃ ≤ n₁ + n₂ + n₃ by omega)]

end Parsed

/-- An entry by the rules of the format, from `p` to `e`. -/
def Entry.WellFormed (msg : Bytes) : Entry → ℕ → ℕ → Prop
  | question, p, e => ∃ stretches n, NameAt msg p stretches n ∧ p + n + 4 ≤ msg.length ∧
      e = p + n + 4
  | record, p, e => ∃ stretches n f, NameAt msg p stretches n ∧ FieldsAt msg (p + n) f ∧
      DataAt msg (p + n + 10) f ∧ e = p + n + 10 + f.data.length

def announced (m : DNSMessage) : List Entry :=
  List.replicate m.qCount.toNat .question ++ (List.replicate m.aCount.toNat .record ++
    (List.replicate m.nsCount.toNat .record ++ List.replicate m.arCount.toNat .record))

def WellFormed (msg : Bytes) (m : DNSMessage) : Prop :=
  ∃ rest e, msg = m.encode ++ rest ∧
    ReflTransGen (Advances fun entry p e => entry.WellFormed msg p e) (announced m, 12) ([], e)

theorem readQuestion_wellFormed {msg : Bytes} {p e : ℕ}
    (h : Entry.question.WellFormed msg p e) :
    ∃ x k, (readQuestion msg p).Returns (x, k) ∧ p + k = e := by
  obtain ⟨stretches, n, hname, hlen, rfl⟩ := h
  obtain ⟨type, cls, hread⟩ := readQuestion_nameAt hname hlen
  exact ⟨_, _, hread, by omega⟩

theorem readResourceRecord_wellFormed {msg : Bytes} {p e : ℕ}
    (h : Entry.record.WellFormed msg p e) :
    ∃ x k, (readResourceRecord msg p).Returns (x, k) ∧ p + k = e := by
  obtain ⟨stretches, n, f, hname, hf, hd, rfl⟩ := h
  obtain ⟨text, ht⟩ := recordText_dataAt hd hf.data_eq
  exact ⟨_, _, readResourceRecord_nameAt hname hf ht, by omega⟩

theorem reads_of_advances {α : Type} {R : Entry → ℕ → ℕ → Prop} {entry : Entry}
    {read : ℕ → Program (α × ℕ)}
    (hread : ∀ p e, R entry p e → ∃ x k, (read p).Returns (x, k) ∧ p + k = e)
    {n p last : ℕ} {rest : List Entry}
    (h : ReflTransGen (Advances R) (List.replicate n entry ++ rest, p) ([], last)) :
    ∃ xs e, Reads read p xs e ∧ xs.length = n ∧
      ReflTransGen (Advances R) (rest, e) ([], last) := by
  induction n generalizing p with
  | zero => exact ⟨[], p, .nil, rfl, h⟩
  | succ n ih =>
    rw [List.replicate_succ, List.cons_append] at h
    rcases advances_cons h with heq | ⟨e, hR, htail⟩
    · simp at heq
    · obtain ⟨x, k, hx, rfl⟩ := hread p e hR
      obtain ⟨xs, e, hxs, rfl, hrest⟩ := ih htail
      exact ⟨x :: xs, e, .cons hx hxs, rfl, hrest⟩

theorem WellFormed.parsed {msg : Bytes} {m : DNSMessage} (h : WellFormed msg m) :
    ∃ qs as nss ars e₁ e₂ e₃ e₄, Parsed msg m qs as nss ars e₁ e₂ e₃ e₄ := by
  obtain ⟨rest, last, hmsg, hentries⟩ := h
  obtain ⟨qs, e₁, hq, hql, hentries⟩ :=
    reads_of_advances (fun _ _ => readQuestion_wellFormed) hentries
  obtain ⟨as, e₂, ha, hal, hentries⟩ :=
    reads_of_advances (fun _ _ => readResourceRecord_wellFormed) hentries
  obtain ⟨nss, e₃, hns, hnsl, hentries⟩ :=
    reads_of_advances (fun _ _ => readResourceRecord_wellFormed) hentries
  rw [← List.append_nil (List.replicate m.arCount.toNat Entry.record)] at hentries
  obtain ⟨ars, e₄, har, harl, -⟩ :=
    reads_of_advances (fun _ _ => readResourceRecord_wellFormed) hentries
  exact ⟨qs, as, nss, ars, e₁, e₂, e₃, e₄, ⟨rest, hmsg⟩, ⟨hq, hql⟩, ⟨ha, hal⟩, ⟨hns, hnsl⟩,
    ⟨har, harl⟩⟩

/-- The four vectors of the decoded response are the entries of the four sections. -/
def SectionsKept (r : DNSResponse) (qs : List Question) (as nss ars : List ResourceRecord) : Prop :=
  r.questions = ⟨qs⟩ ∧ r.answerResourceRecords = ⟨as⟩ ∧
  r.authorityResourceRecords = ⟨nss⟩ ∧ r.additionalResourceRecords = ⟨ars⟩

/-- A well-formed message is read entry by entry. When its authority and its additional
section are empty, `decode` returns with its sections kept; otherwise it comes to an
assignment outside a vector. -/
theorem sections_kept_iff {msg : Bytes} {m : DNSMessage} (h : WellFormed msg m)
    (type cls : UInt16) (ttl : UInt32) :
    ∃ qs as nss ars e₁ e₂ e₃ e₄,
      (Reads (readQuestion msg) 12 qs e₁ ∧ qs.length = m.qCount.toNat) ∧
      (Reads (readResourceRecord msg) e₁ as e₂ ∧ as.length = m.aCount.toNat) ∧
      (Reads (readResourceRecord msg) e₂ nss e₃ ∧ nss.length = m.nsCount.toNat) ∧
      (Reads (readResourceRecord msg) e₃ ars e₄ ∧ ars.length = m.arCount.toNat) ∧
      ((∃ r, ((DNSResponse.new type cls ttl).decode msg).Returns (r, e₄) ∧
        SectionsKept r qs as nss ars) ↔ m.nsCount = 0 ∧ m.arCount = 0) ∧
      (((DNSResponse.new type cls ttl).decode msg).Misassigns ↔
        ¬ (m.nsCount = 0 ∧ m.arCount = 0)) := by
  obtain ⟨qs, as, nss, ars, e₁, e₂, e₃, e₄, hp⟩ := h.parsed
  refine ⟨qs, as, nss, ars, e₁, e₂, e₃, e₄, hp.questions, hp.answers, hp.authority, hp.additional,
    ?_⟩
  have hzero : ∀ w : UInt16, w = 0 ↔ w.toNat = 0 := fun w =>
    ⟨fun hw => by rw [hw]; rfl, fun hw => UInt16.toNat.inj hw⟩
  rw [hzero m.nsCount, hzero m.arCount, ← hp.authority.2, ← hp.additional.2,
    List.length_eq_zero_iff, List.length_eq_zero_iff]
  have hstable : ((DNSResponse.new type cls ttl).decode msg).Stable := decode_stable _
  by_cases hempty : nss = [] ∧ ars = []
  · obtain ⟨rfl, rfl⟩ := hempty
    have hret := hp.decode_returns (DNSResponse.new type cls ttl) (Nat.zero_le _) (Nat.zero_le _)
    simp only [and_self, not_true_eq_false, iff_true, iff_false]
    exact ⟨⟨_, hret, rfl, rfl, rfl, rfl⟩, hstable.not_misassigns hret⟩
  · have hmis := hp.decode_misassigns (DNSResponse.new type cls ttl) (by
      rw [not_and_or] at hempty
      exact hempty.imp List.length_pos_iff.mpr List.length_pos_iff.mpr)
    simp only [hempty, not_false_eq_true, iff_true, iff_false]
    exact ⟨fun ⟨_, hret, _⟩ => hstable.not_misassigns hret hmis, hmis⟩

def oneAuthority : Bytes :=
  [0, 0, 0, 0, 0, 0, 0, 0, 0, 1, 0, 0, 0, 0, 2, 0, 1, 0, 0, 0, 0, 0, 0]

theorem oneAuthority_wellFormed : WellFormed oneAuthority { nsCount := 1 } := by
  refine ⟨[0, 0, 2, 0, 1, 0, 0, 0, 0, 0, 0], 23, rfl, .single (.step ?_)⟩
  have hroot : NameAt oneAuthority 12 [[]] 1 :=
    @NameAt.root _ 12 [] [0, 2, 0, 1, 0, 0, 0, 0, 0, 0] (by decide) rfl
  exact ⟨_, _, ⟨2, 1, 0, []⟩, hroot, ⟨by decide, [], rfl⟩,
    ⟨fun hA => absurd hA (by decide), fun hC => absurd hC (by decide)⟩, rfl⟩

/-- The record is read, and then assigned to an element that its vector does not have. -/
theorem oneAuthority_lost :
    WellFormed oneAuthority { nsCount := 1 } ∧
    (∃ record, (readResourceRecord oneAuthority 12).Returns (record, 11)) ∧
    ((DNSResponse.new 1 1 0).decode oneAuthority).Misassigns ∧
    ∀ r, ¬ ((DNSResponse.new 1 1 0).decode oneAuthority).Returns r := by
  have hmis : ((DNSResponse.new 1 1 0).decode oneAuthority).Misassigns := ⟨1, rfl⟩
  exact ⟨oneAuthority_wellFormed, ⟨_, 1, rfl⟩, hmis,
    fun _ hret => (decode_stable _).not_misassigns hret hmis⟩

theorem sections_oneAuthority :
    ((DNSResponse.new 1 1 0).decode oneAuthority).Misassigns := by
  obtain ⟨_, _, _, _, _, _, _, _, -, -, -, -, -, hmis⟩ :=
    sections_kept_iff oneAuthority_wellFormed 1 1 0
  exact hmis.mpr (by decide)

end Dns
end NetworkProtocols
