import NetworkProtocols.Lib.Transition
import NetworkProtocols.Dns.Response

/-!
# Chains of compression pointers

A pointer leads to a position where labels lie, and these end in a zero octet or in the
next pointer. Position zero stands for the end of the chain: the loops of the decoder stop
there. A chain ends, leaves the message, or runs into a cycle, and the loop that follows
it returns, reads outside, or never ends accordingly.
-/

namespace NetworkProtocols
namespace Dns

open Relation

/-- The labels at position `p` end in a pointer to `q`, or in a zero octet when `q` is zero. -/
def Hop (msg : Bytes) (p q : ℕ) : Prop :=
  p ≠ 0 ∧ ∃ labels n, LabelRun isPointer (msg.drop p) labels q n

namespace Chain

def Ends (msg : Bytes) (p : ℕ) : Prop := ReflTransGen (Hop msg) p 0

/-- The chain comes to a position at which no labels with their end lie in the message. -/
def Leaves (msg : Bytes) (p : ℕ) : Prop :=
  ∃ q, ReflTransGen (Hop msg) p q ∧ q ≠ 0 ∧
    ¬ ∃ labels r n, LabelRun isPointer (msg.drop q) labels r n

def Cycles (msg : Bytes) (p : ℕ) : Prop :=
  ∃ q, ReflTransGen (Hop msg) p q ∧ TransGen (Hop msg) q q

variable {msg : Bytes} {p : ℕ}

theorem hop_unique (a b c : ℕ) (hb : Hop msg a b) (hc : Hop msg a c) : b = c := by
  obtain ⟨-, labels, n, hb⟩ := hb
  obtain ⟨-, labels', n', hc⟩ := hc
  exact (hb.unique hc).1

theorem hop_lt {a b : ℕ} (h : Hop msg a b) : b < 16384 := by
  obtain ⟨-, labels, n, hrun⟩ := h
  exact hrun.offset_lt

theorem finite (msg : Bytes) (p : ℕ) : {q | ReflTransGen (Hop msg) p q}.Finite := by
  refine (Set.finite_lt_nat (p + 16384)).subset fun q hq => ?_
  rcases ReflTransGen.cases_tail hq with rfl | ⟨r, -, hr⟩
  · simp
  · have hlt := hop_lt hr
    simp only [Set.mem_ofPred_eq]
    omega

theorem cycles_iff : Cycles msg p ↔ ∀ q, ReflTransGen (Hop msg) p q → ∃ r, Hop msg q r :=
  ⟨fun ⟨_, hq, hcycle⟩ _ hr => Transition.cycle_next hop_unique hq hcycle hr,
    fun hnext => Transition.reaches_cycle (finite msg p) hnext⟩

end Chain

section Loop

open Program

variable {msg : Bytes}

/-- One iteration is one hop. -/
theorem iterates_iff {r s : NameRead} :
    Iterates (fun r : NameRead => r.offset != 0) (followPointer msg) r s ↔
      r.offset ≠ 0 ∧ ∃ labels n, LabelRun isPointer (msg.drop r.offset) labels s.offset n ∧
        s = { r with name := appendName r.name (joinDots labels), offset := s.offset } := by
  simp only [Iterates, followPointer, bne_iff_ne, ne_eq, and_congr_right_iff]
  intro _
  cases hd : decodeDomainName (msg.drop r.offset) with
  | error e =>
    obtain ⟨-, hno⟩ := readName_eq_error.mp hd
    simp only [Except.map, reduceCtorEq, false_iff]
    rintro ⟨labels, n, hrun, -⟩
    exact hno ⟨labels, s.offset, n, hrun⟩
  | ok hop =>
    obtain ⟨labels, hrun, hname⟩ := readName_eq_ok.mp hd
    simp only [Except.map, Except.ok.injEq]
    constructor
    · rintro rfl
      exact ⟨labels, hop.bytesCount, hrun, by rw [hname]⟩
    · rintro ⟨labels', n', hrun', hs⟩
      have hd' := (readName_of_run hrun').symm.trans hd
      have hhop : hop = { bytesCount := n', name := joinDots labels', offset := s.offset } :=
        (Except.ok.inj hd').symm
      rw [hs, hhop]

theorem hop_of_iterates {r s : NameRead}
    (h : Iterates (fun r : NameRead => r.offset != 0) (followPointer msg) r s) :
    Hop msg r.offset s.offset := by
  obtain ⟨hne, labels, n, hrun, -⟩ := iterates_iff.mp h
  exact ⟨hne, labels, n, hrun⟩

theorem iterates_of_hop {r : NameRead} {q : ℕ} (h : Hop msg r.offset q) :
    ∃ s, Iterates (fun r : NameRead => r.offset != 0) (followPointer msg) r s ∧ s.offset = q := by
  obtain ⟨hne, labels, n, hrun⟩ := h
  exact ⟨{ r with name := appendName r.name (joinDots labels), offset := q },
    iterates_iff.mpr ⟨hne, labels, n, hrun, rfl⟩, rfl⟩

theorem hops_of_iterates {r s : NameRead} (h : ReflTransGen
    (Iterates (fun r : NameRead => r.offset != 0) (followPointer msg)) r s) :
    ReflTransGen (Hop msg) r.offset s.offset :=
  h.lift NameRead.offset fun _ _ => hop_of_iterates

theorem iterates_of_hops {r : NameRead} {q : ℕ} (h : ReflTransGen (Hop msg) r.offset q) :
    ∃ s, ReflTransGen (Iterates (fun r : NameRead => r.offset != 0) (followPointer msg)) r s ∧
      s.offset = q := by
  induction h with
  | refl => exact ⟨r, .refl, rfl⟩
  | tail _ hhop ih =>
    obtain ⟨s, hs, rfl⟩ := ih
    obtain ⟨t, ht, rfl⟩ := iterates_of_hop hhop
    exact ⟨t, hs.tail ht, rfl⟩

theorem followPointers_stable (r : NameRead) : (followPointers msg r).Stable := loop_stable r

theorem followPointers_returns {r : NameRead} :
    (∃ s, (followPointers msg r).Returns s) ↔ Chain.Ends msg r.offset := by
  constructor
  · rintro ⟨s, hs⟩
    obtain ⟨hreach, hlast⟩ := returns_loop.mp hs
    have h0 : s.offset = 0 := by simpa using hlast
    have hhops := hops_of_iterates hreach
    rw [h0] at hhops
    exact hhops
  · intro h
    obtain ⟨s, hs, h0⟩ := iterates_of_hops h
    exact ⟨s, returns_loop.mpr ⟨hs, by simp [h0]⟩⟩

theorem followPointers_strays {r : NameRead} :
    (followPointers msg r).Strays ↔ Chain.Leaves msg r.offset := by
  have hbody : ∀ s : NameRead, followPointer msg s = .error .outside ↔
      ¬ ∃ labels q n, LabelRun isPointer (msg.drop s.offset) labels q n := by
    intro s
    have he := @readName_eq_error isPointer (msg.drop s.offset) .outside
    simp only [true_and] at he
    rw [← he, followPointer, decodeDomainName]
    cases readName isPointer (msg.drop s.offset) <;> simp [Except.map]
  constructor
  · intro h
    obtain ⟨s, hreach, hne, hout⟩ := strays_loop.mp h
    exact ⟨s.offset, hops_of_iterates hreach, by simpa using hne, (hbody s).mp hout⟩
  · rintro ⟨q, hreach, hne, hout⟩
    obtain ⟨s, hs, rfl⟩ := iterates_of_hops hreach
    exact strays_loop.mpr ⟨s, hs, by simpa using hne, (hbody s).mpr hout⟩

theorem followPointers_terminates {r : NameRead} :
    (followPointers msg r).Terminates ↔ ¬ Chain.Cycles msg r.offset := by
  have hbody : ∀ s : NameRead, Reader (followPointer msg s) := by
    intro s e hs
    rw [followPointer, decodeDomainName] at hs
    cases hd : readName isPointer (msg.drop s.offset) with
    | ok hop => rw [hd] at hs; cases hs
    | error e' =>
      rw [hd] at hs
      exact (readName_reader _ e' hd).symm ▸ (Except.error.inj hs).symm
  rw [followPointers, terminates_loop hbody, Chain.cycles_iff]
  constructor
  · rintro ⟨s, hreach, hlast⟩ hnext
    obtain ⟨q, hq⟩ := hnext s.offset (hops_of_iterates hreach)
    obtain ⟨t, ht, -⟩ := iterates_of_hop hq
    exact hlast t ht
  · intro hnext
    simp only [not_forall, not_exists] at hnext
    obtain ⟨q, hreach, hlast⟩ := hnext
    obtain ⟨s, hs, rfl⟩ := iterates_of_hops hreach
    exact ⟨s, hs, fun t ht => hlast t.offset (hop_of_iterates ht)⟩

theorem followPointers_bytesCount {r s : NameRead} (h : (followPointers msg r).Returns s) :
    s.bytesCount = r.bytesCount := by
  have hreach := (returns_loop.mp h).1
  clear h
  induction hreach with
  | refl => rfl
  | tail _ hst ih =>
    obtain ⟨-, labels, n, -, hs⟩ := iterates_iff.mp hst
    rw [hs]
    exact ih

end Loop

section Name

open Program

variable {msg data : Bytes}

/-- Labels and a chain that ends; the name takes `n` bytes at its own place. -/
def NameSpan (msg data : Bytes) (n : ℕ) : Prop :=
  ∃ labels offset, LabelRun isPointer data labels offset n ∧ Chain.Ends msg offset

/-- The labels lie in `data`, and the chain behind them stays in the message. -/
def NameInside (msg data : Bytes) : Prop :=
  ∃ labels offset n, LabelRun isPointer data labels offset n ∧ ¬ Chain.Leaves msg offset

/-- No labels at the front of `data` end in a pointer into a cycle. -/
def NameAcyclic (msg data : Bytes) : Prop :=
  ∀ labels offset n, LabelRun isPointer data labels offset n → ¬ Chain.Cycles msg offset

theorem readFullName_stable : (readFullName msg data).Stable :=
  (stable_lift _).bind followPointers_stable

theorem readFullName_returns {n : ℕ} :
    (∃ r, (readFullName msg data).Returns r ∧ r.bytesCount = n) ↔ NameSpan msg data n := by
  simp only [readFullName, returns_bind (stable_lift _) followPointers_stable, returns_lift]
  constructor
  · rintro ⟨s, ⟨r, hr, hs⟩, rfl⟩
    obtain ⟨labels, hrun, -⟩ := readName_eq_ok.mp hr
    rw [followPointers_bytesCount hs]
    exact ⟨labels, r.offset, hrun, followPointers_returns.mp ⟨s, hs⟩⟩
  · rintro ⟨labels, offset, hrun, hends⟩
    have hr := readName_of_run hrun
    obtain ⟨s, hs⟩ := (followPointers_returns (r := ⟨n, joinDots labels, offset⟩)).mpr hends
    exact ⟨s, ⟨_, hr, hs⟩, followPointers_bytesCount hs⟩

theorem readFullName_strays : (readFullName msg data).Strays ↔ ¬ NameInside msg data := by
  simp only [readFullName, strays_bind (stable_lift _) followPointers_stable, returns_lift,
    strays_lift, followPointers_strays]
  constructor
  · rintro (hout | ⟨r, hr, hleaves⟩) ⟨labels, offset, n, hrun, hstays⟩
    · exact (readName_eq_error.mp hout).2 ⟨labels, offset, n, hrun⟩
    · obtain ⟨labels', hrun', -⟩ := readName_eq_ok.mp hr
      rw [(hrun'.unique hrun).1] at hleaves
      exact hstays hleaves
  · intro hno
    by_cases hrun : ∃ labels offset n, LabelRun isPointer data labels offset n
    · obtain ⟨labels, offset, n, hrun⟩ := hrun
      refine .inr ⟨_, readName_of_run hrun, ?_⟩
      by_contra hstays
      exact hno ⟨labels, offset, n, hrun, hstays⟩
    · exact .inl (readName_of_no_run hrun)

theorem readFullName_terminates : (readFullName msg data).Terminates ↔ NameAcyclic msg data := by
  rw [readFullName, terminates_bind (stable_lift _) followPointers_stable]
  simp only [returns_lift, followPointers_terminates]
  constructor
  · rintro ⟨-, hall⟩ labels offset n hrun
    exact hall _ (readName_of_run hrun)
  · intro h
    refine ⟨terminates_lift (readName_reader data), fun r hr => ?_⟩
    obtain ⟨labels, hrun, -⟩ := readName_eq_ok.mp hr
    exact h labels r.offset r.bytesCount hrun

end Name

end Dns
end NetworkProtocols
