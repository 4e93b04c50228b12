import NetworkProtocols.Lib.Transition

/-!
# Two parties and the network between them

A party reacts to an input, which is a received message or a failed receive, by a new
state and a list of messages for its peer. `Fifo` delivers every message exactly once
and in order. `Lossy` keeps what was ever sent and may hand over any of it at any time
and any number of times, so messages are lost, duplicated, delayed and reordered.
-/

namespace NetworkProtocols
namespace Channel

variable {A B M : Type*}

/-- `react a i a' out`: on input `i` the party may go to `a'` and send `out`. -/
abbrev Reaction (A M : Type*) := A → Option M → A → List M → Prop

/-- The parties and the messages on their way to each of them. -/
structure Net (A B M : Type*) where
  left : A
  right : B
  toLeft : List M
  toRight : List M
  /-- Messages handed to the right party so far. -/
  handed : ℕ := 0

inductive Fifo (ra : Reaction A M) (rb : Reaction B M) : Net A B M → Net A B M → Prop
  | left {a a' b m p q out n} : ra a (some m) a' out →
      Fifo ra rb ⟨a, b, m :: p, q, n⟩ ⟨a', b, p, q ++ out, n⟩
  | right {a b b' m p q out n} : rb b (some m) b' out →
      Fifo ra rb ⟨a, b, p, m :: q, n⟩ ⟨a, b', p ++ out, q, n+1⟩

/-- `toLeft` and `toRight` only grow here: a message stays deliverable for ever. -/
inductive Lossy (ra : Reaction A M) (rb : Reaction B M) : Net A B M → Net A B M → Prop
  | left {a a' b i p q out n} : (∀ m ∈ i, m ∈ p) → ra a i a' out →
      Lossy ra rb ⟨a, b, p, q, n⟩ ⟨a', b, p, q ++ out, n⟩
  | right {a b b' i p q out n} : (∀ m ∈ i, m ∈ q) → rb b i b' out →
      Lossy ra rb ⟨a, b, p, q, n⟩ ⟨a, b', p ++ out, q, n + i.toList.length⟩

section Fifo

variable {ra : Reaction A M} {rb : Reaction B M}

theorem Fifo.only_left {a : A} {b : B} {m : M} {n : ℕ} {t : Net A B M}
    (h : Fifo ra rb ⟨a, b, [m], [], n⟩ t) :
    ∃ a' out, ra a (some m) a' out ∧ t = ⟨a', b, [], out, n⟩ := by
  generalize hs : (⟨a, b, [m], [], n⟩ : Net A B M) = s at h
  cases h with
  | left hr =>
    simp only [Net.mk.injEq, List.cons.injEq] at hs
    obtain ⟨rfl, rfl, ⟨rfl, rfl⟩, rfl, rfl⟩ := hs
    exact ⟨_, _, hr, by simp⟩
  | right _ => simp at hs

theorem Fifo.only_right {a : A} {b : B} {m : M} {n : ℕ} {t : Net A B M}
    (h : Fifo ra rb ⟨a, b, [], [m], n⟩ t) :
    ∃ b' out, rb b (some m) b' out ∧ t = ⟨a, b', out, [], n+1⟩ := by
  generalize hs : (⟨a, b, [], [m], n⟩ : Net A B M) = s at h
  cases h with
  | right hr =>
    simp only [Net.mk.injEq, List.cons.injEq] at hs
    obtain ⟨rfl, rfl, rfl, ⟨rfl, rfl⟩, rfl⟩ := hs
    exact ⟨_, _, hr, by simp⟩
  | left _ => simp at hs

theorem Fifo.idle {a : A} {b : B} {n : ℕ} {t : Net A B M} :
    ¬ Fifo ra rb ⟨a, b, [], [], n⟩ t := by
  intro h
  generalize hs : (⟨a, b, [], [], n⟩ : Net A B M) = s at h
  cases h <;> simp at hs

end Fifo

/-- An invariant of a lossy network is one that every reaction to a message already
sent, or to a failed receive, preserves. -/
theorem Lossy.invariant {ra : Reaction A M} {rb : Reaction B M} (Inv : Net A B M → Prop)
    (hleft : ∀ s i a' out, Inv s → (∀ m ∈ i, m ∈ s.toLeft) → ra s.left i a' out →
      Inv { s with left := a', toRight := s.toRight ++ out })
    (hright : ∀ s i b' out, Inv s → (∀ m ∈ i, m ∈ s.toRight) → rb s.right i b' out →
      Inv { s with right := b', toLeft := s.toLeft ++ out, handed := s.handed + i.toList.length })
    {s t : Net A B M} (hs : Inv s) (h : Relation.ReflTransGen (Lossy ra rb) s t) : Inv t := by
  refine Transition.invariant ?_ hs h
  intro s t hi hst
  cases hst with
  | left hm hr => exact hleft _ _ _ _ hi hm hr
  | right hm hr => exact hright _ _ _ _ hi hm hr

/-- A message is handed over at most once. It may be late, out of order or lost, and a
receive may fail. -/
inductive Once (ra : Reaction A M) (rb : Reaction B M) : Net A B M → Net A B M → Prop
  | left {a a' b m p p' q out n} : ra a (some m) a' out →
      Once ra rb ⟨a, b, p ++ m :: p', q, n⟩ ⟨a', b, p ++ p', q ++ out, n⟩
  | right {a b b' m p q q' out n} : rb b (some m) b' out →
      Once ra rb ⟨a, b, p, q ++ m :: q', n⟩ ⟨a, b', p ++ out, q ++ q', n+1⟩
  | leftFails {a a' b p q out n} : ra a none a' out →
      Once ra rb ⟨a, b, p, q, n⟩ ⟨a', b, p, q ++ out, n⟩
  | rightFails {a b b' p q out n} : rb b none b' out →
      Once ra rb ⟨a, b, p, q, n⟩ ⟨a, b', p ++ out, q, n⟩
  | loseLeft {a b m p p' q n} : Once ra rb ⟨a, b, p ++ m :: p', q, n⟩ ⟨a, b, p ++ p', q, n⟩
  | loseRight {a b m p q q' n} : Once ra rb ⟨a, b, p, q ++ m :: q', n⟩ ⟨a, b, p, q ++ q', n⟩

theorem Once.left_only {ra : Reaction A M} {rb : Reaction B M} {a a' : A} {b : B} {m : M}
    {q out : List M} {n : ℕ} (h : ra a (some m) a' out) :
    Once ra rb ⟨a, b, [m], q, n⟩ ⟨a', b, [], q ++ out, n⟩ :=
  @Once.left A B M ra rb a a' b m [] [] q out n h

theorem Once.right_only {ra : Reaction A M} {rb : Reaction B M} {a : A} {b b' : B} {m : M}
    {p out : List M} {n : ℕ} (h : rb b (some m) b' out) :
    Once ra rb ⟨a, b, p, [m], n⟩ ⟨a, b', p ++ out, [], n+1⟩ :=
  @Once.right A B M ra rb a b b' m p [] [] out n h

/-- Between the steps of the two parties the right one also changes on behalf of others. The
label tells whether a step is one of the two parties. -/
inductive Among (own : Net A B M → Net A B M → Prop) (others : B → B → Prop) :
    Net A B M → Bool → Net A B M → Prop
  | own {s t} : own s t → Among own others s true t
  | others {s b} : others s.right b → Among own others s false { s with right := b }

/-- At most one message is in flight, and the parties are as `ToLeft` or `ToRight` says of it, or
the exchange is over. -/
inductive Lockstep (ToLeft ToRight : A → B → M → Prop) (Quiet Over : A → B → Prop) :
    Net A B M → Prop
  | toLeft {a b m n} : ToLeft a b m → Lockstep ToLeft ToRight Quiet Over ⟨a, b, [m], [], n⟩
  | toRight {a b m n} : ToRight a b m → Lockstep ToLeft ToRight Quiet Over ⟨a, b, [], [m], n⟩
  | quiet {a b n} : Quiet a b → Lockstep ToLeft ToRight Quiet Over ⟨a, b, [], [], n⟩
  | ended {a b p q n} : Over a b → Lockstep ToLeft ToRight Quiet Over ⟨a, b, p, q, n⟩

/-- What the reactions must do for an exchange in lock step. -/
structure LockstepRules (ra : Reaction A M) (rb : Reaction B M) (others : B → B → Prop)
    (ToLeft ToRight : A → B → M → Prop) (Quiet Over : A → B → Prop) : Prop where
  left : ∀ {a b m a' out}, ToLeft a b m → ra a (some m) a' out →
    Over a' b ∨ out = [] ∧ Quiet a' b ∨ ∃ m', out = [m'] ∧ ToRight a' b m'
  right : ∀ {a b m b' out}, ToRight a b m → rb b (some m) b' out →
    out = [] ∧ Quiet a b' ∨ ∃ m', out = [m'] ∧ ToLeft a b' m'
  lostLeft : ∀ {a b m}, ToLeft a b m → Quiet a b
  lostRight : ∀ {a b m}, ToRight a b m → Quiet a b
  leftFails : ∀ {a b a' out}, Quiet a b → ra a none a' out → Over a' b
  rightFails : ∀ {b b' out}, rb b none b' out → b' = b ∧ out = []
  overLeft : ∀ {a b i a' out}, Over a b → ra a i a' out → Over a' b
  overRight : ∀ {a b i b' out}, Over a b → rb b i b' out → Over a b'
  others : ∀ {a b b'}, others b b' → (∀ m, ToLeft a b m → ToLeft a b' m) ∧
    (∀ m, ToRight a b m → ToRight a b' m) ∧ (Quiet a b → Quiet a b') ∧ (Over a b → Over a b')

section Lockstep

variable {ra : Reaction A M} {rb : Reaction B M} {serve : B → B → Prop}
variable {ToLeft ToRight : A → B → M → Prop} {Quiet Over : A → B → Prop} {s t : Net A B M}

theorem Lockstep.others (h : LockstepRules ra rb serve ToLeft ToRight Quiet Over) {b : B}
    (hs : Lockstep ToLeft ToRight Quiet Over s) (hb : serve s.right b) :
    Lockstep ToLeft ToRight Quiet Over { s with right := b } := by
  cases hs with
  | toLeft hm => exact .toLeft ((h.others hb).1 _ hm)
  | toRight hm => exact .toRight ((h.others hb).2.1 _ hm)
  | quiet hq => exact .quiet ((h.others hb).2.2.1 hq)
  | ended ho => exact .ended ((h.others hb).2.2.2 ho)

theorem Lockstep.cases {a : A} {b : B} {p q : List M} {n : ℕ}
    (hs : Lockstep ToLeft ToRight Quiet Over ⟨a, b, p, q, n⟩) :
    Over a b ∨ (∃ m, p = [m] ∧ q = [] ∧ ToLeft a b m) ∨
      (∃ m, p = [] ∧ q = [m] ∧ ToRight a b m) ∨ p = [] ∧ q = [] ∧ Quiet a b := by
  cases hs with
  | toLeft hm => exact .inr (.inl ⟨_, rfl, rfl, hm⟩)
  | toRight hm => exact .inr (.inr (.inl ⟨_, rfl, rfl, hm⟩))
  | quiet hq => exact .inr (.inr (.inr ⟨rfl, rfl, hq⟩))
  | ended ho => exact .inl ho

theorem append_cons_eq_singleton {p p' : List M} {m m' : M} (h : p ++ m :: p' = [m']) :
    p = [] ∧ p' = [] ∧ m = m' := by
  cases p with
  | nil =>
    obtain ⟨rfl, rfl⟩ := List.cons.inj h
    exact ⟨rfl, rfl, rfl⟩
  | cons x p => simp at h

theorem Lockstep.only_left {a : A} {b : B} {m : M} {p p' q : List M} {n : ℕ}
    (hs : Lockstep ToLeft ToRight Quiet Over ⟨a, b, p ++ m :: p', q, n⟩) :
    Over a b ∨ p = [] ∧ p' = [] ∧ q = [] ∧ ToLeft a b m := by
  rcases hs.cases with ho | ⟨m', hp, hq, hm⟩ | ⟨_, hp, -⟩ | ⟨hp, -⟩
  · exact .inl ho
  · obtain ⟨rfl, rfl, rfl⟩ := append_cons_eq_singleton hp
    exact .inr ⟨rfl, rfl, hq, hm⟩
  · simp at hp
  · simp at hp

theorem Lockstep.only_right {a : A} {b : B} {m : M} {p q q' : List M} {n : ℕ}
    (hs : Lockstep ToLeft ToRight Quiet Over ⟨a, b, p, q ++ m :: q', n⟩) :
    Over a b ∨ q = [] ∧ q' = [] ∧ p = [] ∧ ToRight a b m := by
  rcases hs.cases with ho | ⟨_, -, hq, -⟩ | ⟨m', hp, hq, hm⟩ | ⟨-, hq, -⟩
  · exact .inl ho
  · simp at hq
  · obtain ⟨rfl, rfl, rfl⟩ := append_cons_eq_singleton hq
    exact .inr ⟨rfl, rfl, hp, hm⟩
  · simp at hq

theorem Lockstep.quiet_or_over (h : LockstepRules ra rb serve ToLeft ToRight Quiet Over)
    (hs : Lockstep ToLeft ToRight Quiet Over s) : Over s.left s.right ∨ Quiet s.left s.right := by
  cases hs with
  | toLeft hm => exact .inr (h.lostLeft hm)
  | toRight hm => exact .inr (h.lostRight hm)
  | quiet hq => exact .inr hq
  | ended ho => exact .inl ho

theorem Lockstep.step (h : LockstepRules ra rb serve ToLeft ToRight Quiet Over)
    (hs : Lockstep ToLeft ToRight Quiet Over s) (hst : Once ra rb s t) :
    Lockstep ToLeft ToRight Quiet Over t := by
  cases hst with
  | left hr =>
    rcases hs.only_left with ho | ⟨rfl, rfl, rfl, hm⟩
    · exact .ended (h.overLeft ho hr)
    rcases h.left hm hr with ho | ⟨rfl, hq⟩ | ⟨m', rfl, hm'⟩
    · exact .ended ho
    · exact .quiet hq
    · exact .toRight hm'
  | right hr =>
    rcases hs.only_right with ho | ⟨rfl, rfl, rfl, hm⟩
    · exact .ended (h.overRight ho hr)
    rcases h.right hm hr with ⟨rfl, hq⟩ | ⟨m', rfl, hm'⟩
    · exact .quiet hq
    · exact .toLeft hm'
  | leftFails hr =>
    rcases hs.quiet_or_over h with ho | hq
    · exact .ended (h.overLeft ho hr)
    · exact .ended (h.leftFails hq hr)
  | rightFails hr =>
    obtain ⟨rfl, rfl⟩ := h.rightFails hr
    rwa [List.append_nil]
  | loseLeft =>
    rcases hs.only_left with ho | ⟨rfl, rfl, rfl, hm⟩
    · exact .ended ho
    · exact .quiet (h.lostLeft hm)
  | loseRight =>
    rcases hs.only_right with ho | ⟨rfl, rfl, rfl, hm⟩
    · exact .ended ho
    · exact .quiet (h.lostRight hm)

theorem Lockstep.invariant (h : LockstepRules ra rb serve ToLeft ToRight Quiet Over)
    (hs : Lockstep ToLeft ToRight Quiet Over s)
    (hrun : Relation.ReflTransGen (fun s t => ∃ mine, Among (Once ra rb) serve s mine t) s t) :
    Lockstep ToLeft ToRight Quiet Over t := by
  refine Transition.invariant ?_ hs hrun
  rintro s t hi ⟨mine, hst⟩
  cases hst with
  | own hst => exact hi.step h hst
  | others hb => exact hi.others h hb

end Lockstep

/-- The steps of the two parties are counted down by a stage that the service of others leaves as
it is. -/
theorem Among.countdown {own : Net A B M → Net A B M → Prop} {serve : B → B → Prop}
    (Stage : ℕ → Net A B M → Prop)
    (hown : ∀ n s t, Stage (n+1) s → own s t → Stage n t)
    (hlast : ∀ s t, Stage 0 s → ¬ own s t)
    (hothers : ∀ n s b, Stage n s → serve s.right b → Stage n { s with right := b })
    {n k : ℕ} {s t : Net A B M} (hs : Stage n s)
    (h : Transition.Counted (Among own serve) s k t) : k ≤ n ∧ Stage (n - k) t := by
  induction h with
  | refl => exact ⟨Nat.zero_le n, hs⟩
  | @tail k t mine u _ hst ih =>
    obtain ⟨hle, hstage⟩ := ih
    cases hst with
    | own hst =>
      obtain ⟨m, hm⟩ : ∃ m, n - k = m + 1 := by
        refine Nat.exists_eq_add_one_of_ne_zero fun hzero => ?_
        rw [hzero] at hstage
        exact hlast _ _ hstage hst
      rw [hm] at hstage
      have hnext := hown _ _ _ hstage hst
      obtain rfl : m = n - (k + 1) := by omega
      have hcount : k + 1 ≤ n := by omega
      exact ⟨hcount, hnext⟩
    | others hb => exact ⟨hle, hothers _ _ _ hstage hb⟩

end Channel
end NetworkProtocols
