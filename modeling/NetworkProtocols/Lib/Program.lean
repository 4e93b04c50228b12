import Mathlib.Logic.Relation
import Mathlib.Tactic.Common

/-!
# Programs that read a buffer and may loop

A program is executed with a bound on the iterations of each of its loops. It returns a
value, stops at a read outside its buffer or at an assignment to an element that does not
exist, or uses up the bound. Raising the bound changes no outcome but the last one, so a
program that never ends is one that uses up every bound.
-/

namespace NetworkProtocols

/-- Why an execution has no value. -/
inductive Halt
  | outside
  | noElement
  | unfinished
  deriving DecidableEq

/-- A computation that only reads: without a value it came to a read outside. -/
def Reader {α : Type} (x : Except Halt α) : Prop := ∀ e, x = .error e → e = .outside

theorem Reader.pure {α : Type} (a : α) : Reader (Pure.pure a : Except Halt α) := by
  intro e h
  cases h

theorem Reader.bind {α β : Type} {x : Except Halt α} {f : α → Except Halt β} (hx : Reader x)
    (hf : ∀ a, Reader (f a)) : Reader (x >>= f) := by
  cases x with
  | ok a => exact hf a
  | error e => exact fun e' h => hx e' (congrArg Except.error (Except.error.inj h))

theorem Reader.ok_or_outside {α : Type} {x : Except Halt α} (h : Reader x) :
    (∃ a, x = .ok a) ∨ x = .error .outside := by
  cases x with
  | ok a => exact .inl ⟨a, rfl⟩
  | error e => exact .inr (by rw [h e rfl])

theorem Reader.outside_iff {α : Type} {x : Except Halt α} (h : Reader x) :
    x = .error .outside ↔ ¬ ∃ a, x = .ok a := by
  rcases h.ok_or_outside with ⟨a, ha⟩ | hout
  · simp [ha]
  · simp [hout]

theorem bind_eq_ok {α β : Type} {x : Except Halt α} {f : α → Except Halt β} {b : β} :
    x >>= f = .ok b ↔ ∃ a, x = .ok a ∧ f a = .ok b := by
  cases x with
  | ok a =>
    constructor
    · exact fun h => ⟨a, rfl, h⟩
    · rintro ⟨c, hc, h⟩
      rwa [← Except.ok.inj hc] at h
  | error e =>
    constructor
    · intro h
      cases h
    · rintro ⟨c, hc, -⟩
      cases hc

abbrev Program (α : Type) := ReaderT ℕ (Except Halt) α

namespace Program

variable {α β : Type}

def Returns (p : Program α) (a : α) : Prop := ∃ bound, p bound = .ok a

/-- The program comes to a read outside its buffer. -/
def Strays (p : Program α) : Prop := ∃ bound, p bound = .error .outside

/-- The program comes to an assignment to an element that does not exist. -/
def Misassigns (p : Program α) : Prop := ∃ bound, p bound = .error .noElement

/-- The program returns, or a read outside its buffer stops it. -/
def Terminates (p : Program α) : Prop := (∃ a, p.Returns a) ∨ p.Strays

/-- An outcome reached within a bound is the outcome for every larger bound. -/
def Stable (p : Program α) : Prop :=
  ∀ m n, m ≤ n → p m ≠ .error .unfinished → p n = p m

section Stable

variable {p : Program α} {f : α → Program β}

theorem Stable.agree (hp : p.Stable) {m n : ℕ} (hm : p m ≠ .error .unfinished)
    (hn : p n ≠ .error .unfinished) : p m = p n := by
  rcases Nat.le_total m n with h | h
  · exact (hp m n h hm).symm
  · exact hp n m h hn

theorem Stable.returns_unique (hp : p.Stable) {a b : α} (ha : p.Returns a) (hb : p.Returns b) :
    a = b := by
  obtain ⟨m, hm⟩ := ha
  obtain ⟨n, hn⟩ := hb
  have h := hp.agree (m := m) (n := n) (by simp [hm]) (by simp [hn])
  rw [hm, hn] at h
  exact Except.ok.inj h

theorem Stable.not_strays (hp : p.Stable) {a : α} (ha : p.Returns a) : ¬ p.Strays := by
  rintro ⟨n, hn⟩
  obtain ⟨m, hm⟩ := ha
  have h := hp.agree (m := m) (n := n) (by simp [hm]) (by simp [hn])
  rw [hm, hn] at h
  cases h

theorem Stable.not_misassigns (hp : p.Stable) {a : α} (ha : p.Returns a) : ¬ p.Misassigns := by
  rintro ⟨n, hn⟩
  obtain ⟨m, hm⟩ := ha
  have h := hp.agree (m := m) (n := n) (by simp [hm]) (by simp [hn])
  rw [hm, hn] at h
  cases h

theorem Stable.eventually (hp : p.Stable) {a : α} (ha : p.Returns a) :
    ∃ n, ∀ m, n ≤ m → p m = .ok a := by
  obtain ⟨n, hn⟩ := ha
  exact ⟨n, fun m hm => (hp n m hm (by simp [hn])).trans hn⟩

theorem Stable.eventually_misassigns (hp : p.Stable) (h : p.Misassigns) :
    ∃ n, ∀ m, n ≤ m → p m = .error .noElement := by
  obtain ⟨n, hn⟩ := h
  exact ⟨n, fun m hm => (hp n m hm (by simp [hn])).trans hn⟩

theorem stable_pure (a : α) : (pure a : Program α).Stable := fun _ _ _ _ => rfl

theorem stable_lift (x : Except Halt α) : (liftM x : Program α).Stable := fun _ _ _ _ => rfl

theorem Stable.bind (hp : p.Stable) (hf : ∀ a, (f a).Stable) : (p >>= f).Stable := by
  intro m n hmn hm
  have hrun : ∀ k, (p >>= f) k = (p k).bind fun a => f a k := fun _ => rfl
  rw [hrun] at hm ⊢
  cases h : p m with
  | error e =>
    rw [h] at hm
    have he : p m ≠ .error .unfinished := by
      rw [h]
      intro hu
      rw [Except.error.inj hu] at hm
      exact hm rfl
    rw [hp m n hmn he, hrun, h]
    rfl
  | ok a =>
    rw [h] at hm
    rw [hp m n hmn (by rw [h]; simp), hrun, h]
    exact hf a m n hmn hm

theorem Stable.map (hp : p.Stable) (g : α → β) : (g <$> p).Stable :=
  hp.bind fun a => stable_pure (g a)

end Stable

section Bind

variable {p : Program α} {f : α → Program β}

theorem bind_apply (n : ℕ) : (p >>= f) n = (p n).bind fun a => f a n := rfl

@[simp] theorem returns_pure {a b : α} : (pure a : Program α).Returns b ↔ a = b := by
  constructor
  · rintro ⟨n, h⟩
    exact Except.ok.inj h
  · rintro rfl
    exact ⟨0, rfl⟩

theorem terminates_pure (a : α) : (pure a : Program α).Terminates := .inl ⟨a, 0, rfl⟩

theorem terminates_lift {x : Except Halt α} (h : Reader x) :
    (liftM x : Program α).Terminates := by
  rcases h.ok_or_outside with ⟨a, ha⟩ | hout
  · exact .inl ⟨a, 0, ha⟩
  · exact .inr ⟨0, hout⟩

@[simp] theorem strays_pure {a : α} : ¬ (pure a : Program α).Strays := by
  rintro ⟨n, h⟩
  cases h

@[simp] theorem returns_lift {x : Except Halt α} {a : α} :
    (liftM x : Program α).Returns a ↔ x = .ok a :=
  ⟨fun ⟨_, h⟩ => h, fun h => ⟨0, h⟩⟩

@[simp] theorem strays_lift {x : Except Halt α} :
    (liftM x : Program α).Strays ↔ x = .error .outside :=
  ⟨fun ⟨_, h⟩ => h, fun h => ⟨0, h⟩⟩

theorem returns_bind (hp : p.Stable) (hf : ∀ a, (f a).Stable) {b : β} :
    (p >>= f).Returns b ↔ ∃ a, p.Returns a ∧ (f a).Returns b := by
  constructor
  · rintro ⟨n, h⟩
    rw [bind_apply] at h
    cases ha : p n with
    | error e => rw [ha] at h; cases h
    | ok a =>
      rw [ha] at h
      exact ⟨a, ⟨n, ha⟩, n, h⟩
  · rintro ⟨a, ⟨m, hm⟩, n, hn⟩
    refine ⟨max m n, ?_⟩
    rw [bind_apply, hp m _ (Nat.le_max_left m n) (by simp [hm]), hm]
    exact (hf a n _ (Nat.le_max_right m n) (by simp [hn])).trans hn

theorem strays_bind (hp : p.Stable) (hf : ∀ a, (f a).Stable) :
    (p >>= f).Strays ↔ p.Strays ∨ ∃ a, p.Returns a ∧ (f a).Strays := by
  constructor
  · rintro ⟨n, h⟩
    rw [bind_apply] at h
    cases ha : p n with
    | error e =>
      rw [ha] at h
      have he : e = .outside := Except.error.inj h
      exact .inl ⟨n, by rw [ha, he]⟩
    | ok a =>
      rw [ha] at h
      exact .inr ⟨a, ⟨n, ha⟩, n, h⟩
  · rintro (⟨n, hn⟩ | ⟨a, ⟨m, hm⟩, n, hn⟩)
    · exact ⟨n, by rw [bind_apply, hn]; rfl⟩
    · refine ⟨max m n, ?_⟩
      rw [bind_apply, hp m _ (Nat.le_max_left m n) (by simp [hm]), hm]
      exact (hf a n _ (Nat.le_max_right m n) (by simp [hn])).trans hn

theorem misassigns_bind_of_returns (hp : p.Stable) (hf : ∀ a, (f a).Stable) {a : α}
    (ha : p.Returns a) (h : (f a).Misassigns) : (p >>= f).Misassigns := by
  obtain ⟨m, hm⟩ := ha
  obtain ⟨n, hn⟩ := h
  refine ⟨max m n, ?_⟩
  rw [bind_apply, hp m _ (Nat.le_max_left m n) (by simp [hm]), hm]
  exact (hf a n _ (Nat.le_max_right m n) (by simp [hn])).trans hn

theorem misassigns_bind (h : p.Misassigns) : (p >>= f).Misassigns := by
  obtain ⟨n, hn⟩ := h
  exact ⟨n, by rw [bind_apply, hn]; rfl⟩

theorem terminates_bind (hp : p.Stable) (hf : ∀ a, (f a).Stable) :
    (p >>= f).Terminates ↔ p.Terminates ∧ ∀ a, p.Returns a → (f a).Terminates := by
  constructor
  · rintro (⟨b, hb⟩ | hs)
    · obtain ⟨a, ha, hfa⟩ := (returns_bind hp hf).mp hb
      refine ⟨.inl ⟨a, ha⟩, fun a' ha' => ?_⟩
      rw [← hp.returns_unique ha ha']
      exact .inl ⟨b, hfa⟩
    · rcases (strays_bind hp hf).mp hs with hs | ⟨a, ha, hfa⟩
      · exact ⟨.inr hs, fun a ha => absurd hs (hp.not_strays ha)⟩
      · refine ⟨.inl ⟨a, ha⟩, fun a' ha' => ?_⟩
        rw [← hp.returns_unique ha ha']
        exact .inr hfa
  · rintro ⟨⟨a, ha⟩ | hs, hall⟩
    · rcases hall a ha with ⟨b, hb⟩ | hs
      · exact .inl ⟨b, (returns_bind hp hf).mpr ⟨a, ha, hb⟩⟩
      · exact .inr ((strays_bind hp hf).mpr (.inr ⟨a, ha, hs⟩))
    · exact .inr ((strays_bind hp hf).mpr (.inl hs))

theorem returns_map (hp : p.Stable) (g : α → β) {b : β} :
    (g <$> p).Returns b ↔ ∃ a, p.Returns a ∧ g a = b := by
  rw [map_eq_pure_bind, returns_bind hp fun a => stable_pure (g a)]
  simp only [returns_pure]

theorem strays_map (hp : p.Stable) (g : α → β) : (g <$> p).Strays ↔ p.Strays := by
  rw [map_eq_pure_bind, strays_bind hp fun a => stable_pure (g a)]
  simp

theorem terminates_map (hp : p.Stable) (g : α → β) : (g <$> p).Terminates ↔ p.Terminates := by
  unfold Terminates
  rw [strays_map hp]
  simp only [returns_map hp]
  constructor
  · rintro (⟨_, a, ha, -⟩ | hs)
    · exact .inl ⟨a, ha⟩
    · exact .inr hs
  · rintro (⟨a, ha⟩ | hs)
    · exact .inl ⟨g a, a, ha, rfl⟩
    · exact .inr hs

end Bind

section Loop

variable {S : Type} (cond : S → Bool) (body : S → Except Halt S)

def loop (s : S) : Program S
  | 0 => if cond s then .error .unfinished else .ok s
  | n+1 => if cond s then (body s).bind fun t => loop t n else .ok s

def Iterates (s t : S) : Prop := cond s = true ∧ body s = .ok t

variable {cond body}

theorem loop_done {s : S} (h : cond s = false) (n : ℕ) : loop cond body s n = .ok s := by
  cases n <;> simp [loop, h]

theorem loop_step {s t : S} (h : Iterates cond body s t) (n : ℕ) :
    loop cond body s (n+1) = loop cond body t n := by
  simp [loop, h.1, h.2, Except.bind]

theorem loop_stable (s : S) : (loop cond body s).Stable := by
  intro m
  induction m generalizing s with
  | zero =>
    intro n _ hm
    cases hc : cond s with
    | true => simp [loop, hc] at hm
    | false => rw [loop_done hc, loop_done hc]
  | succ m ih =>
    intro n hmn hm
    obtain ⟨k, rfl⟩ : ∃ k, n = k + 1 := ⟨n - 1, by omega⟩
    cases hc : cond s with
    | false => rw [loop_done hc, loop_done hc]
    | true =>
      cases hb : body s with
      | error e => simp [loop, hc, hb, Except.bind]
      | ok t =>
        rw [loop_step ⟨hc, hb⟩] at hm ⊢
        rw [loop_step ⟨hc, hb⟩]
        exact ih t k (by omega) hm

theorem returns_loop {s t : S} :
    (loop cond body s).Returns t ↔
      Relation.ReflTransGen (Iterates cond body) s t ∧ cond t = false := by
  constructor
  · rintro ⟨n, h⟩
    induction n generalizing s with
    | zero =>
      cases hc : cond s with
      | true => simp [loop, hc] at h
      | false =>
        rw [loop_done hc] at h
        obtain rfl := Except.ok.inj h
        exact ⟨.refl, hc⟩
    | succ n ih =>
      cases hc : cond s with
      | false =>
        rw [loop_done hc] at h
        obtain rfl := Except.ok.inj h
        exact ⟨.refl, hc⟩
      | true =>
        cases hb : body s with
        | error e => simp [loop, hc, hb, Except.bind] at h
        | ok u =>
          rw [loop_step ⟨hc, hb⟩] at h
          exact ⟨.head ⟨hc, hb⟩ (ih h).1, (ih h).2⟩
  · rintro ⟨h, hc⟩
    induction h using Relation.ReflTransGen.head_induction_on with
    | refl => exact ⟨0, loop_done hc 0⟩
    | head hst _ ih =>
      obtain ⟨n, hn⟩ := ih
      exact ⟨n+1, (loop_step hst n).trans hn⟩

theorem strays_loop {s : S} :
    (loop cond body s).Strays ↔
      ∃ t, Relation.ReflTransGen (Iterates cond body) s t ∧
        cond t = true ∧ body t = .error .outside := by
  constructor
  · rintro ⟨n, h⟩
    induction n generalizing s with
    | zero => cases hc : cond s <;> simp [loop, hc] at h
    | succ n ih =>
      cases hc : cond s with
      | false => simp [loop, hc] at h
      | true =>
        cases hb : body s with
        | error e =>
          simp only [loop, hc, hb, Except.bind, if_true, Except.error.injEq] at h
          exact ⟨s, .refl, hc, by rw [hb, h]⟩
        | ok u =>
          rw [loop_step ⟨hc, hb⟩] at h
          obtain ⟨t, ht, hct⟩ := ih h
          exact ⟨t, .head ⟨hc, hb⟩ ht, hct⟩
  · rintro ⟨t, h, hc, hb⟩
    induction h using Relation.ReflTransGen.head_induction_on with
    | refl => exact ⟨1, by simp [loop, hc, hb, Except.bind]⟩
    | head hst _ ih =>
      obtain ⟨n, hn⟩ := ih
      exact ⟨n+1, (loop_step hst n).trans hn⟩

theorem terminates_loop (hbody : ∀ s, Reader (body s)) {s : S} :
    (loop cond body s).Terminates ↔
      ∃ t, Relation.ReflTransGen (Iterates cond body) s t ∧ ∀ u, ¬ Iterates cond body t u := by
  constructor
  · rintro (⟨t, ht⟩ | hs)
    · obtain ⟨hreach, hc⟩ := returns_loop.mp ht
      exact ⟨t, hreach, fun u hu => by simp [hu.1] at hc⟩
    · obtain ⟨t, hreach, -, hb⟩ := strays_loop.mp hs
      exact ⟨t, hreach, fun u hu => by simp [hu.2] at hb⟩
  · rintro ⟨t, hreach, hlast⟩
    cases hc : cond t with
    | false => exact .inl ⟨t, returns_loop.mpr ⟨hreach, hc⟩⟩
    | true =>
      rcases (hbody t).ok_or_outside with ⟨u, hb⟩ | hb
      · exact absurd ⟨hc, hb⟩ (hlast u)
      · exact .inr (strays_loop.mpr ⟨t, hreach, hc, hb⟩)

end Loop

section Fold

open Relation

variable {S E : Type} (R : E → S → S → Prop)

inductive Advances : List E × S → List E × S → Prop
  | step {e es s t} : R e s t → Advances (e :: es, s) (es, t)

variable {R} {step : S → E → Program S}

theorem advances_cons {e : E} {es : List E} {s : S} {c : List E × S}
    (h : ReflTransGen (Advances R) (e :: es, s) c) :
    c = (e :: es, s) ∨ ∃ t, R e s t ∧ ReflTransGen (Advances R) (es, t) c := by
  rcases ReflTransGen.cases_head h with rfl | ⟨d, hd, htail⟩
  · exact .inl rfl
  · cases hd with
    | step hr => exact .inr ⟨_, hr, htail⟩

theorem foldlM_stable (hstable : ∀ s e, (step s e).Stable) (es : List E) (s : S) :
    (es.foldlM step s).Stable := by
  induction es generalizing s with
  | nil => exact stable_pure s
  | cons e es ih =>
    rw [List.foldlM_cons]
    exact (hstable s e).bind ih

/-- The whole program strays when one of its parts does at a state it comes to. -/
theorem strays_foldlM (hstable : ∀ s e, (step s e).Stable)
    (hR : ∀ s e t, (step s e).Returns t ↔ R e s t) {es : List E} {s : S} :
    (es.foldlM step s).Strays ↔
      ∃ e rest t, ReflTransGen (Advances R) (es, s) (e :: rest, t) ∧ (step t e).Strays := by
  induction es generalizing s with
  | nil =>
    simp only [List.foldlM_nil, strays_pure, false_iff]
    rintro ⟨e, rest, t, h, -⟩
    rcases ReflTransGen.cases_head h with he | ⟨_, hd, -⟩
    · simp at he
    · cases hd
  | cons e es ih =>
    rw [List.foldlM_cons, strays_bind (hstable s e) (foldlM_stable hstable es)]
    constructor
    · rintro (hs | ⟨t, ht, hs⟩)
      · exact ⟨e, es, s, .refl, hs⟩
      · obtain ⟨e', rest, u, hreach, hs⟩ := ih.mp hs
        exact ⟨e', rest, u, .head (.step ((hR s e t).mp ht)) hreach, hs⟩
    · rintro ⟨e', rest, u, hreach, hs⟩
      rcases advances_cons hreach with heq | ⟨t, ht, htail⟩
      · simp only [Prod.mk.injEq, List.cons.injEq] at heq
        obtain ⟨⟨rfl, rfl⟩, rfl⟩ := heq
        exact .inl hs
      · exact .inr ⟨t, (hR s e t).mpr ht, ih.mpr ⟨e', rest, u, htail, hs⟩⟩

theorem terminates_foldlM (hstable : ∀ s e, (step s e).Stable)
    (hR : ∀ s e t, (step s e).Returns t ↔ R e s t) {es : List E} {s : S} :
    (es.foldlM step s).Terminates ↔
      ∀ e rest t, ReflTransGen (Advances R) (es, s) (e :: rest, t) → (step t e).Terminates := by
  induction es generalizing s with
  | nil =>
    constructor
    · intro _ e rest t h
      rcases ReflTransGen.cases_head h with he | ⟨_, hd, -⟩
      · simp at he
      · cases hd
    · exact fun _ => terminates_pure _
  | cons e es ih =>
    rw [List.foldlM_cons, terminates_bind (hstable s e) (foldlM_stable hstable es)]
    constructor
    · rintro ⟨hs, hall⟩ e' rest u hreach
      rcases advances_cons hreach with heq | ⟨t, ht, htail⟩
      · simp only [Prod.mk.injEq, List.cons.injEq] at heq
        obtain ⟨⟨rfl, rfl⟩, rfl⟩ := heq
        exact hs
      · exact ih.mp (hall t ((hR s e t).mpr ht)) e' rest u htail
    · intro hall
      refine ⟨hall e es s .refl, fun t ht => ih.mpr fun e' rest u hreach => ?_⟩
      exact hall e' rest u (.head (.step ((hR s e t).mp ht)) hreach)

end Fold

section Extends

variable {p q : Program α} {f g : α → Program β}

/-- Whatever `p` returns within a bound, `q` returns within it. -/
def Extends (p q : Program α) : Prop := ∀ bound a, p bound = .ok a → q bound = .ok a

theorem Extends.returns (h : Extends p q) {a : α} (ha : p.Returns a) : q.Returns a := by
  obtain ⟨bound, hb⟩ := ha
  exact ⟨bound, h bound a hb⟩

theorem Extends.refl (p : Program α) : Extends p p := fun _ _ h => h

theorem extends_lift {x y : Except Halt α} (h : ∀ a, x = .ok a → y = .ok a) :
    Extends (liftM x) (liftM y) := fun _ a hx => h a hx

theorem Extends.bind (hp : Extends p q) (hf : ∀ a, Extends (f a) (g a)) :
    Extends (p >>= f) (q >>= g) := by
  intro bound b h
  obtain ⟨a, ha, hb⟩ := bind_eq_ok.mp h
  exact bind_eq_ok.mpr ⟨a, hp bound a ha, hf a bound b hb⟩

theorem extends_loop {S : Type} {cond : S → Bool} {body body' : S → Except Halt S}
    (h : ∀ s t, body s = .ok t → body' s = .ok t) (s : S) :
    Extends (loop cond body s) (loop cond body' s) := by
  intro bound
  induction bound generalizing s with
  | zero => exact fun _ ht => ht
  | succ bound ih =>
    intro t ht
    cases hc : cond s with
    | false => rwa [loop_done hc] at ht ⊢
    | true =>
      cases hb : body s with
      | error e => simp [loop, hc, hb, Except.bind] at ht
      | ok u =>
        rw [loop_step ⟨hc, hb⟩] at ht
        rw [loop_step ⟨hc, h s u hb⟩]
        exact ih u t ht

end Extends

end Program
end NetworkProtocols
