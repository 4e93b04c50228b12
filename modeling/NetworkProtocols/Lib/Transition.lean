import Mathlib.Logic.Relation
import Mathlib.Data.List.Basic
import Mathlib.Data.Fintype.Pigeonhole
import Mathlib.Data.Set.Finite.Basic
import Mathlib.Tactic.Common

/-!
# Runs of a transition system

A system is a step relation. `Ends` says that every run is finite and stops in a good
state; `Relation.ReflTransGen` is reachability. `run` feeds a list of events to a step
function that may fail and collects what each step emits.
-/

namespace NetworkProtocols
namespace Transition

section Relational

variable {S : Type*} {step : S → S → Prop}

/-- Every run from the state is finite, and its last state satisfies `Post`. -/
inductive Ends (step : S → S → Prop) (Post : S → Prop) : S → Prop
  | done {s} : (∀ t, ¬ step s t) → Post s → Ends step Post s
  | more {s t} : step s t → (∀ u, step s u → Ends step Post u) → Ends step Post s

theorem Ends.countdown {Post : S → Prop} (Stage : ℕ → S → Prop)
    (hnext : ∀ n s, Stage (n+1) s → ∃ t, step s t)
    (hstep : ∀ n s t, Stage (n+1) s → step s t → Stage n t)
    (hlast : ∀ s, Stage 0 s → (∀ t, ¬ step s t) ∧ Post s) :
    ∀ n s, Stage n s → Ends step Post s := by
  intro n
  induction n with
  | zero =>
    intro s hs
    exact .done (hlast s hs).1 (hlast s hs).2
  | succ n ih =>
    intro s hs
    obtain ⟨t, ht⟩ := hnext n s hs
    exact .more ht fun u hu => ih u (hstep n s u hs hu)

theorem invariant {Inv : S → Prop} (hstep : ∀ s t, Inv s → step s t → Inv t)
    {s t : S} (hs : Inv s) (h : Relation.ReflTransGen step s t) : Inv t := by
  induction h with
  | refl => exact hs
  | tail _ hst ih => exact hstep _ _ ih hst

section Deterministic

open Relation

/-- A run that never stops and stays among finitely many states comes to a cycle. -/
theorem reaches_cycle {s : S} (hfinite : {t | ReflTransGen step s t}.Finite)
    (hnext : ∀ t, ReflTransGen step s t → ∃ u, step t u) :
    ∃ t, ReflTransGen step s t ∧ TransGen step t t := by
  have hsub : ∀ t : {t // ReflTransGen step s t}, ∃ u : {u // ReflTransGen step s u},
      step t.1 u.1 := by
    rintro ⟨t, ht⟩
    obtain ⟨u, hu⟩ := hnext t ht
    exact ⟨⟨u, ht.tail hu⟩, hu⟩
  choose next hstep using hsub
  let orbit : ℕ → {t // ReflTransGen step s t} := fun n => next^[n] ⟨s, .refl⟩
  have horbit : ∀ i n, TransGen step (orbit i).1 (orbit (i+n+1)).1 := by
    intro i n
    induction n with
    | zero =>
      have h := hstep (orbit i)
      simp only [orbit, ← Function.iterate_succ_apply' next i] at h
      exact .single h
    | succ n ih =>
      have h := hstep (orbit (i+n+1))
      simp only [orbit, ← Function.iterate_succ_apply' next (i+n+1)] at h
      exact ih.tail h
  have : Finite {t // ReflTransGen step s t} := hfinite
  obtain ⟨i, j, hij, heq⟩ := Finite.exists_ne_map_eq_of_infinite orbit
  rcases Nat.lt_or_gt_of_ne hij with h | h
  · obtain ⟨n, rfl⟩ : ∃ n, j = i + n + 1 := ⟨j - i - 1, by omega⟩
    have hc := horbit i n
    rw [← heq] at hc
    exact ⟨_, (orbit i).2, hc⟩
  · obtain ⟨n, rfl⟩ : ∃ n, i = j + n + 1 := ⟨i - j - 1, by omega⟩
    have hc := horbit j n
    rw [heq] at hc
    exact ⟨_, (orbit j).2, hc⟩

theorem cycle_back (hdet : ∀ a b c, step a b → step a c → b = c) {t u : S}
    (hc : TransGen step t t) (h : ReflTransGen step t u) : TransGen step u u := by
  induction h with
  | refl => exact hc
  | tail _ hst ih =>
    obtain ⟨v, hv, hback⟩ := TransGen.head'_iff.mp ih
    rw [hdet _ _ _ hv hst] at hback
    exact TransGen.tail' hback hst

theorem cycle_next (hdet : ∀ a b c, step a b → step a c → b = c) {s t u : S}
    (ht : ReflTransGen step s t) (hc : TransGen step t t) (hu : ReflTransGen step s u) :
    ∃ v, step u v := by
  have hright : Relator.RightUnique step := fun _ _ _ hb hc => hdet _ _ _ hb hc
  rcases ReflTransGen.total_of_right_unique hright ht hu with h | h
  · obtain ⟨v, hv, -⟩ := TransGen.head'_iff.mp (cycle_back hdet hc h)
    exact ⟨v, hv⟩
  · rcases ReflTransGen.cases_head h with rfl | ⟨v, hv, -⟩
    · obtain ⟨v, hv, -⟩ := TransGen.head'_iff.mp hc
      exact ⟨v, hv⟩
    · exact ⟨v, hv⟩

end Deterministic

end Relational

section Labelled

variable {S E : Type*} {step : S → E → S → Prop}

/-- A run from a state: its events, each with the state it leads to. -/
inductive Trace (step : S → E → S → Prop) : S → List (E × S) → Prop
  | nil {s} : Trace step s []
  | cons {s e t rest} : step s e t → Trace step t rest → Trace step s ((e, t) :: rest)

/-- `Counted step s n t`: a run from `s` to `t` with `n` steps that carry the label `true`. -/
inductive Counted (step : S → Bool → S → Prop) (s : S) : ℕ → S → Prop
  | refl : Counted step s 0 s
  | tail {n t mine u} : Counted step s n t → step t mine u → Counted step s (n + mine.toNat) u

/-- Each step of a run meets a condition on its event and the state that it starts from. -/
def Steps (Fine : S → E → Prop) : S → List (E × S) → Prop
  | _, [] => True
  | s, (e, t) :: rest => Fine s e ∧ Steps Fine t rest

instance Steps.decide {Fine : S → E → Prop} [∀ s e, Decidable (Fine s e)] :
    (s : S) → (run : List (E × S)) → Decidable (Steps Fine s run)
  | _, [] => .isTrue trivial
  | s, (e, t) :: rest =>
    have : Decidable (Steps Fine t rest) := Steps.decide t rest
    inferInstanceAs (Decidable (Fine s e ∧ Steps Fine t rest))

theorem Steps.mono {Fine Fine' : S → E → Prop} (h : ∀ s e, Fine s e → Fine' s e) {s : S}
    {run : List (E × S)} (hrun : Steps Fine s run) : Steps Fine' s run := by
  induction run generalizing s with
  | nil => exact trivial
  | cons p run ih => exact ⟨h s p.1 hrun.1, ih hrun.2⟩

theorem Trace.steps_iff (Inv Good : S → Prop) (Fine : S → E → Prop)
    (hinv : ∀ s e t, Inv s → step s e t → Inv t)
    (hstep : ∀ s e t, Inv s → Good s → step s e t → (Good t ↔ Fine s e)) {s : S}
    {run : List (E × S)} (hi : Inv s) (hs : Good s) (h : Trace step s run) :
    (∀ p ∈ run, Good p.2) ↔ Steps Fine s run := by
  induction h with
  | nil => simp [Steps]
  | @cons s e t rest hst _ ih =>
    rw [List.forall_mem_cons, Steps]
    have hiff := hstep s e t hi hs hst
    have ht := hinv s e t hi hst
    constructor
    · rintro ⟨hgood, hrest⟩
      exact ⟨hiff.mp hgood, (ih ht hgood).mp hrest⟩
    · rintro ⟨hfine, hrest⟩
      have hgood := hiff.mpr hfine
      exact ⟨hgood, (ih ht hgood).mpr hrest⟩

theorem steps_event_iff {Fine : E → Prop} {s : S} {run : List (E × S)} :
    Steps (fun _ e => Fine e) s run ↔ ∀ p ∈ run, Fine p.1 := by
  induction run generalizing s with
  | nil => simp [Steps]
  | cons p run ih => rw [Steps, ih, List.forall_mem_cons]

theorem Trace.forall_iff (Good : S → Prop) (Fine : E → Prop)
    (hstep : ∀ s e t, Good s → step s e t → (Good t ↔ Fine e)) {s : S} {run : List (E × S)}
    (hs : Good s) (h : Trace step s run) :
    (∀ p ∈ run, Good p.2) ↔ ∀ p ∈ run, Fine p.1 := by
  rw [← steps_event_iff (s := s)]
  exact h.steps_iff (fun _ => True) Good _ (fun _ _ _ _ _ => trivial)
    (fun s e t _ => hstep s e t) trivial hs

theorem Trace.invariant {Inv : S → Prop} (hstep : ∀ s e t, Inv s → step s e t → Inv t) {s : S}
    {run : List (E × S)} (hs : Inv s) (h : Trace step s run) : ∀ p ∈ run, Inv p.2 :=
  (h.forall_iff Inv (fun _ => True)
    (fun s e t hi hst => iff_of_true (hstep s e t hi hst) trivial) hs).mpr fun _ _ => trivial

/-- Each event that counts is paid for: by one that costs, or by what the state has in store. -/
theorem Trace.countP_le {Inv : S → Prop} {store : S → ℕ} {counts costs : E → Bool}
    (hinv : ∀ s e t, Inv s → step s e t → Inv t)
    (hstep : ∀ s e t, Inv s → step s e t →
      (counts e).toNat + store t ≤ (costs e).toNat + store s) {s : S} {run : List (E × S)}
    (hs : Inv s) (h : Trace step s run) :
    run.countP (fun p => counts p.1) ≤ run.countP (fun p => costs p.1) + store s := by
  induction h with
  | nil => exact Nat.zero_le _
  | @cons s e t rest hst _ ih =>
    have hrest := ih (hinv s e t hs hst)
    have hfirst := hstep s e t hs hst
    have hcount : ∀ f : E → Bool, ((e, t) :: rest).countP (fun p => f p.1) =
        rest.countP (fun p => f p.1) + (f e).toNat := by
      intro f
      rw [List.countP_cons]
      cases f e <;> rfl
    rw [hcount, hcount]
    omega

end Labelled

section Recorded

open Relation

variable {S E O : Type*} {step : S → E → S → Prop} {note : S → E → Option O}

/-- A step, with what is noted about its event behind the record so far. -/
inductive Recorded (step : S → E → S → Prop) (note : S → E → Option O) :
    S × List O → S × List O → Prop
  | step {s e t record} : step s e t →
      Recorded step note (s, record) (t, record ++ (note s e).toList)

/-- Each entry of a record was noted at a state that the run came to with the entries in
front of it. -/
theorem Recorded.entry {s₀ s : S} {before after : List O} {o : O}
    (h : ReflTransGen (Recorded step note) (s₀, []) (s, before ++ o :: after)) :
    ∃ t e u, ReflTransGen (Recorded step note) (s₀, []) (t, before) ∧ step t e u ∧
      note t e = some o := by
  generalize hlast : (s, before ++ o :: after) = last at h
  induction h generalizing s after with
  | refl => simp at hlast
  | tail hrun hst ih =>
    cases hst with
    | @step t e u record hst =>
      obtain ⟨rfl, hrecord⟩ := Prod.mk.inj hlast
      cases hnote : note t e with
      | none =>
        rw [hnote, Option.toList_none, List.append_nil] at hrecord
        exact ih (by rw [hrecord])
      | some o' =>
        rw [hnote, Option.toList_some] at hrecord
        rcases List.eq_nil_or_concat after with rfl | ⟨rest, last, rfl⟩
        · obtain ⟨rfl, heq⟩ := List.append_inj' hrecord rfl
          obtain rfl := (List.cons.inj heq).1
          exact ⟨t, e, s, hrun, hst, hnote⟩
        · rw [List.concat_eq_append, ← List.cons_append, ← List.append_assoc] at hrecord
          obtain ⟨hfront, -⟩ := List.append_inj' hrecord rfl
          exact ih (by rw [hfront])

theorem Recorded.steps {p q : S × List O} (h : ReflTransGen (Recorded step note) p q) :
    ReflTransGen (fun s t => ∃ e, step s e t) p.1 q.1 :=
  h.lift Prod.fst fun _ _ ⟨hst⟩ => ⟨_, hst⟩

/-- A record of less, of the same run. -/
theorem Recorded.filterMap {O' : Type*} (f : O → Option O') {s t : S} {record : List O}
    (h : ReflTransGen (Recorded step note) (s, []) (t, record)) :
    ReflTransGen (Recorded step fun s e => (note s e).bind f) (s, [])
      (t, record.filterMap f) := by
  generalize hlast : (t, record) = last at h
  induction h generalizing t record with
  | refl =>
    obtain ⟨rfl, rfl⟩ := Prod.mk.inj hlast
    exact .refl
  | tail _ hst ih =>
    cases hst with
    | @step u e v before hst =>
      obtain ⟨rfl, rfl⟩ := Prod.mk.inj hlast
      have hnoted : (note u e).toList.filterMap f = ((note u e).bind f).toList := by
        cases note u e with
        | none => rfl
        | some o => cases hf : f o <;> simp [hf]
      rw [List.filterMap_append, hnoted]
      exact (ih rfl).tail (.step hst)

/-- Each entry of the record satisfies `P` with the entries in front of it. -/
def Along (P : List O → O → Prop) (record : List O) : Prop :=
  ∀ before o after, record = before ++ o :: after → P before o

variable {P Q : List O → O → Prop}

theorem Along.mono (h : ∀ before o, P before o → Q before o) {record : List O}
    (hP : Along P record) : Along Q record :=
  fun before o after heq => h before o (hP before o after heq)

theorem along_concat {record : List O} {o : O} :
    Along P (record ++ [o]) ↔ Along P record ∧ P record o := by
  constructor
  · intro h
    refine ⟨fun before o' after heq => h before o' (after ++ [o]) ?_, h record o [] rfl⟩
    rw [heq, List.append_assoc, List.cons_append]
  · rintro ⟨hrecord, ho⟩ before o' after heq
    rcases List.eq_nil_or_concat after with rfl | ⟨rest, last, rfl⟩
    · obtain ⟨rfl, hlast⟩ := List.append_inj' heq rfl
      obtain rfl := (List.cons.inj hlast).1
      exact ho
    · rw [List.concat_eq_append, ← List.cons_append, ← List.append_assoc] at heq
      exact hrecord before o' rest (List.append_inj' heq rfl).1

/-- The entries of `rest` satisfy `P` with `before` and the entries in front of them. -/
def AlongFrom (P : List O → O → Prop) : List O → List O → Prop
  | _, [] => True
  | before, o :: rest => P before o ∧ AlongFrom P (before ++ [o]) rest

instance AlongFrom.decide [∀ before o, Decidable (P before o)] :
    (before rest : List O) → Decidable (AlongFrom P before rest)
  | _, [] => .isTrue trivial
  | before, o :: rest =>
    have := AlongFrom.decide (before ++ [o]) rest
    inferInstanceAs (Decidable (P before o ∧ AlongFrom P (before ++ [o]) rest))

theorem AlongFrom.along {record : List O} (h : AlongFrom P [] record) : Along P record := by
  have hall : ∀ (front before : List O) (o : O) (after : List O),
      AlongFrom P front (before ++ o :: after) → P (front ++ before) o := by
    intro front before
    induction before generalizing front with
    | nil =>
      intro o after h
      rw [List.append_nil]
      exact h.1
    | cons p before ih =>
      intro o after h
      have hrest := ih (front ++ [p]) o after h.2
      rwa [List.append_assoc] at hrest
  rintro before o after rfl
  exact hall [] before o after h

theorem Along.alongFrom {record : List O} (h : Along P record) : AlongFrom P [] record := by
  have hall : ∀ (rest front : List O), Along P (front ++ rest) → AlongFrom P front rest := by
    intro rest
    induction rest with
    | nil => exact fun _ _ => trivial
    | cons o rest ih =>
      intro front h
      refine ⟨h front o rest rfl, ih (front ++ [o]) ?_⟩
      rwa [List.append_assoc, List.singleton_append]
  exact hall record [] h

instance Along.decide [∀ before o, Decidable (P before o)] (record : List O) :
    Decidable (Along P record) :=
  decidable_of_iff (AlongFrom P [] record) ⟨AlongFrom.along, Along.alongFrom⟩

end Recorded

section Functional

variable {S E O : Type*} (step : S → E → Option (S × List O))

/-- Feed the events in order; `none` once a step fails. -/
def run : S → List E → Option (S × List O)
  | s, [] => some (s, [])
  | s, e :: es => (step s e).bind fun r => (run r.1 es).map fun q => (q.1, r.2 ++ q.2)

variable {step}

@[simp] theorem run_nil (s : S) : run step s [] = some (s, []) := rfl

theorem run_cons {s t u : S} {e : E} {es : List E} {a b : List O}
    (h : step s e = some (t, a)) (ht : run step t es = some (u, b)) :
    run step s (e :: es) = some (u, a ++ b) := by
  simp [run, h, ht]

theorem run_cons_inv {s u : S} {e : E} {es : List E} {out : List O}
    (h : run step s (e :: es) = some (u, out)) :
    ∃ t a b, step s e = some (t, a) ∧ run step t es = some (u, b) ∧ out = a ++ b := by
  obtain ⟨⟨t, a⟩, ht, hrest⟩ := Option.bind_eq_some_iff.mp h
  obtain ⟨⟨v, b⟩, hv, heq⟩ := Option.map_eq_some_iff.mp hrest
  obtain ⟨rfl, rfl⟩ := Prod.mk.inj heq
  exact ⟨t, a, b, ht, hv, rfl⟩

/-- Every event of the run satisfies `P` together with the state that it finds. -/
def Throughout (step : S → E → Option (S × List O)) (P : S → E → Prop) : S → List E → Prop
  | _, [] => True
  | s, e :: es => P s e ∧ ∀ t out, step s e = some (t, out) → Throughout step P t es

theorem throughout_of_forall {P : S → E → Prop} {es : List E} (h : ∀ e ∈ es, ∀ s, P s e) (s : S) :
    Throughout step P s es := by
  induction es generalizing s with
  | nil => trivial
  | cons e es ih =>
    exact ⟨h e List.mem_cons_self s,
      fun t _ _ => ih (fun e he => h e (List.mem_cons_of_mem _ he)) t⟩

theorem Throughout.and {P Q : S → E → Prop} {s : S} {es : List E} (hP : Throughout step P s es)
    (hQ : Throughout step Q s es) : Throughout step (fun s e => P s e ∧ Q s e) s es := by
  induction es generalizing s with
  | nil => trivial
  | cons e es ih =>
    exact ⟨⟨hP.1, hQ.1⟩, fun t out hst => ih (hP.2 t out hst) (hQ.2 t out hst)⟩

/-- A run beside the run of some of its events: those lead to related states with the same
outputs, and the others keep the relation and emit only what is dropped. -/
theorem run_filter (step : S → E → Option (S × List O)) (mine : E → Bool) (keep : O → Bool)
    (Ok : S → E → Prop) (R : S → S → Prop)
    (hmine : ∀ s s' e, R s s' → Ok s e → mine e = true → ∃ t t' out,
      step s e = some (t, out) ∧ step s' e = some (t', out) ∧ R t t' ∧ ∀ p ∈ out, keep p = true)
    (hother : ∀ s s' e, R s s' → Ok s e → mine e = false → ∃ t out,
      step s e = some (t, out) ∧ R t s' ∧ ∀ p ∈ out, keep p = false)
    {s s' : S} {es : List E} (h : R s s') (hes : Throughout step Ok s es) :
    ∃ t t' sent, run step s es = some (t, sent) ∧
      run step s' (es.filter mine) = some (t', sent.filter keep) ∧ R t t' := by
  induction es generalizing s s' with
  | nil => exact ⟨s, s', [], rfl, rfl, h⟩
  | cons e es ih =>
    obtain ⟨he, hrest⟩ := hes
    cases hm : mine e with
    | true =>
      obtain ⟨t, t', out, hst, hst', hr, hkeep⟩ := hmine s s' e h he hm
      obtain ⟨u, u', sent, hu, hu', hr'⟩ := ih hr (hrest t out hst)
      refine ⟨u, u', out ++ sent, run_cons hst hu, ?_, hr'⟩
      rw [List.filter_cons_of_pos hm, List.filter_append, List.filter_eq_self.mpr hkeep]
      exact run_cons hst' hu'
    | false =>
      obtain ⟨t, out, hst, hr, hdrop⟩ := hother s s' e h he hm
      obtain ⟨u, u', sent, hu, hu', hr'⟩ := ih hr (hrest t out hst)
      refine ⟨u, u', out ++ sent, run_cons hst hu, ?_, hr'⟩
      have hnone : out.filter keep = [] :=
        List.filter_eq_nil_iff.mpr fun p hp => by simp [hdrop p hp]
      rw [List.filter_cons_of_neg (by simp [hm]), List.filter_append, hnone, List.nil_append]
      exact hu'

end Functional

section Until

variable {S O : Type*} {step : S → Option (S × O)} {stop : S → Bool}

/-- The outputs of the steps up to the first one behind which the state says to stop. -/
inductive Until (step : S → Option (S × O)) (stop : S → Bool) : S → List O → Prop
  | last {s t o} : step s = some (t, o) → stop t = true → Until step stop s [o]
  | more {s t o rest} : step s = some (t, o) → stop t = false → Until step stop t rest →
      Until step stop s (o :: rest)

theorem Until.unique {s : S} {a b : List O} (ha : Until step stop s a) (hb : Until step stop s b) :
    a = b := by
  induction ha generalizing b with
  | last hstep hstop =>
    cases hb with
    | last hstep' =>
      rw [hstep] at hstep'
      rw [(Prod.mk.inj (Option.some.inj hstep')).2]
    | more hstep' hgo =>
      rw [hstep] at hstep'
      rw [← (Prod.mk.inj (Option.some.inj hstep')).1, hstop] at hgo
      cases hgo
  | more hstep hgo _ ih =>
    cases hb with
    | last hstep' hstop =>
      rw [hstep] at hstep'
      rw [← (Prod.mk.inj (Option.some.inj hstep')).1, hgo] at hstop
      cases hstop
    | more hstep' _ hrest =>
      rw [hstep] at hstep'
      obtain ⟨rfl, rfl⟩ := Prod.mk.inj (Option.some.inj hstep')
      rw [ih hrest]

theorem until_of_stages (Stage : ℕ → S → Prop) (item : ℕ → O) (last : ℕ)
    (hstep : ∀ k s, k < last → Stage k s → ∃ t, step s = some (t, item k) ∧ Stage (k+1) t ∧
      (stop t = true ↔ k + 1 = last)) {k : ℕ} {s : S} (hk : k < last) (hs : Stage k s) :
    Until step stop s ((List.range' k (last - k)).map item) := by
  generalize hrest : last - k = rest
  induction rest generalizing k s with
  | zero => omega
  | succ rest ih =>
    obtain ⟨t, ht, hstage, hstop⟩ := hstep k s hk hs
    rw [List.range'_succ, List.map_cons]
    by_cases hlast : k + 1 = last
    · obtain rfl : rest = 0 := by omega
      exact .last ht (hstop.mpr hlast)
    · have hgo : stop t = false := by
        rw [← Bool.not_eq_true]
        exact fun h => hlast (hstop.mp h)
      exact .more ht hgo (ih (by omega) hstage (by omega))

end Until

end Transition
end NetworkProtocols
