import Mathlib.Data.List.Infix
import Mathlib.Tactic.Common

/-!
# Events inserted into a run

A machine takes events and emits outputs, and `see` says what of its state can be seen. A run is
undisturbed by the events of a kind when, however many of them are inserted at whatever points, at
each point it has emitted and shows the same. The rule at the end reduces this to single steps.
-/

namespace NetworkProtocols
namespace Insertion

variable {S E O V : Type*} (step : S → E → S × List O) (see : S → V)

/-- Take the events in order. -/
def runAll : S → List E → S × List O
  | s, [] => (s, [])
  | s, e :: es =>
    let next := step s e
    let last := runAll next.1 es
    (last.1, next.2 ++ last.2)

def seen (r : S × List O) : V × List O := (see r.1, r.2)

/-- The second list is the first with events of the kind `P` inserted. -/
inductive Inserted (P : E → Prop) : List E → List E → Prop
  | nil : Inserted P [] []
  | keep {e es es'} : Inserted P es es' → Inserted P (e :: es) (e :: es')
  | extra {e es es'} : P e → Inserted P es es' → Inserted P es (e :: es')

def Undisturbed (P : E → Prop) (s : S) (es : List E) : Prop :=
  ∀ front, front <+: es → ∀ merged, Inserted P front merged →
    seen see (runAll step s merged) = seen see (runAll step s front)

/-- Each step of a run meets a condition on its event and the state that it starts from. -/
def Meets (Fine : S → E → Prop) : S → List E → Prop
  | _, [] => True
  | s, e :: es => Fine s e ∧ Meets Fine (step s e).1 es

variable {step see} {P : E → Prop} {Fine : S → E → Prop} {s t : S} {e : E} {es es' : List E}

theorem runAll_append (s : S) (es es' : List E) :
    runAll step s (es ++ es') =
      ((runAll step (runAll step s es).1 es').1,
        (runAll step s es).2 ++ (runAll step (runAll step s es).1 es').2) := by
  induction es generalizing s with
  | nil => rfl
  | cons e es ih => simp [runAll, ih]

theorem Inserted.refl (es : List E) : Inserted P es es := by
  induction es with
  | nil => exact .nil
  | cons e es ih => exact .keep ih

theorem Inserted.front (h : Inserted P es es') {extra : List E} (hextra : ∀ x ∈ extra, P x) :
    Inserted P es (extra ++ es') := by
  induction extra with
  | nil => exact h
  | cons x extra ih =>
    rw [List.forall_mem_cons] at hextra
    exact .extra hextra.1 (ih hextra.2)

theorem Meets.of_prefix (h : Meets step Fine s es) {front : List E} (hfront : front <+: es) :
    Meets step Fine s front := by
  induction front generalizing s es with
  | nil => trivial
  | cons e front ih =>
    obtain ⟨rest, rfl⟩ := hfront
    exact ⟨h.1, ih h.2 ⟨rest, rfl⟩⟩

/-- The run with insertions stays related to the run without them, step by step. -/
theorem Inserted.related {R : S → S → Prop}
    (hkeep : ∀ s t e, R s t → Fine s e →
      (step t e).2 = (step s e).2 ∧ R (step s e).1 (step t e).1)
    (hextra : ∀ s t e, R s t → P e → (step t e).2 = [] ∧ R s (step t e).1)
    (h : Inserted P es es') (hR : R s t) (hfine : Meets step Fine s es) :
    (runAll step t es').2 = (runAll step s es).2 ∧
      R (runAll step s es).1 (runAll step t es').1 := by
  induction h generalizing s t with
  | nil => exact ⟨rfl, hR⟩
  | @keep e es es' _ ih =>
    obtain ⟨hout, hnext⟩ := hkeep s t e hR hfine.1
    obtain ⟨hrest, hlast⟩ := ih hnext hfine.2
    exact ⟨congrArg₂ (· ++ ·) hout hrest, hlast⟩
  | @extra e es es' he _ ih =>
    obtain ⟨hout, hnext⟩ := hextra s t e hR he
    obtain ⟨hrest, hlast⟩ := ih hnext hfine
    refine ⟨?_, hlast⟩
    rw [runAll, hout]
    exact hrest

theorem Undisturbed.tail (h : Undisturbed step see P s (e :: es)) :
    Undisturbed step see P (step s e).1 es := by
  intro front hfront merged hmerged
  have hseen := h (e :: front) (List.cons_prefix_cons.mpr ⟨rfl, hfront⟩) _ (.keep hmerged)
  obtain ⟨hlast, hout⟩ := Prod.mk.inj hseen
  exact Prod.ext hlast (List.append_cancel_left hout)

theorem Undisturbed.head (h : Undisturbed step see P s (e :: es)) {extra : List E}
    (hextra : ∀ x ∈ extra, P x) :
    seen see (runAll step s (extra ++ [e])) = seen see (runAll step s [e]) :=
  h [e] ⟨es, rfl⟩ _ ((Inserted.refl [e]).front hextra)

/-- If related states show and emit the same where a step is fine, and a step that is not fine is
disturbed by some insertion in front of it, then a run is undisturbed exactly when its steps are
all fine. -/
theorem undisturbed_iff (R : S → S → Prop) (Inv : S → Prop)
    (hinv : ∀ s e, Inv s → Inv (step s e).1) (hrefl : ∀ s, Inv s → R s s)
    (hsee : ∀ s t, R s t → see t = see s)
    (hkeep : ∀ s t e, R s t → Fine s e →
      (step t e).2 = (step s e).2 ∧ R (step s e).1 (step t e).1)
    (hextra : ∀ s t e, R s t → P e → (step t e).2 = [] ∧ R s (step t e).1)
    (hneeded : ∀ s e, Inv s → (∀ extra, (∀ x ∈ extra, P x) →
      seen see (runAll step s (extra ++ [e])) = seen see (runAll step s [e])) → Fine s e)
    (hs : Inv s) : Undisturbed step see P s es ↔ Meets step Fine s es := by
  constructor
  · intro h
    induction es generalizing s with
    | nil => trivial
    | cons e es ih =>
      exact ⟨hneeded s e hs fun _ hx => h.head hx, ih (hinv s e hs) h.tail⟩
  · intro h front hfront merged hmerged
    obtain ⟨hout, hlast⟩ := hmerged.related hkeep hextra (hrefl s hs) (h.of_prefix hfront)
    exact Prod.ext (hsee _ _ hlast) hout

end Insertion
end NetworkProtocols
