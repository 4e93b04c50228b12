import Mathlib.Logic.Relation
import Mathlib.Logic.Function.Basic
import NetworkProtocols.Lib.Transition

/-!
# A store that is only added to

Owners write files. An owner has at most one file at a time, which it has created, and adds
to the end of it until it lets go of it.
-/

namespace NetworkProtocols

open Relation

/-- The files, and the file that each owner is writing. -/
@[ext] structure AppendStore (O P A : Type*) where
  content : P → Option (List A)
  writer : O → Option P

namespace AppendStore

variable {O P A : Type*}

/-- A file that is written exists and has one writer. -/
structure Valid (s : AppendStore O P A) : Prop where
  present : ∀ o p, s.writer o = some p → (s.content p).isSome
  unique : ∀ o o' p, s.writer o = some p → s.writer o' = some p → o = o'

/-- Every file of `s` is the beginning of the same file of `t`. -/
def Grows (s t : AppendStore O P A) : Prop :=
  ∀ p bytes, s.content p = some bytes → ∃ more, t.content p = some (bytes ++ more)

def Sealed (s : AppendStore O P A) (p : P) (bytes : List A) : Prop :=
  s.content p = some bytes ∧ ∀ o, s.writer o ≠ some p

theorem Grows.refl (s : AppendStore O P A) : Grows s s :=
  fun _ bytes h => ⟨[], by rw [List.append_nil, h]⟩

theorem Grows.trans {s t u : AppendStore O P A} (h : Grows s t) (h' : Grows t u) : Grows s u := by
  intro p bytes hp
  obtain ⟨more, ht⟩ := h p bytes hp
  obtain ⟨rest, hu⟩ := h' p _ ht
  exact ⟨more ++ rest, by rw [hu, List.append_assoc]⟩

theorem Grows.isSome {s t : AppendStore O P A} (h : Grows s t) {p : P}
    (hp : (s.content p).isSome) : (t.content p).isSome := by
  obtain ⟨bytes, hbytes⟩ := Option.isSome_iff_exists.mp hp
  obtain ⟨more, hmore⟩ := h p bytes hbytes
  rw [hmore]
  rfl

variable [DecidableEq O] [DecidableEq P]

/-- What an owner does: only a new file is created, and only its own file is written. -/
inductive Step (o : O) : AppendStore O P A → AppendStore O P A → Prop
  | create {s p} : s.writer o = none → s.content p = none →
      Step o s ⟨Function.update s.content p (some []), Function.update s.writer o (some p)⟩
  | append {s p} (bytes : List A) : s.writer o = some p →
      Step o s ⟨Function.update s.content p ((s.content p).map (· ++ bytes)), s.writer⟩
  | release {s} : Step o s ⟨s.content, Function.update s.writer o none⟩

variable {s t : AppendStore O P A} {o : O}

namespace Step

theorem grows (h : Step o s t) : Grows s t := by
  intro p bytes hp
  cases h with
  | @create q _ hnew =>
    have hne : p ≠ q := by
      rintro rfl
      rw [hnew] at hp
      cases hp
    exact ⟨[], by simp [hne, hp]⟩
  | @append q added _ =>
    by_cases hpq : p = q
    · subst hpq
      exact ⟨added, by simp [hp]⟩
    · exact ⟨[], by simp [hpq, hp]⟩
  | release => exact ⟨[], by simp [hp]⟩

theorem writer_of_ne (h : Step o s t) {o' : O} (hne : o' ≠ o) : t.writer o' = s.writer o' := by
  cases h with
  | create _ _ => exact Function.update_of_ne hne _ _
  | append _ _ => rfl
  | release => exact Function.update_of_ne hne _ _

theorem content_of_ne (h : Step o s t) {p : P} (hp : (s.content p).isSome)
    (hne : s.writer o ≠ some p) : t.content p = s.content p := by
  cases h with
  | @create q _ hnew =>
    refine Function.update_of_ne ?_ _ _
    rintro rfl
    rw [hnew] at hp
    cases hp
  | @append q _ hw =>
    refine Function.update_of_ne ?_ _ _
    rintro rfl
    exact hne hw
  | release => rfl

theorem writer_some (h : Step o s t) {p : P} (hp : t.writer o = some p) :
    s.writer o = some p ∨ s.content p = none := by
  cases h with
  | create _ hnew =>
    simp only [Function.update_self, Option.some.injEq] at hp
    exact .inr (hp ▸ hnew)
  | append _ _ => exact .inl hp
  | release => simp at hp

theorem present_self (h : Step o s t) (hs : s.Valid) {p : P} (hp : t.writer o = some p) :
    (t.content p).isSome := by
  cases h with
  | create _ _ =>
    simp only [Function.update_self, Option.some.injEq] at hp
    subst hp
    simp
  | append bytes hw => exact (grows (.append bytes hw)).isSome (hs.present o p hp)
  | release => simp at hp

theorem valid (h : Step o s t) (hs : s.Valid) : t.Valid := by
  have hpresent : ∀ o' p, t.writer o' = some p → (t.content p).isSome := by
    intro o' p hp
    by_cases ho : o' = o
    · subst ho
      exact h.present_self hs hp
    · rw [h.writer_of_ne ho] at hp
      exact h.grows.isSome (hs.present o' p hp)
  -- Nobody else writes the file that the owner has come to write.
  have hself : ∀ o' p, o' ≠ o → t.writer o = some p → t.writer o' ≠ some p := by
    intro o' p hne hp hp'
    rw [h.writer_of_ne hne] at hp'
    rcases h.writer_some hp with hw | hnew
    · exact hne (hs.unique o' o p hp' hw)
    · have hsome := hs.present o' p hp'
      rw [hnew] at hsome
      cases hsome
  refine ⟨hpresent, fun o₁ o₂ p h₁ h₂ => ?_⟩
  by_cases ho₁ : o₁ = o
  · by_contra hne
    subst ho₁
    exact hself o₂ p (Ne.symm hne) h₁ h₂
  by_cases ho₂ : o₂ = o
  · subst ho₂
    exact absurd h₁ (hself o₁ p ho₁ h₂)
  rw [h.writer_of_ne ho₁] at h₁
  rw [h.writer_of_ne ho₂] at h₂
  exact hs.unique o₁ o₂ p h₁ h₂

theorem isSealed (h : Step o s t) {p : P} {bytes : List A} (hp : s.Sealed p bytes) :
    t.Sealed p bytes := by
  obtain ⟨hbytes, hwriter⟩ := hp
  refine ⟨?_, fun o' hw => ?_⟩
  · rw [h.content_of_ne (by rw [hbytes]; rfl) (hwriter o), hbytes]
  · by_cases ho : o' = o
    · subst ho
      rcases h.writer_some hw with hw' | hnew
      · exact hwriter o' hw'
      · rw [hnew] at hbytes
        cases hbytes
    · rw [h.writer_of_ne ho] at hw
      exact hwriter o' hw

end Step

abbrev Evolves : AppendStore O P A → AppendStore O P A → Prop :=
  ReflTransGen fun s t => ∃ o, Step o s t

theorem Evolves.of_steps (h : ReflTransGen (Step o) s t) : Evolves s t :=
  h.lift id fun _ _ hst => ⟨o, hst⟩

theorem Evolves.valid (h : Evolves s t) (hs : s.Valid) : t.Valid :=
  @Transition.invariant _ _ Valid (fun _ _ hv ⟨_, hst⟩ => hst.valid hv) _ _ hs h

theorem Evolves.grows (h : Evolves s t) : Grows s t :=
  @Transition.invariant _ _ (Grows s) (fun _ _ hg ⟨_, hst⟩ => hg.trans hst.grows) _ _ (.refl s) h

theorem Evolves.isSealed (h : Evolves s t) {p : P} {bytes : List A} (hp : s.Sealed p bytes) :
    t.Sealed p bytes :=
  @Transition.invariant _ _ (fun u => u.Sealed p bytes)
    (fun _ _ hu ⟨_, hst⟩ => hst.isSealed hu) _ _ hp h

theorem frame (h : ReflTransGen (Step o) s t) (hs : s.Valid) {o' : O} (hne : o' ≠ o) {p : P}
    (hp : s.writer o' = some p) : t.writer o' = some p ∧ t.content p = s.content p := by
  have hinv := @Transition.invariant _ (Step o)
    (fun u => u.Valid ∧ u.writer o' = some p ∧ u.content p = s.content p) ?_ _ _
    ⟨hs, hp, rfl⟩ h
  · exact hinv.2
  · rintro u v ⟨hv, hw, hc⟩ hst
    refine ⟨hst.valid hv, (hst.writer_of_ne hne).trans hw, ?_⟩
    rw [hst.content_of_ne (hv.present o' p hw) fun ho => hne (hv.unique o' o p hw ho), hc]

end AppendStore
end NetworkProtocols
