import Mathlib.Data.Multiset.Filter
import NetworkProtocols.Lib.Transition

/-!
# Questions and answers of many clients

Each client asks one question at a time, which is one message. A message is turned into another
one of the same client, lost, or handed to him, in any order and with those of the others. Others
than the clients send what they like. A client who waits has at most one message in flight, and
it belongs to his question.
-/

namespace NetworkProtocols
namespace RequestReply

open Relation

/-- A client who does not wait may ask. A stranger may send what he likes, and who gives up
waiting counts as one: he may ask again while the answer is still in flight. -/
inductive Client (Q : Type*)
  | idle
  | waiting (question : Q)
  | stranger

variable {C Q M : Type*}

structure State (C Q M : Type*) where
  clients : C → Client Q
  inFlight : Multiset (C × M)

/-- What may be in flight of a client: nothing, or one message that belongs to what he waits
for. -/
def Fits (Belongs : Q → M → Prop) : Client Q → Multiset (C × M) → Prop
  | .idle, messages => messages = 0
  | .waiting q, messages => messages = 0 ∨ ∃ c m, messages = {(c, m)} ∧ Belongs q m
  | .stranger, _ => True

variable {Belongs : Q → M → Prop} {inFlight : Multiset (C × M)} {c : C} {m : M}

theorem fits_zero (client : Client Q) : Fits Belongs client (0 : Multiset (C × M)) := by
  cases client with
  | idle => rfl
  | waiting q => exact .inl rfl
  | stranger => exact trivial

theorem Fits.only {client : Client Q} (h : Fits Belongs client ((c, m) ::ₘ inFlight)) :
    (∃ q, client = .waiting q ∧ Belongs q m ∧ inFlight = 0) ∨ client = .stranger := by
  cases client with
  | idle => exact absurd h (Multiset.cons_ne_zero)
  | waiting q =>
    obtain heq | ⟨d, m', heq, hm⟩ := h
    · exact absurd heq (Multiset.cons_ne_zero)
    · obtain ⟨hhead, hrest⟩ := Multiset.cons_eq_cons.mp heq |>.resolve_right (by
        rintro ⟨-, rest, -, hzero⟩
        exact Multiset.cons_ne_zero hzero.symm)
      obtain ⟨-, rfl⟩ := Prod.mk.inj hhead
      exact .inl ⟨q, rfl, hm, hrest⟩
  | stranger => exact .inr rfl

variable [DecidableEq C]

inductive Step (asks : Q → M) (Turns : M → M → Prop) : State C Q M → State C Q M → Prop
  | ask {clients inFlight c} (q : Q) : clients c = .idle →
      Step asks Turns ⟨clients, inFlight⟩
        ⟨Function.update clients c (.waiting q), (c, asks q) ::ₘ inFlight⟩
  | turn {clients inFlight c m m'} : Turns m m' →
      Step asks Turns ⟨clients, (c, m) ::ₘ inFlight⟩ ⟨clients, (c, m') ::ₘ inFlight⟩
  | lose {clients inFlight c m} :
      Step asks Turns ⟨clients, (c, m) ::ₘ inFlight⟩ ⟨clients, inFlight⟩
  | take {clients inFlight c q m} : clients c = .waiting q →
      Step asks Turns ⟨clients, (c, m) ::ₘ inFlight⟩ ⟨Function.update clients c .idle, inFlight⟩
  | leave {clients inFlight c q} : clients c = .waiting q →
      Step asks Turns ⟨clients, inFlight⟩ ⟨Function.update clients c .stranger, inFlight⟩
  | inject {clients inFlight c m} : clients c = .stranger →
      Step asks Turns ⟨clients, inFlight⟩ ⟨clients, (c, m) ::ₘ inFlight⟩

def own (c : C) (inFlight : Multiset (C × M)) : Multiset (C × M) :=
  inFlight.filter fun p => p.1 = c

@[simp] theorem own_cons_self (c : C) (m : M) (inFlight : Multiset (C × M)) :
    own c ((c, m) ::ₘ inFlight) = (c, m) ::ₘ own c inFlight :=
  Multiset.filter_cons_of_pos _ rfl

theorem own_cons_other {c d : C} (h : d ≠ c) (m : M) (inFlight : Multiset (C × M)) :
    own c ((d, m) ::ₘ inFlight) = own c inFlight :=
  Multiset.filter_cons_of_neg _ h

/-- Every client has only what fits him. -/
def Orderly (Belongs : Q → M → Prop) (s : State C Q M) : Prop :=
  ∀ c, Fits Belongs (s.clients c) (own c s.inFlight)

section Orderly

variable {clients : C → Client Q}

theorem Orderly.change (hs : Orderly Belongs ⟨clients, inFlight⟩) (c : C)
    {clients' : C → Client Q} {inFlight' : Multiset (C × M)}
    (hothers : ∀ d, d ≠ c → clients' d = clients d ∧ own d inFlight' = own d inFlight)
    (hc : Fits Belongs (clients' c) (own c inFlight')) : Orderly Belongs ⟨clients', inFlight'⟩ := by
  intro d
  by_cases hd : d = c
  · rwa [hd]
  · obtain ⟨hclient, hown⟩ := hothers d hd
    have hfits := hs d
    simp only [hclient, hown]
    exact hfits

theorem Orderly.step {asks : Q → M} {Turns : M → M → Prop} (hasks : ∀ q, Belongs q (asks q))
    (hturns : ∀ q m m', Belongs q m → Turns m m' → Belongs q m') {s t : State C Q M}
    (hs : Orderly Belongs s) (h : Step asks Turns s t) : Orderly Belongs t := by
  cases h with
  | @ask clients inFlight c q hidle =>
    refine hs.change c (fun d hd => ⟨Function.update_of_ne hd _ _, own_cons_other hd.symm _ _⟩) ?_
    have hnone : own c inFlight = 0 := by
      have hfits := hs c
      simp only [hidle] at hfits
      exact hfits
    rw [Function.update_self, own_cons_self, hnone]
    exact .inr ⟨c, asks q, rfl, hasks q⟩
  | @turn clients inFlight c m m' hm =>
    refine hs.change c (fun d hd => ⟨rfl, ?_⟩) ?_
    · rw [own_cons_other hd.symm, own_cons_other hd.symm]
    have hfits := hs c
    simp only [own_cons_self] at hfits
    rw [own_cons_self]
    rcases hfits.only with ⟨q, hq, hbelongs, hrest⟩ | hstranger
    · rw [hq, hrest]
      exact .inr ⟨c, m', rfl, hturns q m m' hbelongs hm⟩
    · rw [hstranger]
      exact trivial
  | @lose clients inFlight c m =>
    refine hs.change c (fun d hd => ⟨rfl, (own_cons_other hd.symm _ _).symm⟩) ?_
    have hfits := hs c
    simp only [own_cons_self] at hfits
    rcases hfits.only with ⟨q, -, -, hrest⟩ | hstranger
    · rw [hrest]
      exact fits_zero _
    · rw [hstranger]
      exact trivial
  | @take clients inFlight c q m hwaiting =>
    refine hs.change c (fun d hd => ⟨Function.update_of_ne hd _ _,
      (own_cons_other hd.symm _ _).symm⟩) ?_
    have hfits := hs c
    simp only [own_cons_self, hwaiting] at hfits
    rw [Function.update_self]
    rcases hfits.only with ⟨_, -, -, hrest⟩ | hstranger
    · exact hrest
    · cases hstranger
  | @leave clients inFlight c q _ =>
    refine hs.change c (fun d hd => ⟨Function.update_of_ne hd _ _, rfl⟩) ?_
    rw [Function.update_self]
    exact trivial
  | @inject clients inFlight c m hstranger =>
    refine hs.change c (fun d hd => ⟨rfl, own_cons_other hd.symm _ _⟩) ?_
    rw [hstranger]
    exact trivial

end Orderly

end RequestReply
end NetworkProtocols
