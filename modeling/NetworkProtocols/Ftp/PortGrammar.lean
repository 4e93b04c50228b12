import Mathlib.Data.List.TakeWhile
import NetworkProtocols.Ftp.Store

/-!
# The grammar of PORT

PORT takes six numbers from 0 to 255. Its handler checks nothing: a field that is missing is read
all the same, and what `std::stoi` makes of a field is cut to 16 bits.
-/

namespace NetworkProtocols
namespace Ftp

open Bytes

/-- A decimal number from 0 to 255. -/
structure Octet (s : Bytes) : Prop where
  nonempty : s ≠ []
  digits : ∀ b ∈ s, isDigit b = true
  le : digitsValue s ≤ 255

/-- The fields of an argument of PORT. -/
structure PortFields where
  h1 : Bytes
  h2 : Bytes
  h3 : Bytes
  h4 : Bytes
  p1 : Bytes
  p2 : Bytes

namespace PortFields

def toList (f : PortFields) : List Bytes := [f.h1, f.h2, f.h3, f.h4, f.p1, f.p2]

def text (f : PortFields) : Bytes := [comma].intercalate f.toList

def host (f : PortFields) : Bytes := [46].intercalate [f.h1, f.h2, f.h3, f.h4]

def port (f : PortFields) : ℕ := digitsValue f.p1 * 256 + digitsValue f.p2

def Valid (f : PortFields) : Prop := ∀ s ∈ f.toList, Octet s

end PortFields

def PortGrammar (rest : Bytes) : Prop := ∃ f : PortFields, f.Valid ∧ rest = f.text

def IsErrorReply (reply : Bytes) : Prop := reply.head? = some 52 ∨ reply.head? = some 53

/-- What PORT comes to, by its grammar: an attempt at the host and the port of a text that has it,
and an error reply to any other. -/
structure FollowsGrammar (rest : Bytes) (x : Execution) : Prop where
  attempted : ∀ f : PortFields, f.Valid → rest = f.text →
    ∃ port : UInt16, x.endpoints = [(f.host, port)] ∧ port.toNat = f.port
  refused : ¬ PortGrammar rest →
    x.fault ≠ some .outOfRange ∧ x.endpoints = [] ∧ ∃ reply ∈ x.replies, IsErrorReply reply

theorem not_blank_of_digit {b : Byte} (h : isDigit b = true) :
    isSpace b = false ∧ b ≠ 45 ∧ b ≠ 43 := by
  simp only [isDigit, Bool.and_eq_true, decide_eq_true_eq] at h
  obtain ⟨hlow, hhigh⟩ := h
  refine ⟨?_, by grind, by grind⟩
  simp only [isSpace, space, Bool.or_eq_false_iff, Bool.and_eq_false_iff, beq_eq_false_iff_ne,
    decide_eq_false_iff_not]
  exact ⟨by grind, .inr (by grind)⟩

/-- `std::stoi` reads a number without a sign and without blanks as it is. -/
theorem Octet.stoi_eq {s : Bytes} (h : Octet s) : stoi s = some (digitsValue s : ℤ) := by
  obtain ⟨b, rest, rfl⟩ := List.exists_cons_of_ne_nil h.nonempty
  obtain ⟨hspace, hminus, hplus⟩ := not_blank_of_digit (h.digits b List.mem_cons_self)
  have hall : (b :: rest).takeWhile isDigit = b :: rest := List.takeWhile_eq_self_iff.mpr h.digits
  have hle := h.le
  simp only [stoi, List.dropWhile_cons, hspace, Bool.false_eq_true, if_false, List.head?_cons,
    Option.some_inj, hminus, hplus, or_self, hall, reduceCtorEq, false_or]
  exact if_neg (by omega)

theorem PortFields.Valid.split_text {f : PortFields} (h : f.Valid) :
    split f.text comma = f.toList := by
  have hcomma : ∀ s ∈ f.toList, comma ∉ s := by
    intro s hs hmem
    have hdigit := (h s hs).digits comma hmem
    revert hdigit
    decide
  have hitems : f.text.splitOn comma = f.toList :=
    List.splitOn_intercalate comma hcomma (by simp [PortFields.toList])
  have hlast : ¬ f.toList.getLast? = some [] := by
    have hne := (h f.p2 (by simp [PortFields.toList])).nonempty
    simpa [PortFields.toList] using hne
  rw [split, hitems, if_neg hlast]

theorem PortFields.Valid.port_lt {f : PortFields} (h : f.Valid) : f.port < 65536 := by
  have hp1 := (h f.p1 (by simp [PortFields.toList])).le
  have hp2 := (h f.p2 (by simp [PortFields.toList])).le
  unfold PortFields.port
  omega

theorem PortFields.Valid.arguments {f : PortFields} (h : f.Valid) :
    portArguments f.text = .ok (f.host, UInt16.ofNat f.port) := by
  have hp1 := (h f.p1 (by simp [PortFields.toList])).stoi_eq
  have hp2 := (h f.p2 (by simp [PortFields.toList])).stoi_eq
  rw [portArguments, h.split_text, PortFields.toList]
  simp only [hp1, hp2]
  have hsum : (digitsValue f.p1 * 256 + digitsValue f.p2 : ℤ) = (f.port : ℕ) := by
    unfold PortFields.port
    omega
  have hlt := h.port_lt
  have hport : UInt16.ofInt (f.port : ℕ) = UInt16.ofNat f.port := by
    rw [UInt16.ofInt, Int.emod_eq_of_lt (by omega) (by omega), Int.toNat_natCast]
  rw [hsum, hport, PortFields.host]

variable (o : Outcomes) (users : UsersDB) (s : FTPSession)

/-- Without an address no connection is attempted, and nothing is answered. -/
theorem handlePort_cases (rest : Bytes) :
    ((∀ host port, portArguments rest = .ok (host, port) → o.addressValid host = false) ∧
      ((Execution.start s o.disk).handlePort o rest).endpoints = [] ∧
      ((Execution.start s o.disk).handlePort o rest).replies = []) ∨
    ∃ host port, portArguments rest = .ok (host, port) ∧ o.addressValid host = true ∧
      ((Execution.start s o.disk).handlePort o rest).endpoints = [(host, port)] := by
  unfold Execution.handlePort
  cases hargs : portArguments rest with
  | error fault => exact .inl ⟨by simp, rfl, rfl⟩
  | ok target =>
    obtain ⟨host, port⟩ := target
    dsimp only
    unfold Execution.openDataConnectionActive
    cases hvalid : o.addressValid host with
    | false => exact .inl ⟨by simpa using hvalid, rfl, rfl⟩
    | true =>
      right
      refine ⟨host, port, rfl, hvalid, ?_⟩
      simp only [Bool.not_true, Bool.false_eq_true, if_false]
      split <;> rfl

/-- PORT follows its grammar exactly for the arguments that have it, where the host is an
address: others are attempted, or end in a fault, or in silence, and never in an error reply. -/
theorem port_grammar_iff {line : Bytes} (h : (parseCommand line).1 = .port) :
    FollowsGrammar (stripParentheses (parseCommand line).2)
        (executeCommand o users line (.start s o.disk)) ↔
      ∃ f : PortFields, f.Valid ∧ stripParentheses (parseCommand line).2 = f.text ∧
        o.addressValid f.host = true := by
  have hexecute : executeCommand o users line (.start s o.disk) =
      (Execution.start s o.disk).handlePort o (stripParentheses (parseCommand line).2) := by
    simp only [executeCommand, h]
  rw [hexecute]
  generalize stripParentheses (parseCommand line).2 = rest
  constructor
  · intro hfollows
    rcases handlePort_cases o s rest with
      ⟨hinvalid, hnone, hsilent⟩ | ⟨host, port, hargs, hvalid, hsome⟩
    · exfalso
      by_cases hgrammar : PortGrammar rest
      · obtain ⟨f, hf, htext⟩ := hgrammar
        obtain ⟨port, hattempt, -⟩ := hfollows.attempted f hf htext
        rw [hattempt] at hnone
        cases hnone
      · obtain ⟨-, -, reply, hreply, -⟩ := hfollows.refused hgrammar
        rw [hsilent] at hreply
        cases hreply
    · have hgrammar : PortGrammar rest := by
        by_contra hnot
        have hnone := (hfollows.refused hnot).2.1
        rw [hsome] at hnone
        cases hnone
      obtain ⟨f, hf, rfl⟩ := hgrammar
      obtain ⟨rfl, -⟩ := Prod.mk.inj (Except.ok.inj (hargs.symm.trans hf.arguments))
      exact ⟨f, hf, rfl, hvalid⟩
  · rintro ⟨f, hf, rfl, hvalid⟩
    refine ⟨fun g hg htext => ?_, fun hnot => absurd ⟨f, hf, rfl⟩ hnot⟩
    have hargs : portArguments f.text = .ok (g.host, UInt16.ofNat g.port) := htext ▸ hg.arguments
    obtain ⟨hhost, -⟩ := Prod.mk.inj (Except.ok.inj (hargs.symm.trans hf.arguments))
    rcases handlePort_cases o s f.text with ⟨hinvalid, -⟩ | ⟨host, port, hargs', -, hsome⟩
    · rw [hinvalid _ _ hf.arguments] at hvalid
      cases hvalid
    · obtain ⟨rfl, rfl⟩ := Prod.mk.inj (Except.ok.inj (hargs'.symm.trans hargs))
      exact ⟨_, hsome, by rw [UInt16.toNat_ofNat', Nat.mod_eq_of_lt hg.port_lt]⟩

theorem port_grammar_local : FollowsGrammar (chars "127,0,0,1,4,1")
    (executeCommand { disk := homeDisk } (fun _ => none) (chars "PORT (127,0,0,1,4,1)")
      (.start (.start 10020 (chars "/home")) homeDisk)) := by
  let f : PortFields := ⟨chars "127", chars "0", chars "0", chars "1", chars "4", chars "1"⟩
  have hvalid : f.Valid := by
    intro s hs
    simp only [PortFields.toList, List.mem_cons, List.not_mem_nil, or_false, f] at hs
    rcases hs with rfl | rfl | rfl | rfl | rfl | rfl <;>
      exact ⟨by decide, by simp [isDigit, chars], by decide⟩
  have hport : (parseCommand (chars "PORT (127,0,0,1,4,1)")).1 = .port := by decide
  exact (port_grammar_iff _ _ _ hport).mpr ⟨f, hvalid, rfl, rfl⟩

/-- Three numbers are not enough, and the fourth is read all the same. -/
theorem port_reads_missing : ¬ FollowsGrammar (chars "1,2,3")
    (executeCommand { disk := homeDisk } (fun _ => none) (chars "PORT 1,2,3")
      (.start (.start 10020 (chars "/home")) homeDisk)) := by
  have hfault : (executeCommand { disk := homeDisk } (fun _ => none) (chars "PORT 1,2,3")
      (.start (.start 10020 (chars "/home")) homeDisk)).fault = some .outOfRange := by
    decide +kernel
  intro hfollows
  refine (hfollows.refused ?_).1 hfault
  rintro ⟨f, hf, htext⟩
  have hsplit := hf.split_text
  rw [← htext] at hsplit
  have hlength : 3 = 6 := congrArg List.length hsplit
  exact absurd hlength (by decide)

end Ftp
end NetworkProtocols
