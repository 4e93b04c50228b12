import NetworkProtocols.Ftp.Effects
import NetworkProtocols.Ftp.PortGrammar

/-!
# The address that PASV names

PASV writes the numbers that PORT reads: what the one says of its port the other understands.
-/

namespace NetworkProtocols
namespace Ftp

open Bytes

theorem digit_byte {c : Char} (h : c.isDigit = true) :
    (UInt8.ofNat c.toNat).toNat = c.toNat ∧ isDigit (UInt8.ofNat c.toNat) = true := by
  have hrange : 48 ≤ c.toNat ∧ c.toNat ≤ 57 := Char.isDigit_iff_toNat.mp h
  have hvalue : (UInt8.ofNat c.toNat).toNat = c.toNat := by
    rw [UInt8.toNat_ofNat']
    omega
  refine ⟨hvalue, ?_⟩
  rw [isDigit, Bool.and_eq_true, decide_eq_true_eq, decide_eq_true_eq, UInt8.le_iff_toNat_le,
    UInt8.le_iff_toNat_le, hvalue]
  exact hrange

theorem isDigit_of_mem_decimal {n : ℕ} {b : Byte} (h : b ∈ decimal n) : isDigit b = true := by
  obtain ⟨c, hc, rfl⟩ := List.mem_map.mp h
  exact (digit_byte (Nat.isDigit_of_mem_toDigits (by decide) (by decide) hc)).2

theorem digitsValue_decimal (n : ℕ) : digitsValue (decimal n) = n := by
  have hfold : ∀ (cs : List Char), (∀ c ∈ cs, c.isDigit = true) → ∀ acc,
      (cs.map fun c => UInt8.ofNat c.toNat).foldl (fun n b => 10 * n + (b.toNat - 48)) acc =
        Nat.ofDigitChars 10 cs acc := by
    intro cs
    induction cs with
    | nil => exact fun _ _ => Nat.ofDigitChars_nil.symm
    | cons c cs ih =>
      intro hdigits acc
      rw [List.map_cons, List.foldl_cons, Nat.ofDigitChars_cons,
        (digit_byte (hdigits c List.mem_cons_self)).1,
        ih fun other hmem => hdigits other (List.mem_cons_of_mem _ hmem)]
      rfl
  have hdigits := hfold (Nat.toDigits 10 n)
    (fun c hc => Nat.isDigit_of_mem_toDigits (by decide) (by decide) hc) 0
  rw [digitsValue, decimal, hdigits, Nat.ofDigitChars_ten_toDigits]

theorem octet_decimal {n : ℕ} (h : n ≤ 255) : Octet (decimal n) where
  nonempty := by
    rw [decimal, ne_eq, List.map_eq_nil_iff]
    exact Nat.toDigits_ne_nil
  digits _ := isDigit_of_mem_decimal
  le := by rwa [digitsValue_decimal]

/-- What stands between the parentheses of a reply to PASV. -/
def passiveFields (port : UInt16) : PortFields where
  h1 := chars "127"
  h2 := chars "0"
  h3 := chars "0"
  h4 := chars "1"
  p1 := decimal (port.toNat / 256)
  p2 := decimal (port.toNat % 256)

theorem passiveFields_valid (port : UInt16) : (passiveFields port).Valid := by
  intro s hs
  have hport := port.toNat_lt
  simp only [PortFields.toList, passiveFields, List.mem_cons, List.not_mem_nil, or_false] at hs
  rcases hs with rfl | rfl | rfl | rfl | rfl | rfl
  · exact ⟨by decide, by simp [isDigit, chars], by decide⟩
  · exact ⟨by decide, by simp [isDigit, chars], by decide⟩
  · exact ⟨by decide, by simp [isDigit, chars], by decide⟩
  · exact ⟨by decide, by simp [isDigit, chars], by decide⟩
  · exact octet_decimal (by omega)
  · exact octet_decimal (by omega)

theorem passiveFields_port (port : UInt16) : (passiveFields port).port = port.toNat := by
  rw [PortFields.port, passiveFields, digitsValue_decimal, digitsValue_decimal]
  omega

def passiveReply (port : UInt16) : Bytes :=
  chars "227 Entering Passive Mode (" ++ (passiveFields port).text ++ chars ")."

theorem handlePasv_replies (o : Outcomes) (s : FTPSession) :
    ((Execution.start s o.disk).handlePasv o).replies = [passiveReply s.dataPort] := by
  obtain ⟨dataSocket, acceptor, heq⟩ := openDataConnectionPassive_eq o s.dataPort
    ((Execution.start s o.disk).sendMessageToClient _)
  have hreplies := congrArg Execution.replies heq
  have hhost : split (chars "127.0.0.1") 46 = [chars "127", chars "0", chars "0", chars "1"] := by
    decide
  unfold Execution.handlePasv
  rw [hhost]
  exact hreplies

theorem stripParentheses_between {before text behind : Bytes} (hleft : leftParenthesis ∉ before)
    (hright : rightParenthesis ∉ text) :
    stripParentheses (before ++ leftParenthesis :: (text ++ rightParenthesis :: behind)) =
      text := by
  have hfirst : ∀ {front rest : Bytes} {b : Byte}, b ∉ front →
      (front ++ b :: rest).findIdx (· == b) = front.length := by
    intro front rest b hmem
    have hfront : front.findIdx (· == b) = front.length :=
      List.findIdx_eq_length.mpr fun c hc => beq_false_of_ne fun h => hmem (h ▸ hc)
    rw [List.findIdx_append, hfront, if_neg (Nat.lt_irrefl _), List.findIdx_cons, beq_self_eq_true]
    exact Nat.zero_add _
  have hdrop : (before ++ leftParenthesis :: (text ++ rightParenthesis :: behind)).drop
      (before.length + 1) = text ++ rightParenthesis :: behind := by
    rw [List.append_cons, List.drop_left' (by simp)]
  have hmem : leftParenthesis ∈ before ++ leftParenthesis :: (text ++ rightParenthesis :: behind) :=
    List.mem_append_right _ List.mem_cons_self
  rw [stripParentheses, if_pos hmem, hfirst hleft, hdrop, hfirst hright, List.take_left]

theorem PortFields.Valid.mem_text {f : PortFields} (h : f.Valid) {b : Byte} (hb : b ∈ f.text) :
    isDigit b = true ∨ b = comma := by
  have hall : ∀ fields : List Bytes, (∀ s ∈ fields, Octet s) →
      b ∈ [comma].intercalate fields → isDigit b = true ∨ b = comma := by
    intro fields
    induction fields with
    | nil => exact fun _ hmem => nomatch hmem
    | cons s fields ih =>
      intro hoctets hmem
      rw [List.forall_mem_cons] at hoctets
      cases fields with
      | nil =>
        rw [List.intercalate_singleton] at hmem
        exact .inl (hoctets.1.digits b hmem)
      | cons s' fields =>
        rw [List.intercalate_cons_cons, List.append_assoc, List.mem_append, List.mem_append,
          List.mem_singleton] at hmem
        rcases hmem with hmem | rfl | hmem
        · exact .inl (hoctets.1.digits b hmem)
        · exact .inr rfl
        · exact ih hoctets.2 hmem
  exact hall f.toList h hb

theorem stripParentheses_passiveReply (port : UInt16) :
    stripParentheses (passiveReply port) = (passiveFields port).text := by
  have hparts : passiveReply port = chars "227 Entering Passive Mode " ++ leftParenthesis ::
      ((passiveFields port).text ++ rightParenthesis :: chars ".") := by
    rw [passiveReply, List.append_assoc]
    rfl
  rw [hparts]
  refine stripParentheses_between (by decide) fun hmem => ?_
  rcases (passiveFields_valid port).mem_text hmem with hdigit | hcomma
  · exact absurd hdigit (by decide)
  · exact absurd hcomma (by decide)

/-- The address of a PASV reply is the one that PORT reads out of it: for every data port,
the reply as the argument of PORT makes any session attempt that port of the host. -/
theorem pasv_read_by_port (o o' : Outcomes) (users : UsersDB) (s t : FTPSession)
    {line line' reply : Bytes} (hpasv : (parseCommand line).1 = .pasv)
    (hreply : reply ∈ (executeCommand o users line (.start s o.disk)).replies)
    (hport : (parseCommand line').1 = .port) (hargs : (parseCommand line').2 = reply)
    (hvalid : o'.addressValid (chars "127.0.0.1") = true) :
    (executeCommand o' users line' (.start t o'.disk)).endpoints =
      [(chars "127.0.0.1", s.dataPort)] := by
  have hanswer : executeCommand o users line (.start s o.disk) =
      (Execution.start s o.disk).handlePasv o := by
    simp only [executeCommand, hpasv]
  have hexecute : executeCommand o' users line' (.start t o'.disk) =
      (Execution.start t o'.disk).handlePort o' (stripParentheses reply) := by
    simp only [executeCommand, hport, hargs]
  rw [hanswer, handlePasv_replies, List.mem_singleton] at hreply
  have hread : portArguments (stripParentheses reply) =
      .ok (chars "127.0.0.1", s.dataPort) := by
    rw [hreply, stripParentheses_passiveReply, (passiveFields_valid s.dataPort).arguments,
      passiveFields_port, UInt16.ofNat_toNat]
    rfl
  rcases handlePort_cases o' t (stripParentheses reply) with
    ⟨hinvalid, -⟩ | ⟨host, port, hargs, -, hattempt⟩
  · exact absurd hvalid (Bool.not_eq_true _ ▸ hinvalid _ _ hread)
  · obtain ⟨rfl, rfl⟩ := Prod.mk.inj (Except.ok.inj (hargs.symm.trans hread))
    rw [hexecute, hattempt]

theorem pasv_read_by_port_local :
    (executeCommand { disk := homeDisk } (fun _ => none)
      (chars "PORT 227 Entering Passive Mode (127,0,0,1,39,36).")
      (.start (.start 10020 (chars "/home")) homeDisk)).endpoints =
        [(chars "127.0.0.1", 10020)] :=
  @pasv_read_by_port { disk := homeDisk } { disk := homeDisk } (fun _ => none)
    (.start 10020 (chars "/home")) (.start 10020 (chars "/home")) (chars "PASV")
    (chars "PORT 227 Entering Passive Mode (127,0,0,1,39,36).")
    (chars "227 Entering Passive Mode (127,0,0,1,39,36).") (by decide) (by decide +kernel)
    (by decide) (by decide +kernel) rfl

end Ftp
end NetworkProtocols
