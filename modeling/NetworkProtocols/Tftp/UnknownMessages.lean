import NetworkProtocols.Tftp.UnknownInGet
import NetworkProtocols.Tftp.UnknownInPut

/-!
# Messages of unknown type

What datagrams of no awaited type, inserted into those that a client receives, change of its call.
-/

namespace NetworkProtocols
namespace Tftp

open Insertion

/-- In every run of `getFile` and of `putFile`, inserted messages of unknown type change neither
what has been returned and stored nor what has been sent, if and only if no message of the run
makes a difference behind the number and the buffer that they leave: of `getFile`, none that may be
DATA, unless nothing can be acknowledged and the file is the same without it; of `putFile`, none
that is cut inside its opcode or inside the number of an ACK. -/
theorem unknown_messages_ignored_iff (c : TFTPClient) (o : ClientOutcomes) (src dst : Bytes)
    (answers : List Answer) :
    (Undisturbed (Call.next GetFile.turn) GetFile.see (IsUnknown .data) (c.getFile o src dst).1
        answers ↔
      Meets (Call.next GetFile.turn) GetFile.Unaffected (c.getFile o src dst).1 answers) ∧
    (Undisturbed (Call.next PutFile.turn) PutFile.see (IsUnknown .ack) (c.putFile o src dst).1
        answers ↔
      Meets (Call.next PutFile.turn) PutFile.Unaffected (c.putFile o src dst).1 answers) := by
  constructor
  · refine Call.undisturbed_iff GetFile.Opened GetFile.Same ?_ ?_ ?_ ?_ ?_ ?_ ?_
      (GetFile.opened_getFile c o src dst) answers
    · exact fun g h => ⟨h, _, _, .inl rfl, rfl⟩
    · rintro g _ ⟨-, buffer, n, -, rfl⟩
      rfl
    · exact fun g a g' h hturn => h.turn a hturn
    · rintro (g | ⟨result, c⟩ | c) a hne
      · exact absurd rfl hne
      · trivial
      · trivial
    · exact fun g g' a h hfine => h.turn a hfine
    · exact fun g g' a h ha => h.unknown ha
    · exact fun g a h hall => h.unaffected a hall
  · refine Call.undisturbed_iff (fun _ => True) PutFile.Same ?_ ?_ ?_ ?_ ?_ ?_ ?_
      (fun _ _ => trivial) answers
    · exact fun p _ => ⟨_, .inl rfl, rfl⟩
    · rintro p _ ⟨buffer, -, rfl⟩
      rfl
    · exact fun _ _ _ _ _ => trivial
    · rintro (p | ⟨result, c⟩ | c) a hne
      · exact absurd rfl hne
      · trivial
      · trivial
    · exact fun p p' a h hfine => h.turn a hfine
    · exact fun p p' a h ha => h.unknown ha
    · exact fun p a _ hall => p.unaffected a hall

/-- The download of an empty file succeeds, and fails with one unknown message in front of its
block. -/
theorem unknown_message_fails_get :
    ¬ ∀ (c : TFTPClient) (o : ClientOutcomes) (src dst : Bytes) (answers : List Answer),
      Undisturbed (Call.next GetFile.turn) GetFile.see (IsUnknown .data) (c.getFile o src dst).1
        answers := by
  intro h
  let data : Answer := ({}, some (dataMessage 1 []))
  let unknown : Answer := ({}, some (filler 0 0))
  have hseen := h (.init .binary (.single [] [])) {} [97] [98] [data] [data] (List.prefix_refl _)
    [unknown, data] (.extra (isUnknown_filler 0 0 .data) (.keep .nil))
  have hstatus := congrArg (fun r => r.1.1) hseen
  revert hstatus
  decide

end Tftp
end NetworkProtocols
