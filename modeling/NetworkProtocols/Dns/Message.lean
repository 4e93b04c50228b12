import NetworkProtocols.Lib.NetworkOrder

/-!
# The header of a DNS message

The base class `DNSMessage` of queries and responses: six words in network order.
-/

namespace NetworkProtocols
namespace Dns

open Bytes

/-- `QType`, as far as the code compares with it. -/
def QType.A : UInt16 := 1
def QType.CNAME : UInt16 := 5

structure DNSMessage where
  id : UInt16 := 0
  flags : UInt16 := 0
  qCount : UInt16 := 0
  aCount : UInt16 := 0
  nsCount : UInt16 := 0
  arCount : UInt16 := 0
  deriving DecidableEq

namespace DNSMessage

/-- The message and the number of bytes it took. -/
def decode (buffer : Bytes) : Except Halt (DNSMessage × ℕ) := do
  let id ← ntohs buffer
  let flags ← ntohs (buffer.drop 2)
  let qCount ← ntohs (buffer.drop 4)
  let aCount ← ntohs (buffer.drop 6)
  let nsCount ← ntohs (buffer.drop 8)
  let arCount ← ntohs (buffer.drop 10)
  pure ({ id, flags, qCount, aCount, nsCount, arCount }, 12)

def encode (m : DNSMessage) : Bytes :=
  htons m.id ++ htons m.flags ++ htons m.qCount ++ htons m.aCount ++ htons m.nsCount ++
    htons m.arCount

def getFlagQR (m : DNSMessage) : Bool := m.flags >>> 15 == 1

/-- `setFlagQR(true)`. -/
def setFlagQR (m : DNSMessage) : DNSMessage := { m with flags := m.flags ||| 0x8000 }

def setFieldRcode (m : DNSMessage) (rcode : UInt16) : DNSMessage :=
  { m with flags := (m.flags &&& 0xFFF0) ||| (rcode &&& 0xF) }

@[simp] theorem encode_length (m : DNSMessage) : m.encode.length = 12 := rfl

@[simp] theorem decode_encode (m : DNSMessage) (rest : Bytes) :
    decode (m.encode ++ rest) = .ok (m, 12) := by
  simp [decode, encode, htons, ntohs, bind, Except.bind, pure, Except.pure]

theorem decode_eq_ok {buffer : Bytes} {m : DNSMessage} {n : ℕ} :
    decode buffer = .ok (m, n) ↔ n = 12 ∧ ∃ rest, buffer = m.encode ++ rest := by
  constructor
  · intro h
    match buffer, h with
    | a :: b :: c :: d :: e :: f :: g :: i :: j :: k :: l :: o :: rest, h =>
      simp only [decode, ntohs, List.drop, bind, Except.bind, pure, Except.pure, Except.ok.injEq,
        Prod.mk.injEq] at h
      obtain ⟨rfl, rfl⟩ := h
      refine ⟨rfl, rest, ?_⟩
      simp [encode, htons_word]
  · rintro ⟨rfl, rest, rfl⟩
    exact decode_encode m rest

theorem decode_reader (buffer : Bytes) : Reader (decode buffer) :=
  (ntohs_reader _).bind fun _ => (ntohs_reader _).bind fun _ => (ntohs_reader _).bind fun _ =>
    (ntohs_reader _).bind fun _ => (ntohs_reader _).bind fun _ => (ntohs_reader _).bind fun _ =>
      .pure _

theorem decode_eq_error {buffer : Bytes} {e : Halt} :
    decode buffer = .error e ↔ e = .outside ∧ buffer.length < 12 := by
  by_cases h : 12 ≤ buffer.length
  · match buffer, h with
    | a :: b :: c :: d :: e :: f :: g :: i :: j :: k :: l :: o :: rest, _ =>
      simp [decode, ntohs, bind, Except.bind, pure, Except.pure]
  · have hout : decode buffer = .error .outside := by
      refine (decode_reader buffer).outside_iff.mpr ?_
      rintro ⟨r, hd⟩
      obtain ⟨-, rest, rfl⟩ := decode_eq_ok.mp hd
      exact h (by simp)
    rw [hout]
    simp only [Except.error.injEq]
    constructor
    · rintro rfl
      exact ⟨rfl, by omega⟩
    · rintro ⟨rfl, -⟩
      rfl

end DNSMessage

end Dns
end NetworkProtocols
