import NetworkProtocols.Lib.Bytes
import NetworkProtocols.Lib.Program

/-!
# Words in network order

`htons` and `htonl` are used to write a word high byte first, `ntohs` and `ntohl` to read
it. A reader looks at the front of the bytes it is given, and leaves them when there are
too few.
-/

namespace NetworkProtocols
namespace Bytes

/-- The bytes in memory of `htons(w)`. -/
def htons (w : UInt16) : Bytes := [highByte w, lowByte w]

def htonl (w : UInt32) : Bytes :=
  htons (UInt16.ofNat (w.toNat / 65536)) ++ htons (UInt16.ofNat w.toNat)

/-- `ntohs(*src)`. -/
def ntohs : Bytes → Except Halt UInt16
  | hi :: lo :: _ => .ok (word lo hi)
  | _ => .error .outside

def ntohl (src : Bytes) : Except Halt UInt32 := do
  let hi ← ntohs src
  let lo ← ntohs (src.drop 2)
  pure (UInt32.ofNat (65536 * hi.toNat + lo.toNat))

/-- `std::copy_n` from the front of the bytes. -/
def copyN (n : ℕ) (src : Bytes) : Except Halt Bytes :=
  if n ≤ src.length then .ok (src.take n) else .error .outside

@[simp] theorem htons_length (w : UInt16) : (htons w).length = 2 := rfl
@[simp] theorem htonl_length (w : UInt32) : (htonl w).length = 4 := rfl

theorem htons_word (lo hi : Byte) : htons (word lo hi) = [hi, lo] := by
  obtain ⟨hlo, hhi⟩ := word_eq_iff.mp (rfl : word lo hi = word lo hi)
  rw [htons, ← hlo, ← hhi]

@[simp] theorem ntohs_htons (w : UInt16) (rest : Bytes) : ntohs (htons w ++ rest) = .ok w := by
  simp [htons, ntohs]

theorem ntohs_eq_ok {src : Bytes} {w : UInt16} :
    ntohs src = .ok w ↔ ∃ rest, src = htons w ++ rest := by
  constructor
  · intro h
    match src, h with
    | hi :: lo :: rest, h =>
      obtain ⟨rfl, rfl⟩ := word_eq_iff.mp (Except.ok.inj h)
      exact ⟨rest, rfl⟩
  · rintro ⟨rest, rfl⟩
    exact ntohs_htons w rest

theorem ntohs_eq_error {src : Bytes} {e : Halt} :
    ntohs src = .error e ↔ e = .outside ∧ src.length < 2 := by
  match src with
  | [] => simp [ntohs, eq_comm]
  | [b] => simp [ntohs, eq_comm]
  | hi :: lo :: rest => simp [ntohs]

theorem ntohs_reader (src : Bytes) : Reader (ntohs src) := fun _ h => (ntohs_eq_error.mp h).1

@[simp] theorem ntohl_htonl (w : UInt32) (rest : Bytes) : ntohl (htonl w ++ rest) = .ok w := by
  have hw := w.toNat_lt
  have hdrop : (htonl w ++ rest).drop 2 = htons (UInt16.ofNat w.toNat) ++ rest := rfl
  rw [ntohl, hdrop, htonl, List.append_assoc, ntohs_htons, ntohs_htons]
  apply congrArg Except.ok
  apply UInt32.toNat.inj
  simp only [UInt16.toNat_ofNat', UInt32.toNat_ofNat']
  omega

theorem htonl_halves (hi lo : UInt16) :
    htonl (UInt32.ofNat (65536 * hi.toNat + lo.toNat)) = htons hi ++ htons lo := by
  have hh := hi.toNat_lt
  have hl := lo.toNat_lt
  have hn : (UInt32.ofNat (65536 * hi.toNat + lo.toNat)).toNat = 65536 * hi.toNat + lo.toNat := by
    rw [UInt32.toNat_ofNat']
    omega
  have h1 : UInt16.ofNat ((65536 * hi.toNat + lo.toNat) / 65536) = hi := by
    apply UInt16.toNat.inj
    rw [UInt16.toNat_ofNat']
    omega
  have h2 : UInt16.ofNat (65536 * hi.toNat + lo.toNat) = lo := by
    apply UInt16.toNat.inj
    rw [UInt16.toNat_ofNat']
    omega
  rw [htonl, hn, h1, h2]

theorem ntohl_eq_ok {src : Bytes} {w : UInt32} :
    ntohl src = .ok w ↔ ∃ rest, src = htonl w ++ rest := by
  constructor
  · intro h
    cases hh : ntohs src with
    | error e => rw [ntohl, hh] at h; cases h
    | ok hi =>
      obtain ⟨rest, rfl⟩ := ntohs_eq_ok.mp hh
      have hdrop : (htons hi ++ rest).drop 2 = rest := rfl
      cases hl : ntohs rest with
      | error e => rw [ntohl, hh, hdrop] at h; simp only [hl, bind, Except.bind] at h; cases h
      | ok lo =>
        obtain ⟨rest', rfl⟩ := ntohs_eq_ok.mp hl
        rw [ntohl, hh, hdrop] at h
        simp only [hl, bind, Except.bind, pure, Except.pure, Except.ok.injEq] at h
        refine ⟨rest', ?_⟩
        rw [← h, htonl_halves, List.append_assoc]
  · rintro ⟨rest, rfl⟩
    exact ntohl_htonl w rest

theorem ntohl_eq_error {src : Bytes} {e : Halt} :
    ntohl src = .error e ↔ e = .outside ∧ src.length < 4 := by
  match src with
  | [] => simp [ntohl, ntohs, bind, Except.bind, eq_comm]
  | [a] => simp [ntohl, ntohs, bind, Except.bind, eq_comm]
  | [a, b] => simp [ntohl, ntohs, bind, Except.bind, eq_comm]
  | [a, b, c] => simp [ntohl, ntohs, bind, Except.bind, eq_comm]
  | a :: b :: c :: d :: rest => simp [ntohl, ntohs, bind, Except.bind, pure, Except.pure]

theorem ntohl_reader (src : Bytes) : Reader (ntohl src) := fun _ h => (ntohl_eq_error.mp h).1

@[simp] theorem copyN_append (a rest : Bytes) : copyN a.length (a ++ rest) = .ok a := by
  simp [copyN]

theorem copyN_eq_ok {n : ℕ} {src a : Bytes} :
    copyN n src = .ok a ↔ a.length = n ∧ ∃ rest, src = a ++ rest := by
  constructor
  · intro h
    unfold copyN at h
    split at h
    · rename_i hn
      obtain rfl := Except.ok.inj h
      exact ⟨List.length_take_of_le hn, src.drop n, (List.take_append_drop n src).symm⟩
    · cases h
  · rintro ⟨rfl, rest, rfl⟩
    exact copyN_append a rest

theorem copyN_eq_error {n : ℕ} {src : Bytes} {e : Halt} :
    copyN n src = .error e ↔ e = .outside ∧ src.length < n := by
  unfold copyN
  split <;> simp [eq_comm] <;> omega

theorem copyN_reader (n : ℕ) (src : Bytes) : Reader (copyN n src) :=
  fun _ h => (copyN_eq_error.mp h).1

end Bytes
end NetworkProtocols
