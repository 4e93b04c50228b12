import Mathlib.Algebra.GroupWithZero.Nat
import NetworkProtocols.Dns.Resolver

/-!
# Names of addresses and names of hosts

A reverse name is a prefix and the suffix `.in-addr.arpa`. `getIpAddrFromQname` looks for the suffix
anywhere in the name and takes what stands in front of its first occurrence.
-/

namespace NetworkProtocols
namespace Dns

open Bytes

section Find

variable {pattern s front rest : Bytes} {p : ℕ}

/-- What `find` finds is an occurrence. -/
theorem find_occurs (h : find pattern s = some p) :
    p ≤ s.length ∧ ∃ rest, s = s.take p ++ (pattern ++ rest) := by
  induction s generalizing p with
  | nil =>
    rw [find] at h
    split at h
    · rename_i hnil
      obtain rfl := Option.some.inj h
      exact ⟨le_rfl, [], by rw [hnil]; rfl⟩
    · cases h
  | cons x s ih =>
    rw [find] at h
    split at h
    · rename_i hprefix
      obtain rfl := Option.some.inj h
      obtain ⟨rest, hrest⟩ := List.isPrefixOf_iff_prefix.mp hprefix
      exact ⟨Nat.zero_le _, rest, hrest.symm⟩
    · obtain ⟨q, hq, rfl⟩ := Option.map_eq_some_iff.mp h
      obtain ⟨hle, rest, hs⟩ := ih hq
      exact ⟨Nat.succ_le_succ hle, rest, congrArg (x :: ·) hs⟩

theorem find_getElem? (h : find pattern s = some p) {i : ℕ} (hi : i < pattern.length) :
    s[p + i]? = pattern[i]? := by
  obtain ⟨hle, rest, hs⟩ := find_occurs h
  have hp : (s.take p).length = p := List.length_take_of_le hle
  rw [hs, List.getElem?_append_right (by omega), hp, Nat.add_sub_cancel_left,
    List.getElem?_append_left hi]

/-- It finds one wherever there is one, and none behind it. -/
theorem find_append (pattern front rest : Bytes) :
    ∃ p ≤ front.length, find pattern (front ++ (pattern ++ rest)) = some p := by
  induction front with
  | nil =>
    refine ⟨0, le_rfl, ?_⟩
    rw [List.nil_append]
    cases hs : pattern ++ rest with
    | nil => rw [find, if_pos (List.append_eq_nil_iff.mp hs).1]
    | cons x s =>
      rw [find, if_pos]
      rw [List.isPrefixOf_iff_prefix, ← hs]
      exact List.prefix_append pattern rest
  | cons x front ih =>
    rw [List.cons_append, find]
    split
    · exact ⟨0, Nat.zero_le _, rfl⟩
    · obtain ⟨p, hle, hp⟩ := ih
      exact ⟨p + 1, Nat.succ_le_succ hle, by rw [hp]; rfl⟩

theorem find_append_eq (pattern : Bytes) {x : Byte} {i : ℕ} (hx : pattern[i]? = some x)
    (hfirst : ∀ j < i, pattern[j]? ≠ some x) (hfront : x ∉ front) (rest : Bytes) :
    find pattern (front ++ (pattern ++ rest)) = some front.length := by
  obtain ⟨p, hle, hp⟩ := find_append pattern front rest
  obtain ⟨hi, -⟩ := List.getElem?_eq_some_iff.mp hx
  have hbyte := (find_getElem? hp hi).trans hx
  by_cases hin : p + i < front.length
  · rw [List.getElem?_append_left hin] at hbyte
    exact absurd (List.mem_of_getElem? hbyte) hfront
  · rw [List.getElem?_append_right (by omega), List.getElem?_append_left (by omega)] at hbyte
    have hi' : ¬ p + i - front.length < i := fun hlt => hfirst _ hlt hbyte
    rw [hp, show p = front.length by omega]

end Find

def reverseLabels (name : Bytes) : Bytes := joinDots (name.splitOn dot).reverse

theorem joinDots_length {labels : List Bytes} (h : labels ≠ []) :
    (joinDots labels).length + 1 = (labels.map fun l => l.length + 1).sum := by
  have hlength := congrArg List.length (dot_joinDots h)
  rw [List.length_cons, List.length_flatMap] at hlength
  exact hlength

theorem reverseLabels_length (name : Bytes) : (reverseLabels name).length = name.length := by
  have hne := List.splitOn_ne_nil dot name
  have hjoin : joinDots (name.splitOn dot) = name := List.intercalate_splitOn dot
  have hlength := joinDots_length hne
  have hreverse := joinDots_length (List.reverse_ne_nil_iff.mpr hne)
  rw [List.map_reverse, List.sum_reverse, ← hlength, hjoin] at hreverse
  exact Nat.succ.inj hreverse

theorem reverseLabels_eq_nil {name : Bytes} : reverseLabels name = [] ↔ name = [] := by
  rw [← List.length_eq_zero_iff, reverseLabels_length, List.length_eq_zero_iff]

theorem reverseLabels_joinDots {labels : List Bytes} (hne : labels ≠ [])
    (hdot : ∀ l ∈ labels, dot ∉ l) : reverseLabels (joinDots labels) = joinDots labels.reverse := by
  have hsplit : (joinDots labels).splitOn dot = labels := List.splitOn_intercalate dot hdot hne
  rw [reverseLabels, hsplit]

def DNSMessage.getFieldRcode (m : DNSMessage) : UInt16 := m.flags &&& 0xF

theorem DNSMessage.getFieldRcode_set (m : DNSMessage) (rcode : UInt16) :
    (m.setFieldRcode rcode).getFieldRcode = rcode &&& 0xF := by
  apply UInt16.toNat.inj
  rw [getFieldRcode, setFieldRcode, UInt16.toNat_and, UInt16.toNat_or, UInt16.toNat_and,
    UInt16.toNat_and, Nat.and_or_distrib_right, Nat.and_assoc, Nat.and_assoc]
  simp

namespace DNSResolver

def suffix : Bytes := chars ".in-addr.arpa"

/-- The answer of the first record with this key, and nothing if there is none. -/
def IsFirst (key answer : Record → Bytes) (records : List Record) (k a : Bytes) : Prop :=
  (∃ front record back, records = front ++ record :: back ∧ (∀ r ∈ front, key r ≠ k) ∧
    key record = k ∧ a = answer record) ∨
  (∀ r ∈ records, key r ≠ k) ∧ a = []

/-- A response to a query for a name, as the kind of the name asks for it. -/
structure AnswersByKind (records : List Record) (name : Bytes) (response : DNSResponse) :
    Prop where
  reverse : ∀ front, front ≠ [] → name = front ++ suffix →
    IsFirst (·.1) (·.2) records (reverseLabels front) response.data
  forward : (∀ front, front ≠ [] → name ≠ front ++ suffix) →
    IsFirst (·.2) (·.1) records name response.data
  rcode : response.getFieldRcode = Rcode.NameError ↔ response.data = []

/-- The suffix does not occur, or its first occurrence ends the name, or it is the front of a name
that does not end in the suffix. -/
def KindRecognised (name : Bytes) : Prop :=
  ∀ p, find suffix name = some p →
    p + suffix.length = name.length ∨ p = 0 ∧ ¬ suffix <:+ name

/-- The address that a name is the reverse name of. -/
def kind (name : Bytes) : Option Bytes :=
  if suffix <:+ name ∧ name ≠ suffix then
    some (reverseLabels (name.take (name.length - suffix.length)))
  else none

def takenFor (name : Bytes) : Option Bytes :=
  if getIpAddrFromQname name = [] then none else some (getIpAddrFromQname name)

def lookup (records : List Record) (name : Bytes) : Option Bytes → Bytes
  | none => findAddress records name
  | some ipAddr => findDomainName records ipAddr

variable {records : List Record} {name : Bytes} {query : DNSQuery} {response : DNSResponse}

theorem isFirst_iff {key answer : Record → Bytes} {k a : Bytes} :
    IsFirst key answer records k a ↔
      a = match records.find? (fun record => key record == k) with
        | some record => answer record
        | none => [] := by
  constructor
  · rintro (⟨front, record, back, rfl, hfront, hk, rfl⟩ | ⟨hnone, rfl⟩)
    · have hfind : (front ++ record :: back).find? (fun record => key record == k) = some record :=
        List.find?_eq_some_iff_append.mpr
          ⟨by simpa using hk, front, back, rfl, by simpa using hfront⟩
      rw [hfind]
    · have hfind : records.find? (fun record => key record == k) = none :=
        List.find?_eq_none.mpr (by simpa using hnone)
      rw [hfind]
  · rintro rfl
    cases hfind : records.find? fun record => key record == k with
    | none => exact .inr ⟨by simpa using hfind, rfl⟩
    | some record =>
      obtain ⟨hk, front, back, rfl, hfront⟩ := List.find?_eq_some_iff_append.mp hfind
      exact .inl ⟨front, record, back, rfl, by simpa using hfront, by simpa using hk, rfl⟩

theorem getIpAddrFromQname_eq (name : Bytes) :
    getIpAddrFromQname name =
      match find suffix name with
      | none => []
      | some p => reverseLabels (name.take p) := rfl

theorem process_data (records : List Record) (query : DNSQuery) (response : DNSResponse) :
    (process records query response).data = lookup records query.name (takenFor query.name) := by
  unfold takenFor
  by_cases hip : getIpAddrFromQname query.name = []
  · simp [process, lookup, hip]
  · simp [process, lookup, hip]

theorem process_rcode (records : List Record) (query : DNSQuery) (response : DNSResponse) :
    (process records query response).getFieldRcode =
      if (process records query response).data = [] then Rcode.NameError else Rcode.NoError := by
  refine (DNSMessage.getFieldRcode_set _ _).trans ?_
  change (if (process records query response).data = [] then Rcode.NameError else Rcode.NoError) &&&
    0xF = _
  by_cases hdata : (process records query response).data = []
  · rw [if_pos hdata]
    rfl
  · rw [if_neg hdata]
    rfl

theorem process_rcode_iff (records : List Record) (query : DNSQuery) (response : DNSResponse) :
    (process records query response).getFieldRcode = Rcode.NameError ↔
      (process records query response).data = [] := by
  have hne : Rcode.NoError ≠ Rcode.NameError := by decide
  rw [process_rcode]
  split
  · exact iff_of_true rfl ‹_›
  · exact iff_of_false hne ‹_›

/-- What the kind of a name asks for is the lookup for the address that it is made of. -/
theorem answersByKind_iff :
    AnswersByKind records query.name (process records query response) ↔
      lookup records query.name (takenFor query.name) =
        lookup records query.name (kind query.name) := by
  rw [← process_data]
  unfold kind
  by_cases h : suffix <:+ query.name ∧ query.name ≠ suffix
  · rw [if_pos h]
    obtain ⟨⟨front, hname⟩, hne⟩ := h
    have htake : query.name.take (query.name.length - suffix.length) = front := by
      rw [← hname, List.length_append, Nat.add_sub_cancel, List.take_left]
    have hfront : front ≠ [] := fun hnil => hne (by rw [← hname, hnil, List.nil_append])
    rw [htake]
    refine ⟨fun h => isFirst_iff.mp (h.reverse front hfront hname.symm), fun h => ?_⟩
    refine ⟨fun front' hfront' hname' => ?_, fun hno => absurd hname.symm (hno front hfront),
      process_rcode_iff records query response⟩
    obtain rfl := List.append_cancel_right (hname.trans hname')
    exact isFirst_iff.mpr h
  · rw [if_neg h]
    have hno : ∀ front, front ≠ [] → query.name ≠ front ++ suffix := by
      intro front hfront hname
      refine h ⟨⟨front, hname.symm⟩, fun hsuffix => hfront ?_⟩
      exact List.append_cancel_right (hname.symm.trans hsuffix)
    refine ⟨fun h => isFirst_iff.mp (h.forward hno), fun h => ?_⟩
    exact ⟨fun front hfront hname => absurd hname (hno front hfront), fun _ => isFirst_iff.mpr h,
      process_rcode_iff records query response⟩

/-- Records that answer a name and an address, or two addresses, differently. -/
theorem lookup_injective {a b : Option Bytes} (h : ∀ records, lookup records name a =
    lookup records name b) : a = b := by
  have hnone : ∀ ip : Bytes, ¬ ∀ records, lookup records name none =
      lookup records name (some ip) := by
    intro ip hsame
    have hone := hsame [(0 :: ip, name)]
    simp [lookup, findAddress, findDomainName] at hone
  cases a with
  | none =>
    cases b with
    | none => rfl
    | some ip => exact absurd h (hnone ip)
  | some ip =>
    cases b with
    | none => exact absurd (fun records => (h records).symm) (hnone ip)
    | some ip' =>
      by_contra hne
      have hip : ip ≠ ip' := fun heq => hne (congrArg some heq)
      have hone := h [(ip, [0])]
      simp [lookup, findDomainName, hip] at hone

theorem kind_of_find_none (h : find suffix name = none) : kind name = none := by
  refine if_neg fun hkind => ?_
  obtain ⟨front, hname⟩ := hkind.1
  obtain ⟨p, -, hp⟩ := find_append suffix front []
  rw [List.append_nil, hname, h] at hp
  cases hp

theorem takenFor_of_find {p : ℕ} (h : find suffix name = some p) :
    takenFor name = if p = 0 then none else some (reverseLabels (name.take p)) := by
  obtain ⟨hle, -⟩ := find_occurs h
  have hnil : reverseLabels (name.take p) = [] ↔ p = 0 := by
    rw [reverseLabels_eq_nil, ← List.length_eq_zero_iff, List.length_take, Nat.min_eq_left hle]
  rw [takenFor, getIpAddrFromQname_eq, h]
  exact if_congr hnil rfl rfl

theorem kindRecognised_iff {p : ℕ} (h : find suffix name = some p) :
    KindRecognised name ↔ p + suffix.length = name.length ∨ p = 0 ∧ ¬ suffix <:+ name := by
  refine ⟨fun hk => hk p h, fun hp q hq => ?_⟩
  obtain rfl := Option.some.inj (h.symm.trans hq)
  exact hp

theorem takenFor_eq_kind_of_end {p : ℕ} (h : find suffix name = some p)
    (hend : p + suffix.length = name.length) : takenFor name = kind name := by
  obtain ⟨hle, rest, hname⟩ := find_occurs h
  have hlength := congrArg List.length hname
  rw [List.length_append, List.length_append, List.length_take, Nat.min_eq_left hle] at hlength
  have hnil : rest = [] := List.length_eq_zero_iff.mp (by omega)
  rw [hnil, List.append_nil] at hname
  have htake : name.length - suffix.length = p := by omega
  have hp : name = suffix ↔ p = 0 := by
    refine ⟨fun heq => ?_, fun hzero => ?_⟩
    · have hl := congrArg List.length heq
      omega
    · rw [hname, hzero, List.take_zero, List.nil_append]
  rw [takenFor_of_find h, kind, htake]
  by_cases hzero : p = 0
  · rw [if_pos hzero, if_neg fun hkind => hkind.2 (hp.mpr hzero)]
  · rw [if_neg hzero, if_pos ⟨⟨_, hname.symm⟩, fun heq => hzero (hp.mp heq)⟩]

/-- With something behind the first occurrence, the readings are the same only of a name that starts
and does not end with the suffix. -/
theorem takenFor_eq_kind_of_more {p : ℕ} (h : find suffix name = some p)
    (hmore : p + suffix.length ≠ name.length) :
    takenFor name = kind name ↔ p = 0 ∧ ¬ suffix <:+ name := by
  obtain ⟨hle, rest, hname⟩ := find_occurs h
  have hlength := congrArg List.length hname
  rw [List.length_append, List.length_append, List.length_take, Nat.min_eq_left hle] at hlength
  have hne : name ≠ suffix := by
    intro heq
    have hl := congrArg List.length heq
    omega
  rw [takenFor_of_find h, kind]
  by_cases hzero : p = 0
  · rw [if_pos hzero]
    by_cases hsuffix : suffix <:+ name
    · rw [if_pos ⟨hsuffix, hne⟩]
      exact iff_of_false (fun heq => nomatch heq) fun hk => hk.2 hsuffix
    · rw [if_neg fun hkind => hsuffix hkind.1]
      exact iff_of_true rfl ⟨hzero, hsuffix⟩
  · rw [if_neg hzero]
    refine iff_of_false (fun heq => ?_) fun hk => hzero hk.1
    split at heq
    · have hl := congrArg List.length (Option.some.inj heq)
      rw [reverseLabels_length, reverseLabels_length, List.length_take, List.length_take] at hl
      omega
    · cases heq

theorem takenFor_eq_kind_iff : takenFor name = kind name ↔ KindRecognised name := by
  cases h : find suffix name with
  | none =>
    refine iff_of_true ?_ fun p hp => absurd (h.symm.trans hp) (by simp)
    rw [kind_of_find_none h, takenFor, getIpAddrFromQname_eq, h]
    rfl
  | some p =>
    rw [kindRecognised_iff h]
    by_cases hend : p + suffix.length = name.length
    · exact iff_of_true (takenFor_eq_kind_of_end h hend) (.inl hend)
    · rw [or_iff_right hend]
      exact takenFor_eq_kind_of_more h hend

/-- The resolver answers a name by its kind for every list of records if and only if the first
occurrence of the suffix in the name, if any, ends it, or is the front of a name that does not end
in the suffix. For any other name it does so only with records that answer both readings alike. -/
theorem answers_by_kind_iff (query : DNSQuery) (response : DNSResponse) :
    ((∀ records, AnswersByKind records query.name (process records query response)) ↔
      KindRecognised query.name) ∧
    ∀ records, AnswersByKind records query.name (process records query response) ↔
      KindRecognised query.name ∨
        lookup records query.name (takenFor query.name) =
          lookup records query.name (kind query.name) := by
  simp only [answersByKind_iff]
  refine ⟨⟨fun h => takenFor_eq_kind_iff.mp (lookup_injective h), fun h records => ?_⟩,
    fun records => ⟨.inr, ?_⟩⟩
  · rw [takenFor_eq_kind_iff.mpr h]
  · rintro (h | h)
    · rw [takenFor_eq_kind_iff.mpr h]
    · exact h

/-- Of a name with something behind the suffix, the front is taken for an address. -/
theorem suffix_inside_misread :
    ¬ ∀ (records : List Record) (query : DNSQuery) (response : DNSResponse),
      AnswersByKind records query.name (process records query response) := by
  intro h
  have hsame := answersByKind_iff.mp (h [(chars "1.2.3.4", chars "h.in-addr.arpa.x")]
    { name := chars "h.in-addr.arpa.x" } (DNSResponse.new 1 1 0))
  revert hsame
  decide

end DNSResolver

end Dns
end NetworkProtocols
