import NetworkProtocols.Dns.NameKinds

/-!
# Records from a file

How `loadRecordsFromFile` makes a record of each line, and how the record is found again: by its
domain, and by its address with the labels in reverse order.
-/

namespace NetworkProtocols
namespace Dns

open Bytes

/-- `std::getline` until it fails: behind the last line end there is no line. -/
def getLines (content : Bytes) : List Bytes :=
  let lines := content.splitOn LF
  if lines.getLast? = some [] then lines.dropLast else lines

namespace DNSResolver

/-- A line without a space, or with nothing behind its blanks, is skipped. -/
def addLine (records : List Record) (line : Bytes) : List Record :=
  match find [space] line with
  | none => records
  | some p =>
    let ipAddr := line.take p
    let domainName := (line.drop p).dropWhile isSpace
    if domainName = [] then records else records ++ [(ipAddr, domainName)]

/-- `none` is a file that cannot be opened. -/
def loadRecordsFromFile (records : List Record) (inFile : Option Bytes) : List Record :=
  match inFile with
  | none => records
  | some content => (getLines content).foldl addLine records

/-- A line of an address, blanks and a domain name. -/
structure RecordLine where
  labels : List Bytes
  blanks : Bytes
  domain : Bytes
  labels_ne_nil : labels ≠ []
  digits : ∀ l ∈ labels, l ≠ [] ∧ ∀ x ∈ l, isDigit x = true
  blanks_head : blanks.head? = some space
  blanks_space : ∀ x ∈ blanks, isSpace x = true
  domain_ne_nil : domain ≠ []
  domain_head : ∀ x ∈ domain.head?, isSpace x = false
  no_suffix : ¬ suffix <:+: domain

namespace RecordLine

def address (r : RecordLine) : Bytes := joinDots r.labels

def text (r : RecordLine) : Bytes := r.address ++ r.blanks ++ r.domain

def reverseName (r : RecordLine) : Bytes := joinDots r.labels.reverse ++ suffix

def record (r : RecordLine) : Record := (r.address, r.domain)

def IsFirst (key : RecordLine → Bytes) (lines : List RecordLine) (k : Bytes) (first : RecordLine) :
    Prop :=
  ∃ front back, lines = front ++ first :: back ∧ (∀ r ∈ front, key r ≠ k) ∧ key first = k

variable (r : RecordLine)

/-- Digits and dots are neither blanks nor letters. -/
theorem notMem_joinDots {labels : List Bytes} {x : Byte} (hdigit : isDigit x = false)
    (hdot : x ≠ dot) (h : ∀ l ∈ labels, ∀ y ∈ l, isDigit y = true) : x ∉ joinDots labels := by
  have hlabel : ∀ l ∈ labels, x ∉ l := by
    intro l hl hx
    rw [h l hl x hx] at hdigit
    cases hdigit
  induction labels with
  | nil => exact List.not_mem_nil
  | cons l labels ih =>
    rw [List.forall_mem_cons] at h hlabel
    rw [joinDots_cons]
    split
    · exact hlabel.1
    · rw [List.mem_append, List.mem_cons]
      rintro (hx | hx | hx)
      · exact hlabel.1 hx
      · exact hdot hx
      · exact ih h.2 hlabel.2 hx

theorem dot_notMem_labels : ∀ l ∈ r.labels, dot ∉ l := by
  intro l hl hdot
  have hdigit := (r.digits l hl).2 dot hdot
  revert hdigit
  decide

theorem address_ne_nil : r.address ≠ [] :=
  joinDots_ne_nil r.labels_ne_nil fun l hl => (r.digits l hl).1

/-- The line is a record with its address and its domain. -/
theorem addLine_text (records : List Record) :
    addLine records r.text = records ++ [r.record] := by
  obtain ⟨blanks, hblanks⟩ := List.head?_eq_some_iff.mp r.blanks_head
  have hspace : space ∉ r.address :=
    notMem_joinDots (by decide) (by decide) fun l hl => (r.digits l hl).2
  have htext : r.text = r.address ++ (r.blanks ++ r.domain) := List.append_assoc ..
  have hfind : find [space] r.text = some r.address.length := by
    rw [htext, hblanks]
    exact find_append_eq [space] (i := 0) rfl (fun j hj => absurd hj (Nat.not_lt_zero j)) hspace
      (blanks ++ r.domain)
  have hdomain : (r.blanks ++ r.domain).dropWhile isSpace = r.domain := by
    rw [List.dropWhile_append_of_pos r.blanks_space]
    obtain ⟨x, domain, hcons⟩ := List.exists_cons_of_ne_nil r.domain_ne_nil
    have hx : isSpace x = false := r.domain_head x (by rw [hcons]; rfl)
    rw [hcons, List.dropWhile_cons_of_neg (by simp [hx])]
  rw [addLine, hfind]
  dsimp only
  rw [htext, List.take_left, List.drop_left, hdomain, if_neg r.domain_ne_nil]
  rfl

theorem takenFor_reverseName : takenFor r.reverseName = some r.address := by
  have hreverse : r.labels.reverse ≠ [] := List.reverse_ne_nil_iff.mpr r.labels_ne_nil
  have hmem : ∀ l ∈ r.labels.reverse, l ∈ r.labels := fun l => List.mem_reverse.mp
  have hletter : (105 : Byte) ∉ joinDots r.labels.reverse :=
    notMem_joinDots (by decide) (by decide) fun l hl => (r.digits l (hmem l hl)).2
  have hfirst : ∀ j < 1, suffix[j]? ≠ some 105 := by decide
  have hfind := find_append_eq suffix (i := 1) (by decide) hfirst hletter []
  rw [List.append_nil] at hfind
  have hlength : (joinDots r.labels.reverse).length ≠ 0 := by
    rw [ne_eq, List.length_eq_zero_iff]
    exact joinDots_ne_nil hreverse fun l hl => (r.digits l (hmem l hl)).1
  rw [reverseName, takenFor_of_find hfind, if_neg hlength, List.take_left,
    reverseLabels_joinDots hreverse fun l hl => r.dot_notMem_labels l (hmem l hl),
    List.reverse_reverse]
  rfl

theorem takenFor_domain : takenFor r.domain = none := by
  cases hfind : find suffix r.domain with
  | none =>
    rw [takenFor, getIpAddrFromQname_eq, hfind]
    rfl
  | some p =>
    obtain ⟨-, rest, hdomain⟩ := find_occurs hfind
    exact absurd ⟨_, rest, (List.append_assoc ..).trans hdomain.symm⟩ r.no_suffix

end RecordLine

variable {lines : List RecordLine}

theorem foldl_addLine (records : List Record) :
    (lines.map RecordLine.text).foldl addLine records = records ++ lines.map RecordLine.record := by
  induction lines generalizing records with
  | nil => simp
  | cons r lines ih => simp [RecordLine.addLine_text, ih]

theorem exists_isFirst (key : RecordLine → Bytes) {line : RecordLine} (h : line ∈ lines) :
    ∃ first, RecordLine.IsFirst key lines (key line) first := by
  have hsome : (lines.find? fun r => key r == key line).isSome = true :=
    List.find?_isSome.mpr ⟨line, h, beq_self_eq_true _⟩
  obtain ⟨first, hfirst⟩ := Option.isSome_iff_exists.mp hsome
  obtain ⟨hkey, front, back, hlines, hfront⟩ := List.find?_eq_some_iff_append.mp hfirst
  exact ⟨first, front, back, hlines, by simpa using hfront, by simpa using hkey⟩

theorem isFirst_records (key answer : Record → Bytes) {k : Bytes} {first : RecordLine}
    (h : RecordLine.IsFirst (fun r => key r.record) lines k first) :
    IsFirst key answer (lines.map RecordLine.record) k (answer first.record) := by
  obtain ⟨front, back, rfl, hfront, hkey⟩ := h
  refine .inl ⟨front.map RecordLine.record, first.record, back.map RecordLine.record, by simp, ?_,
    hkey, rfl⟩
  simpa using hfront

/-- A query that is answered with this text and `NoError`. -/
def Answered (records : List Record) (name answer : Bytes) : Prop :=
  ∀ (query : DNSQuery) (response : DNSResponse), query.name = name →
    (process records query response).data = answer ∧
      (process records query response).getFieldRcode = Rcode.NoError

theorem answered_of_lookup {records : List Record} {name answer : Bytes} (hne : answer ≠ [])
    (h : answer = lookup records name (takenFor name)) : Answered records name answer := by
  rintro query response rfl
  rw [process_rcode, process_data, ← h, if_neg hne]
  exact ⟨rfl, rfl⟩

/-- Every record of a file of such lines is found: by its domain, which is answered with the address
of the first line with that domain, and by its address in reverse order, which is answered with the
domain of the first line with that address. -/
theorem loaded_records_found (content : Bytes) (lines : List RecordLine)
    (h : getLines content = lines.map RecordLine.text) :
    ∀ line ∈ lines,
      (∃ first, RecordLine.IsFirst RecordLine.domain lines line.domain first ∧
        Answered (loadRecordsFromFile [] (some content)) line.domain first.address) ∧
      (∃ first, RecordLine.IsFirst RecordLine.address lines line.address first ∧
        Answered (loadRecordsFromFile [] (some content)) line.reverseName first.domain) := by
  have hrecords : loadRecordsFromFile [] (some content) = lines.map RecordLine.record := by
    rw [loadRecordsFromFile, h, foldl_addLine, List.nil_append]
  rw [hrecords]
  intro line hline
  constructor
  · obtain ⟨first, hfirst⟩ := exists_isFirst RecordLine.domain hline
    refine ⟨first, hfirst, answered_of_lookup first.address_ne_nil ?_⟩
    rw [line.takenFor_domain]
    exact isFirst_iff.mp (isFirst_records (·.2) (·.1) hfirst)
  · obtain ⟨first, hfirst⟩ := exists_isFirst RecordLine.address hline
    refine ⟨first, hfirst, answered_of_lookup first.domain_ne_nil ?_⟩
    rw [line.takenFor_reverseName]
    exact isFirst_iff.mp (isFirst_records (·.1) (·.2) hfirst)

/-- The line `1.2 a`. -/
def oneLine : RecordLine where
  labels := [[49], [50]]
  blanks := [32]
  domain := [97]
  labels_ne_nil := by decide
  digits := List.forall_mem_cons.mpr ⟨⟨nofun, List.all_eq_true.mp rfl⟩,
    List.forall_mem_singleton.mpr ⟨nofun, List.all_eq_true.mp rfl⟩⟩
  blanks_head := rfl
  blanks_space := List.all_eq_true.mp rfl
  domain_ne_nil := by decide
  domain_head := by
    rintro x ⟨⟩
    rfl
  no_suffix := by decide

theorem loaded_records_found_one :
    Answered (loadRecordsFromFile [] (some (chars "1.2 a\n"))) (chars "2.1.in-addr.arpa") [97] := by
  obtain ⟨first, hfirst, hanswered⟩ := (loaded_records_found (chars "1.2 a\n") [oneLine]
    (by decide) oneLine List.mem_cons_self).2
  obtain ⟨front, back, hlines, -, -⟩ := hfirst
  have hmem : first ∈ [oneLine] := hlines ▸ List.mem_append_right front List.mem_cons_self
  rw [List.mem_singleton.mp hmem] at hanswered
  exact hanswered

end DNSResolver

end Dns
end NetworkProtocols
