import Mathlib.Data.List.TakeWhile
import NetworkProtocols.Lib.Scan
import NetworkProtocols.Smtp.Session

/-!
# Which handler a line calls

The scanner looks for the first blank, and then again from that blank, so that its second word is
empty. Behind a space only the two-word commands are tried, by the length of the first word alone.
-/

namespace NetworkProtocols
namespace Smtp

open Bytes

def verbs : List (Bytes × Handler) :=
  [(chars "HELO", .helo), (chars "DATA", .data), (chars "RSET", .rset), (chars "VRFY", .vrfy),
    (chars "NOOP", .noop), (chars "QUIT", .quit)]

def verbText (line : Bytes) : Bytes := line.takeWhile (· ≠ space)

/-- The handler is that of the line's verb, or a reply of 500 or 502 where there is none. -/
structure ByVerb (line : Bytes) (handler : Handler) : Prop where
  mailFrom : handler = .mailFrom ↔ chars "MAIL FROM:" <+: line
  rcptTo : handler = .rcptTo ↔ chars "RCPT TO:" <+: line
  verb : ∀ v ∈ verbs, handler = v.2 ↔ verbText line = v.1
  other : ¬ chars "MAIL FROM:" <+: line → ¬ chars "RCPT TO:" <+: line →
    (∀ v ∈ verbs, verbText line ≠ v.1) → handler = .reply 500 ∨ handler = .reply 502

/-- The text of a line before its first space, CR or LF. -/
def word (line : Bytes) : Bytes := line.takeWhile fun b => !isBlank b

/-- A first word that is a verb is the whole line, and one in front of a space that begins `MAIL` or
`RCPT` belongs to one of the two-word commands. -/
def Understood (line : Bytes) : Prop :=
  (word line ∈ verbs.map Prod.fst → line = word line) ∧
  ((line.drop (word line).length).head? = some space →
    word line <+: chars "MAIL" ∨ word line <+: chars "RCPT" →
    chars "MAIL FROM:" <+: line ∨ chars "RCPT TO:" <+: line)

instance (line : Bytes) : Decidable (Understood line) := by
  unfold Understood
  infer_instance

theorem nextBlank_here {buffer rest : Bytes} {b : Byte} {i : ℕ} (hi : i < commandBufferSize)
    (hdrop : buffer.drop i = b :: rest) (h : isBlank b = true) : nextBlank buffer i = i := by
  obtain ⟨k, hk⟩ : ∃ k, commandBufferSize - i = k + 1 := ⟨commandBufferSize - i - 1, by omega⟩
  rw [nextBlank, hdrop, hk, List.take_succ_cons, List.findIdx_cons, h]
  rfl

section Scanner

variable {w rest : Bytes} {b : Byte}

theorem space_notMem (hw : ∀ x ∈ w, isBlank x = false) : space ∉ w := by
  intro h
  cases hw space h

theorem nextBlank_word (hw : ∀ x ∈ w, isBlank x = false) (hb : isBlank b = true)
    (hlength : w.length < commandBufferSize) : nextBlank (w ++ b :: rest) 0 = w.length := by
  obtain ⟨k, hk⟩ : ∃ k, commandBufferSize = w.length + (k + 1) :=
    ⟨commandBufferSize - w.length - 1, by omega⟩
  have hnone : w.findIdx isBlank = w.length := List.findIdx_eq_length.mpr hw
  rw [nextBlank, List.drop_zero, Nat.sub_zero, hk, List.take_length_add_append,
    List.take_succ_cons, List.findIdx_append, hnone, if_neg (Nat.lt_irrefl _), List.findIdx_cons,
    hb]
  simp

/-- A comparison of as many bytes as the word has: one text begins the other. -/
theorem strncmpEqual_iff {t : Bytes} (ht : 0 ∉ t) :
    strncmpEqual w.length (w ++ rest) (t ++ [0]) = true ↔ w <+: t ∨ t ++ [0] <+: w := by
  induction w generalizing t with
  | nil => simp [strncmpEqual]
  | cons x w ih =>
    cases t with
    | nil =>
      rw [List.length_cons, List.cons_append, List.nil_append, strncmpEqual]
      simp only [Bool.and_eq_true, Bool.or_eq_true, beq_iff_eq, List.prefix_nil, reduceCtorEq,
        List.cons_prefix_cons, List.nil_prefix, and_true, false_or]
      exact ⟨fun h => h.1.symm, fun h => ⟨h.symm, .inl h.symm⟩⟩
    | cons c t =>
      rw [List.mem_cons, not_or] at ht
      rw [List.length_cons, List.cons_append, List.cons_append, strncmpEqual,
        List.cons_prefix_cons, List.cons_prefix_cons, Bool.and_eq_true, Bool.or_eq_true, ih ht.2,
        beq_iff_eq, beq_iff_eq]
      constructor
      · rintro ⟨rfl, hzero | hrest⟩
        · exact absurd hzero.symm ht.1
        · exact hrest.imp (⟨rfl, ·⟩) (⟨rfl, ·⟩)
      · rintro (⟨rfl, hrest⟩ | ⟨rfl, hrest⟩)
        · exact ⟨rfl, .inr (.inl hrest)⟩
        · exact ⟨rfl, .inr (.inr hrest)⟩

theorem strncmpEqual_verb {v : Bytes} (hv : 0 ∉ v) (hlength : v.length = w.length) :
    strncmpEqual w.length (w ++ rest) (v ++ [0]) = true ↔ w = v := by
  rw [strncmpEqual_iff hv]
  constructor
  · rintro (h | h)
    · exact h.eq_of_length hlength.symm
    · have hle := h.length_le
      rw [List.length_append, List.length_singleton] at hle
      omega
  · rintro rfl
    exact .inl (List.prefix_refl w)

theorem strncmpEqual_first (verb tail : Bytes) (hspace : space ∉ w)
    (hz : 0 ∉ verb ++ space :: tail) :
    strncmpEqual w.length (w ++ rest) (verb ++ space :: tail ++ [0]) = true ↔ w <+: verb := by
  have hin : verb ++ [space] <+: verb ++ space :: tail :=
    (List.prefix_append_right_inj verb).mpr ⟨tail, rfl⟩
  have hno : ¬ verb ++ [space] <+: w := fun h =>
    hspace (h.subset (List.mem_append_right verb List.mem_cons_self))
  rw [strncmpEqual_iff hz]
  constructor
  · rintro (h | h)
    · by_cases hle : w.length ≤ verb.length
      · exact List.prefix_of_prefix_length_le h (List.prefix_append verb _) hle
      · refine absurd (List.prefix_of_prefix_length_le hin h ?_) hno
        rw [List.length_append, List.length_singleton]
        omega
    · exact absurd (hin.trans ((List.prefix_append _ [0]).trans h)) hno
  · exact fun h => .inl (h.trans (List.prefix_append verb _))

def ofVerb (w : Bytes) : Handler :=
  (verbs.lookup w).getD (.reply (if w.length = 4 then 502 else 500))

/-- The handler of a word in front of a space. -/
def ofFirstWord (w : Bytes) : Handler :=
  if w <+: chars "MAIL" then .mailFrom
  else if w <+: chars "RCPT" then .rcptTo
  else .reply 502

/-- The comparisons at the end of a line, with a word of the right length. -/
theorem ofVerb_eq (h : w.length = 4) :
    ofVerb w =
      if w = chars "HELO" then .helo
      else if w = chars "DATA" then .data
      else if w = chars "RSET" then .rset
      else if w = chars "VRFY" then .vrfy
      else if w = chars "NOOP" then .noop
      else if w = chars "QUIT" then .quit
      else .reply 502 := by
  have hlookup : ∀ (v : Bytes) (handler : Handler) (vs : List (Bytes × Handler)) (d : Handler),
      (((v, handler) :: vs).lookup w).getD d = if w = v then handler else (vs.lookup w).getD d := by
    intro v handler vs d
    rw [List.lookup_cons]
    by_cases hv : w = v
    · simp [hv]
    · simp [hv, beq_eq_false_iff_ne.mpr hv]
  rw [ofVerb, verbs, if_pos h, hlookup, hlookup, hlookup, hlookup, hlookup, hlookup]
  rfl

theorem lookup_verbs {v : Bytes × Handler} (hv : v ∈ verbs) :
    verbs.lookup v.1 = some v.2 ∧ v.1.length = 4 := by
  revert v
  decide

theorem ofVerb_verb {v : Bytes × Handler} (hv : v ∈ verbs) : ofVerb v.1 = v.2 := by
  rw [ofVerb, (lookup_verbs hv).1, Option.getD_some]

theorem ofVerb_cases (w : Bytes) :
    (∃ v ∈ verbs, w = v.1 ∧ ofVerb w = v.2) ∨
      (∀ v ∈ verbs, w ≠ v.1) ∧ ofVerb w = .reply (if w.length = 4 then 502 else 500) := by
  by_cases h : ∃ v ∈ verbs, w = v.1
  · obtain ⟨v, hv, rfl⟩ := h
    exact .inl ⟨v, hv, rfl, ofVerb_verb hv⟩
  · push Not at h
    refine .inr ⟨h, ?_⟩
    have hnone : verbs.lookup w = none :=
      List.lookup_eq_none_iff.mpr fun v hv => bne_iff_ne.mpr (h v hv)
    rw [ofVerb, hnone, Option.getD_none]

theorem ofVerb_long (h : w.length ≠ 4) : ofVerb w = .reply 500 := by
  rcases ofVerb_cases w with ⟨v, hv, rfl, -⟩ | ⟨-, heq⟩
  · exact absurd (lookup_verbs hv).2 h
  · rw [heq, if_neg h]

theorem dispatch_word (hw : ∀ x ∈ w, isBlank x = false) (hb : isBlank b = true)
    (hlength : w.length < commandBufferSize) :
    dispatch (w ++ b :: rest) = if b = space then ofFirstWord w else ofVerb w := by
  have hfirst : nextBlank (w ++ b :: rest) 0 = w.length := nextBlank_word hw hb hlength
  have hsecond : nextBlank (w ++ b :: rest) w.length = w.length :=
    nextBlank_here hlength List.drop_left hb
  have hbyte : (w ++ b :: rest).getD w.length 0 = b := by simp
  have hne : w.length ≠ commandBufferSize := Nat.ne_of_lt hlength
  have hspace := space_notMem hw
  have hmail : strncmpEqual w.length (w ++ b :: rest) (literal "MAIL FROM") = true ↔
      w <+: chars "MAIL" := strncmpEqual_first (chars "MAIL") (chars "FROM") hspace (by decide)
  have hrcpt : strncmpEqual w.length (w ++ b :: rest) (literal "RCPT TO") = true ↔
      w <+: chars "RCPT" := strncmpEqual_first (chars "RCPT") (chars "TO") hspace (by decide)
  unfold dispatch
  simp only [hfirst, hsecond, hbyte]
  rw [if_neg hne, if_neg hne]
  by_cases hb' : b = space
  · simp only [if_pos hb', hmail, hrcpt]
    rfl
  rw [if_neg hb', if_neg hb']
  by_cases hfour : w.length = 4
  · have hverb : ∀ v : Bytes, 0 ∉ v → v.length = 4 →
        (strncmpEqual w.length (w ++ b :: rest) (v ++ [0]) = true ↔ w = v) :=
      fun v hv hl => strncmpEqual_verb hv (hl.trans hfour.symm)
    rw [if_neg (not_not.mpr hfour), ofVerb_eq hfour]
    simp only [literal, hverb (chars "HELO") (by decide) rfl, hverb (chars "DATA") (by decide) rfl,
      hverb (chars "RSET") (by decide) rfl, hverb (chars "VRFY") (by decide) rfl,
      hverb (chars "NOOP") (by decide) rfl, hverb (chars "QUIT") (by decide) rfl]
  · rw [if_pos hfour, ofVerb_long hfour]

end Scanner

theorem verbs_blank {v : Bytes × Handler} (hv : v ∈ verbs) : ∀ x ∈ v.1, isBlank x = false := by
  have hany : ∀ v ∈ verbs, v.1.any isBlank = false := by decide
  exact Scan.forall_of_any (hany v hv)

theorem verbs_handler {v : Bytes × Handler} (hv : v ∈ verbs) :
    v.2 ≠ .mailFrom ∧ v.2 ≠ .rcptTo ∧ ∀ responseCode, v.2 ≠ .reply responseCode := by
  simp only [verbs, List.mem_cons, List.not_mem_nil, or_false] at hv
  rcases hv with rfl | rfl | rfl | rfl | rfl | rfl <;> simp

section FirstWord

variable {w : Bytes}

theorem ofFirstWord_mailFrom : ofFirstWord w = .mailFrom ↔ w <+: chars "MAIL" := by
  unfold ofFirstWord
  split_ifs with hm
  all_goals simp [hm]

theorem ofFirstWord_rcptTo :
    ofFirstWord w = .rcptTo ↔ ¬ w <+: chars "MAIL" ∧ w <+: chars "RCPT" := by
  unfold ofFirstWord
  by_cases hm : w <+: chars "MAIL"
  · simp [hm]
  by_cases hr : w <+: chars "RCPT"
  · simp [hm, hr]
  · simp [hm, hr]

theorem ofFirstWord_neither (hm : ¬ w <+: chars "MAIL") (hr : ¬ w <+: chars "RCPT") :
    ofFirstWord w = .reply 502 := by
  rw [ofFirstWord, if_neg hm, if_neg hr]

theorem ofFirstWord_ne {v : Bytes × Handler} (hv : v ∈ verbs) : ofFirstWord w ≠ v.2 := by
  obtain ⟨hmailFrom, hrcptTo, hreply⟩ := verbs_handler hv
  unfold ofFirstWord
  split
  · exact hmailFrom.symm
  split
  · exact hrcptTo.symm
  · exact (hreply 502).symm

end FirstWord

theorem ofVerb_eq_iff {w : Bytes} {v : Bytes × Handler} (hv : v ∈ verbs) :
    ofVerb w = v.2 ↔ w = v.1 := by
  have hinj : ∀ v ∈ verbs, ∀ v' ∈ verbs, v.2 = v'.2 → v.1 = v'.1 := by decide
  constructor
  · intro h
    rcases ofVerb_cases w with ⟨v', hv', rfl, heq⟩ | ⟨-, heq⟩
    · exact hinj v' hv' v hv (heq.symm.trans h)
    · exact absurd (h.symm.trans heq) ((verbs_handler hv).2.2 _)
  · rintro rfl
    exact ofVerb_verb hv

theorem ofVerb_ne (w : Bytes) : ofVerb w ≠ .mailFrom ∧ ofVerb w ≠ .rcptTo := by
  rcases ofVerb_cases w with ⟨v, hv, -, heq⟩ | ⟨-, heq⟩
  · rw [heq]
    exact ⟨(verbs_handler hv).1, (verbs_handler hv).2.1⟩
  · rw [heq]
    exact ⟨nofun, nofun⟩

theorem ofVerb_reply {w : Bytes} (h : ∀ v ∈ verbs, w ≠ v.1) :
    ofVerb w = .reply 500 ∨ ofVerb w = .reply 502 := by
  rcases ofVerb_cases w with ⟨v, hv, rfl, -⟩ | ⟨-, heq⟩
  · exact absurd rfl (h v hv)
  · rw [heq]
    split
    · exact .inr rfl
    · exact .inl rfl

section Lines

variable {w rest : Bytes} {b : Byte}

theorem word_append (hw : ∀ x ∈ w, isBlank x = false) (hb : isBlank b = true) (rest : Bytes) :
    word (w ++ b :: rest) = w := by
  rw [word, List.takeWhile_append_of_pos (by simpa using hw),
    List.takeWhile_cons_of_neg (by simp [hb]), List.append_nil]

theorem ne_space (h : space ∉ w) : ∀ x ∈ w, decide (x ≠ space) = true := by
  intro x hx
  exact decide_eq_true fun heq : x = space => h (heq ▸ hx)

theorem verbText_of_notMem (h : space ∉ w) : verbText w = w :=
  List.takeWhile_eq_self_iff.mpr (ne_space h)

theorem verbText_space (h : space ∉ w) (rest : Bytes) : verbText (w ++ space :: rest) = w := by
  rw [verbText, List.takeWhile_append_of_pos (ne_space h),
    List.takeWhile_cons_of_neg (by simp), List.append_nil]

theorem verbText_ne {v : Bytes × Handler} (hv : v ∈ verbs) (hspace : space ∉ w)
    (hb : isBlank b = true) (hne : b ≠ space) (rest : Bytes) : verbText (w ++ b :: rest) ≠ v.1 := by
  have hmem : b ∈ verbText (w ++ b :: rest) := by
    rw [verbText, List.takeWhile_append_of_pos (ne_space hspace),
      List.takeWhile_cons_of_pos (by simpa using hne)]
    exact List.mem_append_right w List.mem_cons_self
  intro heq
  rw [verbs_blank hv b (heq ▸ hmem)] at hb
  cases hb

theorem first_word_eq (verb tail : Bytes) (hverb : ∀ x ∈ verb, isBlank x = false)
    (hw : ∀ x ∈ w, isBlank x = false) (hb : isBlank b = true)
    (h : verb ++ space :: tail <+: w ++ b :: rest) : w = verb ∧ b = space := by
  obtain ⟨more, hmore⟩ := h
  rw [List.append_assoc, List.cons_append] at hmore
  have hword := congrArg word hmore
  rw [word_append hverb rfl, word_append hw hb] at hword
  subst hword
  exact ⟨rfl, (List.cons.inj (List.append_cancel_left hmore)).1.symm⟩

theorem byVerb_whole (hw : ∀ x ∈ w, isBlank x = false) : ByVerb w (ofVerb w) := by
  have hspace := space_notMem hw
  have hno : ∀ {t : Bytes}, space ∈ t → ¬ t <+: w := fun ht h => hspace (h.subset ht)
  have hmail : ¬ chars "MAIL FROM:" <+: w := hno (by decide)
  have hrcpt : ¬ chars "RCPT TO:" <+: w := hno (by decide)
  refine ⟨iff_of_false (ofVerb_ne w).1 hmail, iff_of_false (ofVerb_ne w).2 hrcpt,
    fun v hv => ?_, fun _ _ h => ?_⟩
  · rw [verbText_of_notMem hspace]
    exact ofVerb_eq_iff hv
  · rw [verbText_of_notMem hspace] at h
    exact ofVerb_reply h

/-- In front of a CR or LF, a verb is not the text of the line. -/
theorem byVerb_broken_iff (hw : ∀ x ∈ w, isBlank x = false) (hb : isBlank b = true)
    (hne : b ≠ space) (rest : Bytes) :
    ByVerb (w ++ b :: rest) (ofVerb w) ↔ w ∉ verbs.map Prod.fst := by
  have hspace := space_notMem hw
  have hmail : ¬ chars "MAIL FROM:" <+: w ++ b :: rest := fun h =>
    hne (first_word_eq (chars "MAIL") (chars "FROM:") (Scan.forall_of_any rfl) hw hb h).2
  have hrcpt : ¬ chars "RCPT TO:" <+: w ++ b :: rest := fun h =>
    hne (first_word_eq (chars "RCPT") (chars "TO:") (Scan.forall_of_any rfl) hw hb h).2
  have hno : ∀ v ∈ verbs, verbText (w ++ b :: rest) ≠ v.1 :=
    fun v hv => verbText_ne hv hspace hb hne rest
  constructor
  · intro h hmem
    obtain ⟨v, hv, rfl⟩ := List.mem_map.mp hmem
    exact hno v hv ((h.verb v hv).mp ((ofVerb_eq_iff hv).mpr rfl))
  · intro h
    have hverb : ∀ v ∈ verbs, w ≠ v.1 := fun v hv heq => h (List.mem_map.mpr ⟨v, hv, heq.symm⟩)
    exact ⟨iff_of_false (ofVerb_ne w).1 hmail, iff_of_false (ofVerb_ne w).2 hrcpt,
      fun v hv => iff_of_false (fun heq => hverb v hv ((ofVerb_eq_iff hv).mp heq)) (hno v hv),
      fun _ _ _ => ofVerb_reply hverb⟩

/-- In front of a space, a verb is not recognised, and a beginning of the two-word commands is. -/
theorem byVerb_space_iff (hw : ∀ x ∈ w, isBlank x = false) (rest : Bytes) :
    ByVerb (w ++ space :: rest) (ofFirstWord w) ↔
      w ∉ verbs.map Prod.fst ∧ (w <+: chars "MAIL" ∨ w <+: chars "RCPT" →
        chars "MAIL FROM:" <+: w ++ space :: rest ∨ chars "RCPT TO:" <+: w ++ space :: rest) := by
  have htext : verbText (w ++ space :: rest) = w := verbText_space (space_notMem hw) rest
  have hmail : chars "MAIL FROM:" <+: w ++ space :: rest → w = chars "MAIL" := fun h =>
    (first_word_eq (chars "MAIL") (chars "FROM:") (Scan.forall_of_any rfl) hw rfl h).1
  have hrcpt : chars "RCPT TO:" <+: w ++ space :: rest → w = chars "RCPT" := fun h =>
    (first_word_eq (chars "RCPT") (chars "TO:") (Scan.forall_of_any rfl) hw rfl h).1
  constructor
  · intro h
    refine ⟨fun hmem => ?_, ?_⟩
    · obtain ⟨v, hv, heq⟩ := List.mem_map.mp hmem
      exact ofFirstWord_ne hv ((h.verb v hv).mpr (htext.trans heq.symm))
    · intro hbegin
      by_cases hm : w <+: chars "MAIL"
      · exact .inl (h.mailFrom.mp (if_pos hm))
      · exact .inr (h.rcptTo.mp ((if_neg hm).trans (if_pos (hbegin.resolve_left hm))))
  · rintro ⟨hverb, hbegin⟩
    refine ⟨⟨fun h => ?_, fun h => ?_⟩, ⟨fun h => ?_, fun h => ?_⟩, fun v hv => ?_,
      fun hno hno' _ => ?_⟩
    · have hm : w <+: chars "MAIL" := ofFirstWord_mailFrom.mp h
      refine (hbegin (.inl hm)).resolve_right fun hother => ?_
      rw [hrcpt hother] at hm
      exact absurd hm (by decide)
    · rw [hmail h]
      decide
    · obtain ⟨hnot, hr⟩ := ofFirstWord_rcptTo.mp h
      exact (hbegin (.inr hr)).resolve_left fun hother =>
        hnot ((hmail hother).symm ▸ List.prefix_refl _)
    · rw [hrcpt h]
      decide
    · rw [htext]
      exact iff_of_false (ofFirstWord_ne hv) fun heq => hverb (List.mem_map.mpr ⟨v, hv, heq.symm⟩)
    · have hneither := not_or.mp fun h => (hbegin h).elim hno hno'
      exact .inr (ofFirstWord_neither hneither.1 hneither.2)

end Lines

/-- Whatever the buffer held, a line of at most 510 bytes that comes with its CRLF calls the handler
of its verb if and only if it is understood. -/
theorem dispatch_by_verb_iff (buffer : Buffer) (line : Bytes) (hlength : line.length ≤ 510) :
    ByVerb line (dispatch (buffer.fill (line ++ [CR, LF])).bytes) ↔ Understood line := by
  have hsize : (line ++ [CR, LF]).length ≤ recvBufferSize := by
    rw [List.length_append, recvBufferSize]
    exact Nat.add_le_add_right hlength 2
  have hbytes : (buffer.fill (line ++ [CR, LF])).bytes =
      line ++ CR :: LF :: buffer.bytes.drop (line ++ [CR, LF]).length := by
    change (line ++ [CR, LF]).take recvBufferSize ++ _ = _
    rw [List.take_of_length_le hsize, List.append_assoc]
    rfl
  rw [hbytes]
  obtain hline | ⟨w, b, rest, rfl, hw, hb⟩ := Scan.split_cases isBlank line
  · have hword : word line = line := List.takeWhile_eq_self_iff.mpr (by simpa using hline)
    have hlt : line.length < commandBufferSize := by
      rw [commandBufferSize]
      omega
    have hunderstood : Understood line := by
      rw [Understood, hword, List.drop_length]
      exact ⟨fun _ => rfl, nofun⟩
    refine iff_of_true ?_ hunderstood
    rw [dispatch_word hline rfl hlt, if_neg (by decide)]
    exact byVerb_whole hline
  · have hlt : w.length < commandBufferSize := by
      rw [List.length_append, List.length_cons] at hlength
      rw [commandBufferSize]
      omega
    have hne : w ++ b :: rest ≠ w := by simp
    rw [Understood, word_append hw hb, List.drop_left, List.head?_cons, Option.some.injEq,
      imp_congr_right fun _ => iff_false_intro hne, List.append_assoc, List.cons_append,
      dispatch_word hw hb hlt]
    by_cases hspace : b = space
    · subst hspace
      rw [if_pos rfl, byVerb_space_iff hw, imp_iff_right rfl]
    · rw [if_neg hspace, byVerb_broken_iff hw hb hspace]
      simp [hspace]

theorem dispatch_by_verb_quit : ByVerb (chars "QUIT")
    (dispatch ((Buffer.full 0).fill (chars "QUIT" ++ [CR, LF])).bytes) :=
  (dispatch_by_verb_iff (Buffer.full 0) (chars "QUIT") (by decide)).mpr (by decide)

/-- A HELO with its domain is answered with 502. -/
theorem helo_domain_refused : ¬ ∀ (buffer : Buffer) (line : Bytes), line.length ≤ 510 →
    ByVerb line (dispatch (buffer.fill (line ++ [CR, LF])).bytes) := by
  intro h
  have hline := h (Buffer.full 0) (chars "HELO example.org") (by decide)
  have hreply : dispatch ((Buffer.full 0).fill (chars "HELO example.org" ++ [CR, LF])).bytes =
      .reply 502 := by decide
  have hverb := (hline.verb (chars "HELO", .helo) (by decide)).mpr (by decide)
  rw [hreply] at hverb
  cases hverb

end Smtp
end NetworkProtocols
