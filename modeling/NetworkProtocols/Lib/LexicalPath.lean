import Mathlib.Data.List.Induction
import Mathlib.Data.List.TakeWhile
import NetworkProtocols.Lib.Disk

/-!
# Paths normalised by their text

Where a path leads when `.` and empty parts are skipped and `..` takes back the part in front
of it, whatever the file system holds. The result is where the path starts, how often it goes
up from there, and the names that are left. A path is read as it stands or as a call of the
operating system reads it, up to its first zero byte.
-/

namespace NetworkProtocols

namespace PathName

def dot : Bytes := [46]
def dotDot : Bytes := [46, 46]

def isAbsolute (path : Bytes) : Bool := path.head? = some slash

def components (path : Bytes) : List Bytes :=
  (path.splitOn slash).filter fun part => part ≠ [] ∧ part ≠ dot

def parts (path : Bytes) : List Bytes := (path.splitOn slash).filter (· ≠ [])

/-- Two separators that no third one follows start a root name. -/
def rootName (path : Bytes) : Bytes :=
  if path.take 2 = [slash, slash] ∧ path[2]? ≠ some slash then
    path.take 2 ++ (path.drop 2).takeWhile (· ≠ slash)
  else []

def elementsBehind (rest : Bytes) : List Bytes :=
  (if isAbsolute rest then [[slash]] else []) ++
    (parts rest ++ if parts rest ≠ [] ∧ rest.getLast? = some slash then [dot] else [])

def elements (path : Bytes) : List Bytes :=
  (if rootName path ≠ [] then [rootName path] else []) ++
    elementsBehind (path.drop (rootName path).length)

/-- `parent_path()`, the elements but the last one joined again. -/
def parentPath (path : Bytes) : Bytes := (elements path).dropLast.foldl append []

@[simp] theorem components_nil : components [] = [] := by decide

theorem components_append_slash (left right : Bytes) :
    components (left ++ slash :: right) = components left ++ components right := by
  rw [components, List.splitOn_append_cons_self, List.filter_append]
  rfl

/-- The parts of a joined path are those of the two paths. -/
theorem components_append (left right : Bytes) :
    components (append left right) = components left ++ components right := by
  unfold append
  split
  · rename_i h
    rcases h with rfl | hlast | rfl | hhead
    · simp
    · obtain ⟨front, rfl⟩ : ∃ front, left = front ++ [slash] := by
        obtain ⟨hne, hlast⟩ := List.getLast?_eq_some_iff.mp hlast
        exact ⟨hne, hlast⟩
      rw [List.append_assoc, List.singleton_append, components_append_slash,
        components_append_slash, components_nil, List.append_nil]
    · simp
    · obtain ⟨back, rfl⟩ : ∃ back, right = slash :: back := List.head?_eq_some_iff.mp hhead
      have hback : components (slash :: back) = components [] ++ components back :=
        components_append_slash [] back
      rw [components_append_slash, hback, components_nil, List.nil_append]
  · exact components_append_slash left right

theorem components_name {name : Bytes} (hslash : slash ∉ name) (hne : name ≠ [])
    (hdot : name ≠ dot) : components name = [name] := by
  rw [components, List.splitOn_eq_singleton hslash]
  simp [hne, hdot]

theorem isAbsolute_concat {left : Bytes} (h : left ≠ []) (right : Bytes) :
    isAbsolute (left ++ right) = isAbsolute left := by
  obtain ⟨b, rest, rfl⟩ := List.exists_cons_of_ne_nil h
  rfl

theorem isAbsolute_append {left : Bytes} (h : left ≠ []) (right : Bytes) :
    isAbsolute (append left right) = isAbsolute left := by
  obtain ⟨b, rest, rfl⟩ := List.exists_cons_of_ne_nil h
  unfold append
  split <;> rfl

end PathName

/-- Where a path leads from the root directory or from the current one: a number of
directories up, and the names from there. -/
structure Location where
  absolute : Bool
  up : ℕ
  names : List Bytes
  deriving DecidableEq

namespace Location

/-- The root directory is its own parent. -/
def goUp (l : Location) : Location :=
  if l.names ≠ [] then { l with names := l.names.dropLast }
  else if l.absolute then l
  else { l with up := l.up + 1 }

def enter (l : Location) (part : Bytes) : Location :=
  if part = PathName.dotDot then l.goUp else { l with names := l.names ++ [part] }

def follow (l : Location) (parts : List Bytes) : Location := parts.foldl enter l

def relative (parts : List Bytes) : Location := follow ⟨false, 0, []⟩ parts

/-- The location is the root or lies below it. -/
def Inside (root l : Location) : Prop :=
  l.absolute = root.absolute ∧ l.up = root.up ∧ root.names <+: l.names

def Below (root l : Location) : Prop := Inside root l ∧ l.names ≠ root.names

instance (root l : Location) : Decidable (Inside root l) :=
  inferInstanceAs (Decidable (_ ∧ _ ∧ _))

instance (root l : Location) : Decidable (Below root l) := inferInstanceAs (Decidable (_ ∧ _))

variable {root l : Location}

theorem Inside.refl (root : Location) : Inside root root := ⟨rfl, rfl, List.prefix_rfl⟩

theorem follow_append (l : Location) (parts rest : List Bytes) :
    l.follow (parts ++ rest) = (l.follow parts).follow rest := List.foldl_append

/-- The location a number of directories up: the last names go, and from the top of a
relative path it goes on. -/
def climb (l : Location) (k : ℕ) : Location where
  absolute := l.absolute
  up := if l.absolute then l.up else l.up + (k - l.names.length)
  names := l.names.take (l.names.length - k)

theorem climb_zero (l : Location) : l.climb 0 = l := by
  simp [climb]

theorem goUp_climb (l : Location) (k : ℕ) : (l.climb k).goUp = l.climb (k+1) := by
  by_cases hk : k < l.names.length
  · have hne : (l.climb k).names ≠ [] := by
      rw [climb, ne_eq, ← List.length_eq_zero_iff, List.length_take]
      omega
    rw [goUp, if_pos hne]
    have hdrop : (l.names.take (l.names.length - k)).dropLast =
        l.names.take (l.names.length - (k+1)) := by
      rw [List.dropLast_eq_take, List.take_take, List.length_take]
      congr 1
      omega
    have hup : k - l.names.length = k + 1 - l.names.length := by omega
    simp only [climb, hdrop, hup]
  · have hnil : ∀ j, k ≤ j → l.names.take (l.names.length - j) = [] := by
      intro j hj
      rw [show l.names.length - j = 0 by omega, List.take_zero]
    have hup : l.up + (k + 1 - l.names.length) = l.up + (k - l.names.length) + 1 := by omega
    unfold goUp climb
    cases l.absolute with
    | true => simp [hnil k (Nat.le_refl k), hnil (k+1) (Nat.le_succ k)]
    | false => simp [hnil k (Nat.le_refl k), hnil (k+1) (Nat.le_succ k), hup]

theorem follow_absolute (l : Location) (parts : List Bytes) :
    (l.follow parts).absolute = l.absolute := by
  induction parts generalizing l with
  | nil => rfl
  | cons part parts ih =>
    refine (ih (l.enter part)).trans ?_
    unfold enter goUp
    split
    · split
      · rfl
      · split <;> rfl
    · rfl

/-- Following parts is going up as often as they do, and entering the names they end with. -/
theorem follow_eq (l : Location) (parts : List Bytes) :
    l.follow parts = { l.climb (relative parts).up with
      names := (l.climb (relative parts).up).names ++ (relative parts).names } := by
  induction parts using List.reverseRecOn with
  | nil => simp [follow, relative, climb_zero]
  | append_singleton parts part ih =>
    have hrel : relative (parts ++ [part]) = (relative parts).enter part := by
      simp only [relative, follow, List.foldl_append, List.foldl_cons, List.foldl_nil]
    have hfollow : l.follow (parts ++ [part]) = (l.follow parts).enter part := by
      simp only [follow, List.foldl_append, List.foldl_cons, List.foldl_nil]
    have hback : (relative parts).absolute = false := follow_absolute _ parts
    rw [hrel, hfollow, ih]
    unfold enter
    split
    · by_cases hnames : (relative parts).names = []
      · have hup : (relative parts).goUp =
            { relative parts with up := (relative parts).up + 1 } := by simp [goUp, hnames, hback]
        rw [hup, hnames]
        simp only [List.append_nil]
        rw [goUp_climb]
      · have hup : (relative parts).goUp =
            { relative parts with names := (relative parts).names.dropLast } := by
          simp [goUp, hnames]
        rw [hup, goUp, if_pos (by simp [hnames]), List.dropLast_append_of_ne_nil hnames]
    · simp [List.append_assoc]

/-- The parts of a way go up no further than `depth`, or they come back into the root by its
own last names. -/
def Stays (root : Location) (depth : ℕ) (way : Location) : Prop :=
  way.up ≤ depth ∨
    (root.absolute = true ∨ way.up - depth ≤ root.names.length) ∧
      root.names.drop (root.names.length - (way.up - depth)) <+: way.names

instance (root : Location) (depth : ℕ) (way : Location) : Decidable (Stays root depth way) :=
  inferInstanceAs (Decidable (_ ∨ _ ∧ _))

/-- From a location inside the root the parts lead to one inside exactly when they stay. -/
theorem inside_follow_iff (h : Inside root l) (parts : List Bytes) :
    Inside root (l.follow parts) ↔
      Stays root (l.names.length - root.names.length) (relative parts) := by
  obtain ⟨habsolute, hup, below, hnames⟩ := h
  have hlen : l.names.length = root.names.length + below.length := by
    rw [← hnames, List.length_append]
  rw [follow_eq]
  generalize relative parts = way
  simp only [Inside, Stays, climb, habsolute, true_and]
  have hdepth : l.names.length - root.names.length = below.length := by omega
  rw [hdepth]
  by_cases hk : way.up ≤ below.length
  · have htake : l.names.take (l.names.length - way.up) =
        root.names ++ below.take (below.length - way.up) := by
      rw [← hnames, List.take_append, List.take_of_length_le (by simp; omega)]
      congr 2
      simp only [List.length_append]
      omega
    have hzero : way.up - l.names.length = 0 := by omega
    simp [hk, htake, hzero, hup]
  · have htake : l.names.take (l.names.length - way.up) =
        root.names.take (root.names.length - (way.up - below.length)) := by
      rw [← hnames, List.take_append_of_le_length (by simp; omega)]
      congr 1
      simp only [List.length_append]
      omega
    have hback : root.names <+: root.names.take (root.names.length - (way.up - below.length)) ++
        way.names ↔
        root.names.drop (root.names.length - (way.up - below.length)) <+: way.names := by
      generalize root.names.length - (way.up - below.length) = m
      nth_rewrite 1 [← List.take_append_drop m root.names]
      exact List.prefix_append_right_inj _
    rw [htake, hback]
    simp only [hk, false_or]
    refine and_congr_left fun _ => ?_
    cases root.absolute with
    | true => simp [hup]
    | false =>
      simp only [Bool.false_eq_true, if_false, false_or]
      omega

def StaysBelow (root way : Location) : Prop :=
  Stays root 0 way ∧ way.names ≠ root.names.drop (root.names.length - way.up)

instance (root way : Location) : Decidable (StaysBelow root way) :=
  inferInstanceAs (Decidable (_ ∧ _))

theorem below_follow_iff (root : Location) (parts : List Bytes) :
    Below root (root.follow parts) ↔ StaysBelow root (relative parts) := by
  have hinside := inside_follow_iff (Inside.refl root) parts
  rw [Nat.sub_self] at hinside
  refine and_congr hinside (not_congr ?_)
  rw [follow_eq]
  generalize relative parts = way
  simp only [climb]
  generalize root.names.length - way.up = m
  nth_rewrite 2 [← List.take_append_drop m root.names]
  exact List.append_right_inj _

theorem Below.enter (h : Below root l) {name : Bytes} (hname : name ≠ PathName.dotDot) :
    Below root (l.enter name) := by
  obtain ⟨⟨habsolute, hup, hprefix⟩, hne⟩ := h
  rw [Location.enter, if_neg hname]
  refine ⟨⟨habsolute, hup, hprefix.trans (List.prefix_append _ _)⟩, fun heq => ?_⟩
  have hlen := hprefix.length_le
  have hlen' := congrArg List.length heq
  simp only [List.length_append, List.length_singleton] at hlen'
  omega

end Location

/-- Where a path leads, by its text. -/
def location (path : Bytes) : Location :=
  Location.follow ⟨PathName.isAbsolute path, 0, []⟩ (PathName.components path)

theorem location_append {left : Bytes} (h : left ≠ []) (right : Bytes) :
    location (PathName.append left right) =
      (location left).follow (PathName.components right) := by
  rw [location, PathName.isAbsolute_append h, PathName.components_append, Location.follow_append,
    location]

namespace PathName

theorem components_parts (path : Bytes) : components path = (parts path).filter (· ≠ dot) := by
  rw [components, parts, List.filter_filter]
  congr 1
  funext part
  simp [and_comm]

theorem mem_parts {path part : Bytes} (h : part ∈ parts path) : part ≠ [] ∧ slash ∉ part := by
  obtain ⟨hsplit, hne⟩ := List.mem_filter.mp h
  exact ⟨by simpa using hne, Bytes.notMem_of_mem_splitOn hsplit⟩

theorem components_part {part : Bytes} (hslash : slash ∉ part) :
    components part = [part].filter fun part => part ≠ [] ∧ part ≠ dot := by
  rw [components, List.splitOn_eq_singleton hslash]

theorem flatMap_components_parts (path : Bytes) :
    (parts path).flatMap components = components path := by
  have hall : ∀ names : List Bytes, (∀ name ∈ names, name ≠ [] ∧ slash ∉ name) →
      names.flatMap components = names.filter (· ≠ dot) := by
    intro names hnames
    induction names with
    | nil => rfl
    | cons name names ih =>
      obtain ⟨⟨hne, hslash⟩, hrest⟩ := List.forall_mem_cons.mp hnames
      rw [List.flatMap_cons, ih hrest, components_part hslash]
      by_cases hdot : name = dot <;> simp [hdot, hne]
  rw [hall _ fun _ => mem_parts, components_parts]

theorem rootName_cases (path : Bytes) : rootName path = [] ∨
    ∃ rest, path = rootName path ++ rest ∧ isAbsolute (rootName path) = true ∧
      (rest = [] ∨ isAbsolute rest = true) := by
  by_cases h : path.take 2 = [slash, slash] ∧ path[2]? ≠ some slash
  · have hname : rootName path = path.take 2 ++ (path.drop 2).takeWhile (· ≠ slash) := if_pos h
    refine .inr ⟨(path.drop 2).dropWhile (· ≠ slash), ?_, by rw [hname, h.1]; rfl, ?_⟩
    · rw [hname, List.append_assoc, List.takeWhile_append_dropWhile, List.take_append_drop]
    · have hhead := List.head?_dropWhile_not (· ≠ slash) (path.drop 2)
      cases hrest : (path.drop 2).dropWhile (· ≠ slash) with
      | nil => exact .inl rfl
      | cons b rest =>
        rw [hrest] at hhead
        exact .inr (by simpa [isAbsolute] using hhead)
  · exact .inl (if_neg h)

theorem elements_of_rootName {path : Bytes} (h : rootName path = []) :
    elements path = elementsBehind path := by
  rw [elements, h]
  rfl

theorem elements_append {path rest : Bytes} (h : path = rootName path ++ rest)
    (hne : rootName path ≠ []) : elements path = rootName path :: elementsBehind rest := by
  have hdrop : path.drop (rootName path).length = rest := by
    calc path.drop (rootName path).length
        = (rootName path ++ rest).drop (rootName path).length := by rw [← h]
      _ = rest := List.drop_left
  rw [elements, if_pos hne, hdrop]
  rfl

theorem components_slash : components [slash] = [] := by decide

theorem components_dot : components dot = [] := by decide

theorem components_isAbsolute {left rest : Bytes} (h : rest = [] ∨ isAbsolute rest = true) :
    components (left ++ rest) = components left ++ components rest := by
  rcases h with rfl | habsolute
  · simp
  · obtain ⟨back, rfl⟩ : ∃ back, rest = slash :: back :=
      List.head?_eq_some_iff.mp (by simpa [isAbsolute] using habsolute)
    have hback : components (slash :: back) = components [] ++ components back :=
      components_append_slash [] back
    rw [components_append_slash, hback, components_nil, List.nil_append]

theorem flatMap_components_behind (rest : Bytes) :
    (elementsBehind rest).flatMap components = components rest := by
  rw [elementsBehind, List.flatMap_append, List.flatMap_append, flatMap_components_parts]
  split <;> split <;> simp [components_slash, components_dot]

theorem flatMap_components_elements (path : Bytes) :
    (elements path).flatMap components = components path := by
  by_cases hname : rootName path = []
  · rw [elements_of_rootName hname, flatMap_components_behind]
  · obtain ⟨rest, hpath, -, hrest⟩ := (rootName_cases path).resolve_left hname
    rw [elements_append hpath hname, List.flatMap_cons, flatMap_components_behind,
      ← components_isAbsolute hrest, ← hpath]

theorem mem_elementsBehind {rest e : Bytes} (h : e ∈ elementsBehind rest) :
    e ≠ [] ∧ (e = [slash] ∨ slash ∉ e) := by
  simp only [elementsBehind, List.mem_append, List.mem_ite_nil_right, List.mem_singleton] at h
  rcases h with ⟨-, rfl⟩ | hpart | ⟨-, rfl⟩
  · exact ⟨by decide, .inl rfl⟩
  · exact ⟨(mem_parts hpart).1, .inr (mem_parts hpart).2⟩
  · exact ⟨by decide, .inr (by decide)⟩

/-- The first element tells whether the path is absolute. -/
theorem elementsBehind_head {rest e : Bytes} {es : List Bytes} (h : elementsBehind rest = e :: es) :
    isAbsolute e = isAbsolute rest := by
  cases habsolute : isAbsolute rest with
  | true =>
    rw [elementsBehind, if_pos habsolute, List.singleton_append, List.cons.injEq] at h
    rw [← h.1]
    rfl
  | false =>
    have hmem : e ≠ [] ∧ slash ∉ e := by
      have he : e ∈ elementsBehind rest := h ▸ List.mem_cons_self
      simp only [elementsBehind, habsolute, List.mem_append, List.mem_ite_nil_right,
        List.mem_singleton, Bool.false_eq_true, false_and, false_or] at he
      rcases he with hpart | ⟨-, rfl⟩
      · exact mem_parts hpart
      · decide
    obtain ⟨b, name, rfl⟩ := List.exists_cons_of_ne_nil hmem.1
    have hb : b ≠ slash := fun heq => hmem.2 (by simp [heq])
    simp [isAbsolute, hb]

theorem elements_head {path e : Bytes} {es : List Bytes} (h : elements path = e :: es) :
    e ≠ [] ∧ isAbsolute e = isAbsolute path ∧ ∀ e ∈ es, e = [slash] ∨ slash ∉ e := by
  by_cases hname : rootName path = []
  · rw [elements_of_rootName hname] at h
    have hmem : ∀ e' ∈ e :: es, e' ≠ [] ∧ (e' = [slash] ∨ slash ∉ e') :=
      fun e' he => mem_elementsBehind (h ▸ he)
    exact ⟨(hmem e List.mem_cons_self).1, elementsBehind_head h,
      fun e' he => (hmem e' (List.mem_cons_of_mem _ he)).2⟩
  · obtain ⟨rest, hpath, habsolute, -⟩ := (rootName_cases path).resolve_left hname
    rw [elements_append hpath hname, List.cons.injEq] at h
    obtain ⟨rfl, rfl⟩ := h
    have hpathAbsolute : isAbsolute path = isAbsolute (rootName path) :=
      (congrArg isAbsolute hpath).trans (isAbsolute_concat hname rest)
    exact ⟨hname, hpathAbsolute.symm, fun e he => (mem_elementsBehind he).2⟩

theorem elements_last {path last : Bytes} {front : List Bytes}
    (h : elements path = front ++ [last]) (halone : front = [] → isAbsolute path = false) :
    last = [slash] ∨ slash ∉ last := by
  cases front with
  | cons e front => exact (elements_head h).2.2 last (List.mem_append_right _ List.mem_cons_self)
  | nil =>
    by_cases hname : rootName path = []
    · rw [elements_of_rootName hname] at h
      have hmem : last ∈ elementsBehind path := by
        rw [h]
        exact List.mem_cons_self
      exact (mem_elementsBehind hmem).2
    · obtain ⟨rest, hpath, habsolute, -⟩ := (rootName_cases path).resolve_left hname
      have hrelative := halone rfl
      rw [hpath, isAbsolute_concat hname, habsolute] at hrelative
      cases hrelative

theorem isAbsolute_of_elements_nil {path : Bytes} (h : elements path = []) :
    isAbsolute path = false := by
  by_cases hname : rootName path = []
  · rw [elements_of_rootName hname, elementsBehind, List.append_eq_nil_iff] at h
    cases habsolute : isAbsolute path with
    | true => exact nomatch (if_pos habsolute).symm.trans h.1
    | false => rfl
  · obtain ⟨rest, hpath, -, -⟩ := (rootName_cases path).resolve_left hname
    exact nomatch (elements_append hpath hname).symm.trans h

theorem components_foldl (path : Bytes) (names : List Bytes) :
    components (names.foldl append path) = components path ++ names.flatMap components := by
  induction names generalizing path with
  | nil => simp
  | cons name names ih =>
    rw [List.foldl_cons, ih, components_append, List.append_assoc, List.flatMap_cons]

theorem isAbsolute_foldl {path : Bytes} (h : path ≠ []) (names : List Bytes) :
    isAbsolute (names.foldl append path) = isAbsolute path := by
  induction names generalizing path with
  | nil => rfl
  | cons name names ih => rw [List.foldl_cons, ih (append_ne_nil h name), isAbsolute_append h]

theorem components_parentPath {path last : Bytes} {front : List Bytes}
    (h : elements path = front ++ [last]) :
    components path = components (parentPath path) ++ components last := by
  rw [parentPath, h, List.dropLast_concat, components_foldl, components_nil, List.nil_append,
    ← flatMap_components_elements path, h, List.flatMap_append, List.flatMap_singleton]

theorem isAbsolute_parentPath {path last e : Bytes} {front : List Bytes}
    (h : elements path = (e :: front) ++ [last]) :
    isAbsolute (parentPath path) = isAbsolute path := by
  rw [List.cons_append] at h
  obtain ⟨hne, habsolute, -⟩ := elements_head h
  rw [parentPath, h, ← List.cons_append, List.dropLast_concat, List.foldl_cons]
  have hfirst : append [] e = e := by simp [append]
  rw [hfirst, isAbsolute_foldl hne, habsolute]

/-- The bytes that a call of the operating system gets. -/
def cString (path : Bytes) : Bytes := path.takeWhile (· ≠ 0)

/-- The names in front of the first zero byte. -/
def cNames : List Bytes → List Bytes
  | [] => []
  | name :: names => if 0 ∈ name then components (cString name) else name :: cNames names

theorem cString_eq_self {path : Bytes} : cString path = path ↔ 0 ∉ path := by
  rw [cString, List.takeWhile_eq_self_iff]
  constructor
  · exact fun h hzero => absurd (h 0 hzero) (by decide)
  · exact fun h b hb => decide_eq_true fun heq => h (heq ▸ hb)

theorem cString_append (path more : Bytes) :
    cString (path ++ more) = if 0 ∈ path then cString path else path ++ cString more := by
  by_cases hzero : 0 ∈ path
  · rw [if_pos hzero, cString, List.takeWhile_append, if_neg]
    · rfl
    · exact fun hlen => cString_eq_self.mp
        ((List.takeWhile_prefix _).eq_of_length hlen : cString path = path) hzero
  · rw [if_neg hzero, cString, List.takeWhile_append_of_pos]
    · rfl
    · exact fun b hb => decide_eq_true fun heq => hzero (heq ▸ hb)

theorem part_induction {C : Bytes → Prop} (hpart : ∀ part, slash ∉ part → C part)
    (hmore : ∀ part rest, slash ∉ part → C rest → C (part ++ slash :: rest)) (path : Bytes) :
    C path := by
  induction hn : path.length using Nat.strong_induction_on generalizing path with
  | _ n ih =>
    by_cases hslash : slash ∈ path
    · obtain ⟨part, rest, rfl, hfree⟩ := List.eq_append_cons_of_mem hslash
      refine hmore part rest hfree (ih rest.length ?_ rest rfl)
      rw [← hn, List.length_append, List.length_cons]
      omega
    · exact hpart path hslash

theorem components_zero {part : Bytes} (hslash : slash ∉ part) (hzero : 0 ∈ part) :
    components part = [part] := by
  refine components_name hslash (List.ne_nil_of_mem hzero) ?_
  rintro rfl
  exact absurd hzero (by decide)

theorem zero_mem_iff (path : Bytes) : 0 ∈ path ↔ ∃ name ∈ components path, 0 ∈ name := by
  constructor
  · induction path using part_induction with
    | hpart part hslash =>
      intro hzero
      exact ⟨part, by simp [components_zero hslash hzero], hzero⟩
    | hmore part rest hslash ih =>
      intro hzero
      rw [components_append_slash]
      rcases List.mem_append.mp hzero with hzero | hzero
      · exact ⟨part, by simp [components_zero hslash hzero], hzero⟩
      · obtain ⟨name, hname, hmem⟩ := ih ((List.mem_cons.mp hzero).resolve_left (by decide))
        exact ⟨name, List.mem_append_right _ hname, hmem⟩
  · rintro ⟨name, hname, hzero⟩
    exact (Bytes.infix_of_mem_splitOn (List.mem_of_mem_filter hname)).subset hzero

theorem cNames_append (names more : List Bytes) : cNames (names ++ more) =
    if ∃ name ∈ names, 0 ∈ name then cNames names else names ++ cNames more := by
  induction names with
  | nil => simp
  | cons name names ih =>
    rw [List.cons_append, cNames, cNames, ih]
    by_cases hname : 0 ∈ name
    · simp [hname]
    · by_cases hnames : ∃ name ∈ names, 0 ∈ name <;> simp [hname, hnames]

theorem cNames_components (path more : Bytes) :
    cNames (components path ++ components more) =
      if 0 ∈ path then cNames (components path)
      else components path ++ cNames (components more) := by
  rw [cNames_append]
  simp only [← zero_mem_iff]

theorem components_cString (path : Bytes) :
    components (cString path) = cNames (components path) := by
  induction path using part_induction with
  | hpart part hslash =>
    by_cases hzero : 0 ∈ part
    · rw [components_zero hslash hzero, cNames, if_pos hzero]
    · have hself := cNames_components part []
      rw [if_neg hzero, components_nil, cNames, List.append_nil] at hself
      rw [cString_eq_self.mpr hzero, hself]
  | hmore part rest hslash ih =>
    rw [components_append_slash, cNames_components]
    rw [cString_append]
    by_cases hzero : 0 ∈ part
    · rw [if_pos hzero, if_pos hzero, components_zero hslash hzero, cNames, if_pos hzero]
    · have hrest : cString (slash :: rest) = slash :: cString rest :=
        List.takeWhile_cons_of_pos (by decide)
      rw [if_neg hzero, if_neg hzero, hrest, components_append_slash, ih]

end PathName

/-- How far paths are read. Behind a path that is read to its end the next one is read as by
itself, and behind one that is not nothing is. -/
structure Reading (seen : Bytes → Bytes) : Prop where
  initial : ∀ path, seen path <+: path
  absolute : ∀ path, PathName.isAbsolute (seen path) = PathName.isAbsolute path
  components : ∀ path front last : Bytes,
    PathName.components path = PathName.components front ++ PathName.components last →
    PathName.components (seen path) = if seen front = front then
      PathName.components front ++ PathName.components (seen last)
    else PathName.components (seen front)

namespace Reading

theorem whole : Reading id :=
  ⟨fun _ => List.prefix_rfl, fun _ => rfl, fun _ _ _ h => by simp [h]⟩

theorem cString : Reading PathName.cString := by
  refine ⟨fun path => List.takeWhile_prefix _, fun path => ?_, fun path front last h => ?_⟩
  · cases path with
    | nil => rfl
    | cons b path =>
      by_cases hb : b = 0
      · subst hb
        rfl
      · simp [PathName.cString, PathName.isAbsolute, hb]
  · rw [PathName.components_cString, h, PathName.cNames_components]
    simp only [PathName.cString_eq_self, PathName.components_cString]
    split <;> simp_all

variable {seen : Bytes → Bytes} (hread : Reading seen)
include hread

theorem location_eq {path front last : Bytes}
    (habsolute : PathName.isAbsolute path = PathName.isAbsolute front)
    (hcomponents : PathName.components path =
      PathName.components front ++ PathName.components last) :
    location (seen path) = if seen front = front then
      (location front).follow (PathName.components (seen last)) else location (seen front) := by
  rw [location, hread.absolute, hread.components path front last hcomponents, habsolute]
  split
  · rw [Location.follow_append, location]
  · rw [location, hread.absolute]

theorem seen_nil : seen [] = [] := List.prefix_nil.mp (hread.initial [])

end Reading

/-- Behind a directory inside the root the path leads to one inside it. -/
def JoinStays (seen : Bytes → Bytes) (root : Location) (left right : Bytes) : Prop :=
  seen left = left → ¬ (left = [] ∧ PathName.isAbsolute right = true) ∧
    Location.Stays root ((location left).names.length - root.names.length)
      (.relative (PathName.components (seen right)))

instance (seen : Bytes → Bytes) (root : Location) (left right : Bytes) :
    Decidable (JoinStays seen root left right) :=
  inferInstanceAs (Decidable (_ → _ ∧ _))

/-- The parent of a path inside the root is inside it too. The parent of the root directory, or
of a root name, is the empty path. -/
def ParentStays (seen : Bytes → Bytes) (root : Location) (path : Bytes) : Prop :=
  ∀ last ∈ (PathName.elements path).getLast?,
    ¬ (PathName.isAbsolute path = true ∧ (PathName.elements path).length = 1) ∧
    (seen (PathName.parentPath path) = PathName.parentPath path →
      if seen last = [] ∨ seen last = [PathName.slash] ∨ seen last = PathName.dot then True
      else if seen last = PathName.dotDot then PathName.isAbsolute path = true ∨
        (location (PathName.parentPath path)).names ≠ []
      else root.names.length < (location (seen path)).names.length)

instance (seen : Bytes → Bytes) (root : Location) (path : Bytes) :
    Decidable (ParentStays seen root path) :=
  inferInstanceAs (Decidable (∀ last ∈ _, ¬ (_ ∧ _) ∧ (_ → if seen last = _ ∨ _ ∨ _ then _
    else if seen last = _ then _ ∨ _ ≠ _ else (_ : ℕ) < _)))

theorem Location.inside_iff_of_goUp {root l : Location} (h : Inside root l.goUp) :
    Inside root l ↔ l.absolute = true ∨ l.names ≠ [] := by
  unfold Location.goUp at h
  by_cases hnames : l.names = []
  · rw [if_neg (not_not.mpr hnames)] at h
    cases habsolute : l.absolute with
    | true =>
      rw [habsolute, if_pos rfl] at h
      simp [h]
    | false =>
      rw [habsolute, if_neg (by decide)] at h
      have hup : l.up + 1 = root.up := h.2.1
      refine iff_of_false (fun hl => ?_) (by simp [hnames])
      have heq := hl.2.1
      omega
  · rw [if_pos hnames] at h
    exact iff_of_true ⟨h.1, h.2.1, h.2.2.trans (List.dropLast_prefix _)⟩ (.inr hnames)

theorem Location.inside_iff_of_name {root l : Location} {name : Bytes}
    (h : Inside root { l with names := l.names ++ [name] }) :
    Inside root l ↔ root.names.length < l.names.length + 1 := by
  obtain ⟨habsolute, hup, hprefix⟩ := h
  constructor
  · intro hl
    exact Nat.lt_succ_of_le hl.2.2.length_le
  · intro hlen
    exact ⟨habsolute, hup, List.prefix_of_prefix_length_le hprefix (List.prefix_append _ _)
      (Nat.le_of_lt_succ hlen)⟩

namespace Reading

variable {seen : Bytes → Bytes} (hread : Reading seen) {root : Location}
include hread

theorem inside_append_iff {left : Bytes} (h : Location.Inside root (location (seen left)))
    (right : Bytes) : Location.Inside root (location (seen (PathName.append left right))) ↔
      JoinStays seen root left right := by
  unfold JoinStays
  by_cases hleft : left = []
  · subst hleft
    have hjoin : PathName.append [] right = right := by simp [PathName.append]
    have hstart : location [] = ⟨false, 0, []⟩ := rfl
    have hwhere : location (seen right) =
        Location.follow ⟨PathName.isAbsolute right, 0, []⟩ (PathName.components (seen right)) := by
      rw [location, hread.absolute]
    rw [hread.seen_nil] at h
    rw [hjoin, hwhere, forall_prop_of_true hread.seen_nil, ← Location.inside_follow_iff h, hstart]
    cases habsolute : PathName.isAbsolute right with
    | false => simp
    | true =>
      refine iff_of_false (fun hright => ?_) (by simp)
      have hroot := h.1
      rw [← hright.1, Location.follow_absolute] at hroot
      cases hroot
  · rw [hread.location_eq (PathName.isAbsolute_append hleft right)
      (PathName.components_append left right)]
    split
    · rename_i hseen
      rw [hseen] at h
      rw [Location.inside_follow_iff h, forall_prop_of_true hseen]
      simp [hleft]
    · rename_i hseen
      exact iff_of_true h fun hself => absurd hself hseen

/-- The last element leads from the parent to the path. -/
theorem inside_parentPath_concat {path last : Bytes} {front : List Bytes}
    (hconcat : PathName.elements path = front ++ [last])
    (halone : front = [] → PathName.isAbsolute path = false)
    (h : Location.Inside root (location (seen path))) :
    Location.Inside root (location (seen (PathName.parentPath path))) ↔
      ParentStays seen root path := by
  have hlast : (PathName.elements path).getLast? = some last := by
    rw [hconcat, List.getLast?_concat]
  have habsolute : PathName.isAbsolute path = PathName.isAbsolute (PathName.parentPath path) := by
    cases front with
    | cons e front => exact (PathName.isAbsolute_parentPath hconcat).symm
    | nil =>
      rw [halone rfl, PathName.parentPath, hconcat]
      rfl
  have hnotAlone : ¬ (PathName.isAbsolute path = true ∧ (PathName.elements path).length = 1) := by
    rintro ⟨hpath, hlen⟩
    rw [hconcat, List.length_append, List.length_singleton] at hlen
    rw [halone (List.length_eq_zero_iff.mp (by omega))] at hpath
    cases hpath
  have hwhere := hread.location_eq habsolute (PathName.components_parentPath hconcat)
  unfold ParentStays
  simp only [hlast, Option.mem_some_iff, forall_eq', hnotAlone, not_false_eq_true, true_and]
  by_cases hseen : seen (PathName.parentPath path) = PathName.parentPath path
  · rw [if_pos hseen] at hwhere
    rw [hseen, forall_prop_of_true rfl]
    rw [hwhere] at h ⊢
    split
    · rename_i hskip
      have hnone : PathName.components (seen last) = [] := by
        rcases hskip with heq | heq | heq <;> rw [heq] <;> decide
      rw [hnone] at h
      exact iff_of_true h trivial
    · rename_i hname
      simp only [not_or] at hname
      have hslash : PathName.slash ∉ seen last := by
        rcases PathName.elements_last hconcat halone with rfl | hfree
        · have hprefix := List.prefix_cons_iff.mp (hread.initial [PathName.slash])
          rcases hprefix with hnil | ⟨rest, heq, hrest⟩
          · exact absurd hnil hname.1
          · rw [List.prefix_nil.mp hrest] at heq
            exact absurd heq hname.2.1
        · exact fun hmem => hfree ((hread.initial last).subset hmem)
      rw [PathName.components_name hslash hname.1 hname.2.2] at h ⊢
      split
      · rename_i hdots
        have hup : (location (PathName.parentPath path)).follow [seen last] =
            (location (PathName.parentPath path)).goUp := by
          rw [hdots]
          rfl
        have hstart : (location (PathName.parentPath path)).absolute =
            PathName.isAbsolute (PathName.parentPath path) := Location.follow_absolute _ _
        rw [hup] at h
        rw [Location.inside_iff_of_goUp h, hstart, habsolute]
      · rename_i hdots
        have henter : (location (PathName.parentPath path)).follow [seen last] =
            { location (PathName.parentPath path) with
              names := (location (PathName.parentPath path)).names ++ [seen last] } := by
          rw [Location.follow, List.foldl_cons, List.foldl_nil, Location.enter, if_neg hdots]
        rw [henter] at h ⊢
        rw [Location.inside_iff_of_name h, List.length_append, List.length_singleton]
  · rw [if_neg hseen] at hwhere
    rw [hwhere] at h
    exact iff_of_true h fun hself => absurd hself hseen

theorem inside_parentPath_iff {path : Bytes} (h : Location.Inside root (location (seen path))) :
    Location.Inside root (location (seen (PathName.parentPath path))) ↔
      ParentStays seen root path := by
  rcases List.eq_nil_or_concat (PathName.elements path) with hnil | ⟨front, last, hconcat⟩
  · have hparent : PathName.parentPath path = [] := by
      rw [PathName.parentPath, hnil]
      rfl
    have hcomponents := PathName.flatMap_components_elements path
    rw [hnil, List.flatMap_nil] at hcomponents
    have hwhere := @location_eq seen hread path [] [] (PathName.isAbsolute_of_elements_nil hnil)
      hcomponents.symm
    rw [if_pos hread.seen_nil, hread.seen_nil] at hwhere
    rw [hwhere] at h
    rw [hparent, hread.seen_nil]
    exact iff_of_true h (by simp [ParentStays, hnil])
  · rw [List.concat_eq_append] at hconcat
    by_cases halone : front = [] → PathName.isAbsolute path = false
    · exact hread.inside_parentPath_concat hconcat halone h
    · -- The root directory or a root name alone: the parent is the empty path.
      rw [Classical.not_imp, Bool.not_eq_false] at halone
      obtain ⟨rfl, habsolute⟩ := halone
      have hparent : PathName.parentPath path = [] := by
        rw [PathName.parentPath, hconcat]
        rfl
      refine iff_of_false (fun hinside => ?_) ?_
      · have hstart : (location (seen path)).absolute = true := by
          rw [location, Location.follow_absolute, hread.absolute, habsolute]
        have hroot := h.1.trans hinside.1.symm
        rw [hstart, hparent, hread.seen_nil] at hroot
        cases hroot
      · simp [ParentStays, hconcat, habsolute]

end Reading

end NetworkProtocols
