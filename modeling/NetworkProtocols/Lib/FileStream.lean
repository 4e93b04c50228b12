import NetworkProtocols.Lib.Bytes
import Mathlib.Logic.Function.Basic

/-!
# Files and C++ file streams

The parts of `std::ifstream` and `std::ofstream` that the programs use, over a file
system that maps names to files. A stream keeps the file it has open and its error
bits. A file holds what its stream was given: `std::filebuf` may keep the end of it in its
buffer until the file is closed.
-/

namespace NetworkProtocols

namespace PathName

def slash : Byte := 47

/-- `operator/`: a separator is added unless one is there or one of the two is empty. -/
def append (left right : Bytes) : Bytes :=
  if left = [] ∨ left.getLast? = some slash ∨ right = [] ∨ right.head? = some slash then
    left ++ right
  else left ++ slash :: right

/-- A name that is looked up in the current directory. -/
structure IsRelative (name : Bytes) : Prop where
  ne_nil : name ≠ []
  head : name.head? ≠ some slash
  nul_free : 0 ∉ name

@[simp] theorem nil_append (name : Bytes) : append [] name = name := by
  rw [append, if_pos (.inl rfl), List.nil_append]

end PathName

abbrev Path := Bytes

/-- How a program's names are resolved. Two names may denote one entry, as `x` and `./x` do. -/
structure Naming where
  denotes : Bytes → Path
  currentPath : Bytes
  relative : ∀ name, PathName.IsRelative name →
    denotes (PathName.append currentPath name) = denotes name

namespace Naming

/-- `currentPath / filename`. In front of an absolute name this is another path. -/
def filePath (names : Naming) (filename : Bytes) : Bytes :=
  PathName.append names.currentPath filename

/-- Every name is its own directory entry. -/
def verbatim : Naming where
  denotes := id
  currentPath := []
  relative name _ := PathName.nil_append name

/-- Without links: a relative name lies in the current directory. -/
def inDirectory (dir : Bytes) (hhead : dir.head? = some PathName.slash)
    (hlast : dir.getLast? ≠ some PathName.slash) : Naming where
  denotes name :=
    if name.head? = some PathName.slash then name else dir ++ PathName.slash :: name
  currentPath := dir
  relative name h := by
    have hne : dir ≠ [] := by
      rintro rfl
      cases hhead
    have happend : PathName.append dir name = dir ++ PathName.slash :: name := by
      rw [PathName.append, if_neg]
      rintro (hnil | hslash | hnil | hslash)
      · exact hne hnil
      · exact hlast hslash
      · exact h.ne_nil hnil
      · exact h.head hslash
    have habsolute : (dir ++ PathName.slash :: name).head? = some PathName.slash := by
      rw [List.head?_append_of_ne_nil _ hne, hhead]
    rw [happend, if_pos habsolute, if_neg h.head]

end Naming

structure FileSystem extends Naming where
  content : Path → Option Bytes

namespace FileSystem

def lookup (fs : FileSystem) (name : Bytes) : Option Bytes := fs.content (fs.denotes name)

theorem lookup_filePath (fs : FileSystem) {name : Bytes} (h : PathName.IsRelative name) :
    fs.lookup (fs.filePath name) = fs.lookup name :=
  congrArg fs.content (fs.relative name h)

def single (name content : Bytes) : FileSystem where
  toNaming := .verbatim
  content p := if p = name then some content else none

/-- Create the file, or truncate it when it exists. -/
def create (fs : FileSystem) (p : Path) : FileSystem :=
  { fs with content := Function.update fs.content p (some []) }

/-- Write at the end of a file; a file that was removed stays removed. -/
def append (fs : FileSystem) (p : Path) (bytes : Bytes) : FileSystem :=
  { fs with content := Function.update fs.content p ((fs.content p).map (· ++ bytes)) }

/-- Leave other bytes in a file; a file that was removed stays removed. -/
def replace (fs : FileSystem) (p : Path) (bytes : Bytes) : FileSystem :=
  { fs with content := Function.update fs.content p ((fs.content p).map fun _ => bytes) }

def remove (fs : FileSystem) (p : Path) : FileSystem :=
  { fs with content := Function.update fs.content p none }

variable (fs : FileSystem) (p : Path) (bytes : Bytes)

@[simp] theorem create_toNaming : (fs.create p).toNaming = fs.toNaming := rfl
@[simp] theorem append_toNaming : (fs.append p bytes).toNaming = fs.toNaming := rfl

@[simp] theorem create_content_self : (fs.create p).content p = some [] := by simp [create]

@[simp] theorem append_content_self :
    (fs.append p bytes).content p = (fs.content p).map (· ++ bytes) := by simp [append]

theorem create_content_of_ne {q : Path} (h : q ≠ p) : (fs.create p).content q = fs.content q := by
  simp [create, h]

theorem append_content_of_ne {q : Path} (h : q ≠ p) :
    (fs.append p bytes).content q = fs.content q := by
  simp [append, h]

theorem replace_content_of_ne {q : Path} (h : q ≠ p) :
    (fs.replace p bytes).content q = fs.content q := by
  simp [replace, h]

@[simp] theorem append_nil : fs.append p [] = fs := by
  simp [append, Function.update_eq_self]

theorem append_append (a b : Bytes) : (fs.append p a).append p b = fs.append p (a ++ b) := by
  simp [append, Function.comp_def]

/-- The file systems resolve names alike and have the same files in `own`. -/
def AgreeOn (own : Path → Prop) (fs fs' : FileSystem) : Prop :=
  fs.toNaming = fs'.toNaming ∧ ∀ p, own p → fs.content p = fs'.content p

section AgreeOn

variable {own : Path → Prop} {fs fs' fs'' : FileSystem} {p : Path}

theorem AgreeOn.refl (own : Path → Prop) (fs : FileSystem) : AgreeOn own fs fs :=
  ⟨rfl, fun _ _ => rfl⟩

theorem AgreeOn.trans (h : AgreeOn own fs fs') (h' : AgreeOn own fs' fs'') : AgreeOn own fs fs'' :=
  ⟨h.1.trans h'.1, fun p hp => (h.2 p hp).trans (h'.2 p hp)⟩

theorem AgreeOn.mono {other : Path → Prop} (hsub : ∀ p, other p → own p) (h : AgreeOn own fs fs') :
    AgreeOn other fs fs' :=
  ⟨h.1, fun p hp => h.2 p (hsub p hp)⟩

theorem AgreeOn.lookup (h : AgreeOn own fs fs') {name : Bytes} (hown : own (fs.denotes name)) :
    fs.lookup name = fs'.lookup name := by
  rw [FileSystem.lookup, FileSystem.lookup, h.2 _ hown, h.1]

theorem AgreeOn.create (h : AgreeOn own fs fs') (p : Path) :
    AgreeOn own (fs.create p) (fs'.create p) := by
  refine ⟨h.1, fun q hq => ?_⟩
  by_cases hqp : q = p
  · rw [hqp, create_content_self, create_content_self]
  · rw [create_content_of_ne _ _ hqp, create_content_of_ne _ _ hqp, h.2 q hq]

theorem AgreeOn.append (h : AgreeOn own fs fs') (p : Path) (bytes : Bytes) :
    AgreeOn own (fs.append p bytes) (fs'.append p bytes) := by
  refine ⟨h.1, fun q hq => ?_⟩
  by_cases hqp : q = p
  · rw [← hqp, append_content_self, append_content_self, h.2 q hq]
  · rw [append_content_of_ne _ _ _ hqp, append_content_of_ne _ _ _ hqp, h.2 q hq]

theorem AgreeOn.replace (h : AgreeOn own fs fs') (p : Path) (bytes : Bytes) :
    AgreeOn own (fs.replace p bytes) (fs'.replace p bytes) := by
  refine ⟨h.1, fun q hq => ?_⟩
  by_cases hqp : q = p
  · rw [← hqp]
    simp [FileSystem.replace, h.2 q hq]
  · rw [replace_content_of_ne _ _ _ hqp, replace_content_of_ne _ _ _ hqp, h.2 q hq]

theorem agreeOn_create (fs : FileSystem) (hp : own p) :
    AgreeOn (fun q => ¬ own q) (fs.create p) fs := by
  refine ⟨rfl, fun q hq => create_content_of_ne _ _ ?_⟩
  rintro rfl
  exact hq hp

theorem agreeOn_append (fs : FileSystem) (hp : own p) (bytes : Bytes) :
    AgreeOn (fun q => ¬ own q) (fs.append p bytes) fs := by
  refine ⟨rfl, fun q hq => append_content_of_ne _ _ _ ?_⟩
  rintro rfl
  exact hq hp

theorem agreeOn_replace (fs : FileSystem) (hp : own p) (bytes : Bytes) :
    AgreeOn (fun q => ¬ own q) (fs.replace p bytes) fs := by
  refine ⟨rfl, fun q hq => replace_content_of_ne _ _ _ ?_⟩
  rintro rfl
  exact hq hp

end AgreeOn

end FileSystem

/-- An input stream: the file it has open, the read position, and its error bits. -/
structure IfStream where
  file : Option Path := none
  pos : ℕ := 0
  eof : Bool := false
  fail : Bool := false
  deriving DecidableEq

namespace IfStream

def good (s : IfStream) : Bool := !s.eof && !s.fail

/-- The bytes between the read position and the end of the file. -/
def unread (fs : FileSystem) (s : IfStream) : Bytes :=
  match s.file with
  | none => []
  | some p => ((fs.content p).getD []).drop s.pos

/-- `open`: an open stream refuses a second file and keeps the first; a success clears
the error bits. `granted` is the answer of the operating system for an existing file. -/
def openFile (fs : FileSystem) (s : IfStream) (name : Bytes) (granted : Bool) : IfStream :=
  if s.file.isNone && granted && (fs.lookup name).isSome then { file := some (fs.denotes name) }
  else { s with fail := true }

def peek (fs : FileSystem) (s : IfStream) : IfStream × Option Byte :=
  if s.good then
    match s.unread fs with
    | [] => ({ s with eof := true }, none)
    | b :: _ => (s, some b)
  else ({ s with fail := true }, none)

def get (fs : FileSystem) (s : IfStream) : IfStream × Option Byte :=
  if s.good then
    match s.unread fs with
    | [] => ({ s with eof := true, fail := true }, none)
    | b :: _ => ({ s with pos := s.pos + 1 }, some b)
  else ({ s with fail := true }, none)

/-- `read` with `gcount`: a short count sets both `eofbit` and `failbit`. -/
def read (fs : FileSystem) (s : IfStream) (n : ℕ) : IfStream × Bytes :=
  if s.good then
    let bytes := (s.unread fs).take n
    if bytes.length < n then
      ({ s with pos := s.pos + bytes.length, eof := true, fail := true }, bytes)
    else ({ s with pos := s.pos + n }, bytes)
  else ({ s with fail := true }, [])

def close (s : IfStream) : IfStream :=
  if s.file.isSome then { s with file := none, pos := 0 } else { s with fail := true }

def Readable (fs : FileSystem) (s : IfStream) : Prop := s.good = true ∨ s.unread fs = []

variable {fs : FileSystem} {s : IfStream}

theorem openFile_granted {name content : Bytes} (hs : s.file = none)
    (h : fs.lookup name = some content) :
    s.openFile fs name true = { file := some (fs.denotes name) } := by
  simp [openFile, hs, h]

theorem unread_opened {name content : Bytes} (h : fs.lookup name = some content) :
    unread fs { file := some (fs.denotes name) } = content := by
  have hc : fs.content (fs.denotes name) = some content := h
  simp [unread, hc]

theorem openFile_refused {name : Bytes} {granted : Bool}
    (h : s.file.isSome = true ∨ granted = false ∨ fs.lookup name = none) :
    s.openFile fs name granted = { s with fail := true } := by
  unfold openFile
  rw [if_neg]
  rcases h with h | h | h
  · cases hf : s.file <;> simp [hf] at h ⊢
  · simp [h]
  · simp [h]

theorem unread_skip (n : ℕ) (e f : Bool) :
    unread fs ⟨s.file, s.pos + n, e, f⟩ = (s.unread fs).drop n := by
  unfold unread
  cases s.file with
  | none => simp
  | some p => simp [List.drop_drop]

theorem Readable.good (h : s.Readable fs) (hu : s.unread fs ≠ []) : s.good = true :=
  h.resolve_right hu

theorem peek_end (h : s.unread fs = []) :
    (s.peek fs).2 = none ∧ (s.peek fs).1.unread fs = [] ∧ (s.peek fs).1.file = s.file := by
  unfold peek
  split
  · rw [h]
    exact ⟨rfl, h, rfl⟩
  · exact ⟨rfl, h, rfl⟩

theorem peek_byte {b : Byte} {rest : Bytes} (hg : s.good = true) (h : s.unread fs = b :: rest) :
    s.peek fs = (s, some b) := by
  simp [peek, hg, h]

theorem get_byte {b : Byte} {rest : Bytes} (hg : s.good = true) (h : s.unread fs = b :: rest) :
    s.get fs = ({ s with pos := s.pos + 1 }, some b) := by
  simp [get, hg, h]

theorem get_unread {b : Byte} {rest : Bytes} (h : s.unread fs = b :: rest) :
    unread fs { s with pos := s.pos + 1 } = rest := by
  rw [unread_skip 1 s.eof s.fail, h, List.drop_one, List.tail_cons]

/-- `read` returns the next bytes and moves behind them. -/
theorem read_spec (h : s.Readable fs) (n : ℕ) :
    (s.read fs n).2 = (s.unread fs).take n ∧
    (s.read fs n).1.unread fs = (s.unread fs).drop n ∧
    (s.read fs n).1.Readable fs ∧ (s.read fs n).1.file = s.file := by
  unfold read
  split
  · rename_i hg
    dsimp only
    split
    · rename_i hlt
      have hshort : (s.unread fs).length < n := by
        rw [List.length_take] at hlt
        omega
      have hend : unread fs ⟨s.file, s.pos + ((s.unread fs).take n).length, true, true⟩ =
          (s.unread fs).drop n := by
        rw [unread_skip, List.take_of_length_le (Nat.le_of_lt hshort), List.drop_length,
          List.drop_eq_nil_of_le (Nat.le_of_lt hshort)]
      refine ⟨rfl, hend, .inr ?_, rfl⟩
      rw [hend, List.drop_eq_nil_of_le (Nat.le_of_lt hshort)]
    · exact ⟨rfl, unread_skip n _ _, .inl hg, rfl⟩
  · rename_i hg
    have hu : s.unread fs = [] := h.resolve_left hg
    refine ⟨by simp [hu], ?_, .inr hu, rfl⟩
    rw [hu, List.drop_nil]
    exact hu

theorem read_length_le (fs : FileSystem) (s : IfStream) (n : ℕ) : (s.read fs n).2.length ≤ n := by
  unfold read
  split
  · dsimp only
    split <;> exact List.length_take_le ..
  · exact Nat.zero_le n

/-- The file that the stream has open, if any, is in `own`. -/
def In (own : Path → Prop) (s : IfStream) : Prop := ∀ p, s.file = some p → own p

theorem In.peek {own : Path → Prop} (hs : s.In own) {t : IfStream} {x : Option Byte}
    (h : s.peek fs = (t, x)) : t.In own := by
  have hfile : (s.peek fs).1.file = s.file := by
    unfold IfStream.peek
    split
    · split <;> rfl
    · rfl
  rw [h] at hfile
  intro p hp
  exact hs p (hfile ▸ hp)

theorem In.get {own : Path → Prop} (hs : s.In own) (fs : FileSystem) : (s.get fs).1.In own := by
  unfold IfStream.get
  split
  · split <;> exact hs
  · exact hs

theorem In.read {own : Path → Prop} (hs : s.In own) (fs : FileSystem) (n : ℕ) :
    (s.read fs n).1.In own := by
  unfold IfStream.read
  split
  · dsimp only
    split <;> exact hs
  · exact hs

theorem In.close {own : Path → Prop} (hs : s.In own) : s.close.In own := by
  unfold IfStream.close
  split
  · exact fun p hp => nomatch hp
  · exact hs

section

variable {own : Path → Prop} {fs' : FileSystem}

theorem unread_agree (h : FileSystem.AgreeOn own fs fs') (hs : s.In own) :
    s.unread fs = s.unread fs' := by
  unfold unread
  cases hf : s.file with
  | none => rfl
  | some p =>
    dsimp only
    rw [h.2 p (hs p hf)]

theorem peek_agree (h : FileSystem.AgreeOn own fs fs') (hs : s.In own) :
    s.peek fs = s.peek fs' := by
  rw [peek, peek, unread_agree h hs]

theorem get_agree (h : FileSystem.AgreeOn own fs fs') (hs : s.In own) : s.get fs = s.get fs' := by
  rw [get, get, unread_agree h hs]

theorem read_agree (h : FileSystem.AgreeOn own fs fs') (hs : s.In own) (n : ℕ) :
    s.read fs n = s.read fs' n := by
  rw [read, read, unread_agree h hs]

theorem openFile_agree (h : FileSystem.AgreeOn own fs fs') {name : Bytes}
    (hown : own (fs.denotes name)) (granted : Bool) :
    s.openFile fs name granted = s.openFile fs' name granted := by
  rw [openFile, openFile, h.lookup hown, h.1]

theorem In.openFile (hs : s.In own) {name : Bytes} (hown : own (fs.denotes name)) (granted : Bool) :
    (s.openFile fs name granted).In own := by
  unfold IfStream.openFile
  split
  · intro p hp
    rw [← Option.some.inj hp]
    exact hown
  · exact hs

end

end IfStream

/-- An output stream: the file it has open and whether an error bit is set. -/
structure OfStream where
  file : Option Path := none
  fail : Bool := false
  deriving DecidableEq

namespace OfStream

/-- `open` for writing creates or truncates the file. `granted` is the answer of the
operating system. -/
def openFile (fs : FileSystem) (s : OfStream) (name : Bytes) (granted : Bool) :
    OfStream × FileSystem :=
  if s.file.isNone && granted then ({ file := some (fs.denotes name) }, fs.create (fs.denotes name))
  else ({ s with fail := true }, fs)

/-- `write`; a stream without a file fails unless there is nothing to write. -/
def write (fs : FileSystem) (s : OfStream) (bytes : Bytes) : OfStream × FileSystem :=
  if s.fail then (s, fs)
  else match s.file with
    | some p => (s, fs.append p bytes)
    | none => ({ s with fail := !bytes.isEmpty }, fs)

def put (fs : FileSystem) (s : OfStream) (b : Byte) : OfStream × FileSystem := s.write fs [b]

/-- A `write` that the device does not take: `badbit` is set, and the file is left with `left`. -/
def breakOff (fs : FileSystem) (s : OfStream) (left : Bytes) : OfStream × FileSystem :=
  if s.fail then (s, fs)
  else match s.file with
    | some p => ({ s with fail := true }, fs.replace p left)
    | none => ({ s with fail := true }, fs)

def close (s : OfStream) : OfStream :=
  if s.file.isSome then { s with file := none } else { s with fail := true }

variable {fs : FileSystem} {s : OfStream}

theorem openFile_granted (name : Bytes) (hs : s.file = none) :
    s.openFile fs name true =
      ({ file := some (fs.denotes name) }, fs.create (fs.denotes name)) := by
  simp [openFile, hs]

theorem openFile_refused {name : Bytes} {granted : Bool}
    (h : s.file.isSome = true ∨ granted = false) :
    s.openFile fs name granted = ({ s with fail := true }, fs) := by
  unfold openFile
  rw [if_neg]
  rcases h with h | h
  · cases hf : s.file <;> simp [hf] at h ⊢
  · simp [h]

theorem write_open {p : Path} (hf : s.fail = false) (hp : s.file = some p) (bytes : Bytes) :
    s.write fs bytes = (s, fs.append p bytes) := by
  simp [write, hf, hp]

@[simp] theorem close_file (s : OfStream) : s.close.file = none := by
  unfold close
  split
  · rfl
  · rename_i h
    simpa using h

theorem write_file (bytes : Bytes) : (s.write fs bytes).1.file = s.file := by
  unfold write
  split
  · rfl
  · split <;> rfl

theorem write_useless (fs : FileSystem) (h : s.fail = true ∨ s.file = none) (bytes : Bytes) :
    (s.write fs bytes).2 = fs ∧ (s.write fs bytes).1.file = s.file ∧
    ((s.write fs bytes).1.fail = true ∨ (s.write fs bytes).1.file = none) := by
  unfold write
  split
  · exact ⟨rfl, rfl, h⟩
  · rename_i hf
    have hn : s.file = none := h.resolve_left hf
    simp [hn]

theorem breakOff_file (left : Bytes) : (s.breakOff fs left).1.file = s.file := by
  unfold breakOff
  split
  · rfl
  · split <;> rfl

/-- The file that the stream has open, if any, is in `own`. -/
def In (own : Path → Prop) (s : OfStream) : Prop := ∀ p, s.file = some p → own p

theorem In.close {own : Path → Prop} (hs : s.In own) : s.close.In own := by
  unfold OfStream.close
  split
  · exact fun p hp => nomatch hp
  · exact hs

section

variable {own : Path → Prop} {fs' : FileSystem}

theorem openFile_agree (h : FileSystem.AgreeOn own fs fs') (s : OfStream) (name : Bytes)
    (granted : Bool) :
    (s.openFile fs name granted).1 = (s.openFile fs' name granted).1 ∧
    FileSystem.AgreeOn own (s.openFile fs name granted).2 (s.openFile fs' name granted).2 := by
  unfold openFile
  rw [h.1]
  split
  · exact ⟨rfl, h.create _⟩
  · exact ⟨rfl, h⟩

theorem openFile_frame (hs : s.In own) {name : Bytes} (hown : own (fs.denotes name))
    (granted : Bool) :
    (s.openFile fs name granted).1.In own ∧
    FileSystem.AgreeOn (fun q => ¬ own q) (s.openFile fs name granted).2 fs := by
  unfold openFile
  split
  · refine ⟨fun p hp => ?_, FileSystem.agreeOn_create fs hown⟩
    rw [← Option.some.inj hp]
    exact hown
  · exact ⟨hs, .refl _ _⟩

theorem write_agree (h : FileSystem.AgreeOn own fs fs') (s : OfStream) (bytes : Bytes) :
    (s.write fs bytes).1 = (s.write fs' bytes).1 ∧
    FileSystem.AgreeOn own (s.write fs bytes).2 (s.write fs' bytes).2 := by
  unfold write
  split
  · exact ⟨rfl, h⟩
  · cases s.file with
    | none => exact ⟨rfl, h⟩
    | some p => exact ⟨rfl, h.append p bytes⟩

theorem write_frame (fs : FileSystem) (hs : s.In own) (bytes : Bytes) :
    (s.write fs bytes).1.In own ∧
    FileSystem.AgreeOn (fun q => ¬ own q) (s.write fs bytes).2 fs := by
  unfold write
  split
  · exact ⟨hs, .refl _ _⟩
  · split
    · rename_i p hp
      exact ⟨hs, FileSystem.agreeOn_append fs (hs p hp) bytes⟩
    · exact ⟨hs, .refl _ _⟩

theorem breakOff_agree (h : FileSystem.AgreeOn own fs fs') (s : OfStream) (left : Bytes) :
    (s.breakOff fs left).1 = (s.breakOff fs' left).1 ∧
    FileSystem.AgreeOn own (s.breakOff fs left).2 (s.breakOff fs' left).2 := by
  unfold breakOff
  split
  · exact ⟨rfl, h⟩
  · cases s.file with
    | none => exact ⟨rfl, h⟩
    | some p => exact ⟨rfl, h.replace p left⟩

theorem breakOff_frame (fs : FileSystem) (hs : s.In own) (left : Bytes) :
    (s.breakOff fs left).1.In own ∧
    FileSystem.AgreeOn (fun q => ¬ own q) (s.breakOff fs left).2 fs := by
  refine ⟨fun p hp => hs p ((breakOff_file left).symm.trans hp), ?_⟩
  unfold breakOff
  split
  · exact .refl _ _
  · split
    · rename_i p hp
      exact FileSystem.agreeOn_replace fs (hs p hp) left
    · exact .refl _ _

end

end OfStream

end NetworkProtocols
