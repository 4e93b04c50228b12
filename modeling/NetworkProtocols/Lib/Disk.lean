import NetworkProtocols.Lib.FileStream

/-!
# Paths and directories

The parts of `std::experimental::filesystem` that the programs use, over a file system
with directories: joining paths, and the status, copy and remove calls. Directories are
neither made nor removed.
-/

namespace NetworkProtocols

namespace PathName

/-- `filename()` of a path that does not end with a separator. -/
def filename (path : Bytes) : Bytes := (path.reverse.takeWhile (· ≠ slash)).reverse

/-- `parent_path()` of such a path. -/
def parent (path : Bytes) : Bytes := ((path.reverse.dropWhile (· ≠ slash)).drop 1).reverse

theorem append_ne_nil {left : Bytes} (h : left ≠ []) (right : Bytes) : append left right ≠ [] := by
  unfold append
  split <;> simp [h]

theorem filename_append {left name : Bytes} (hname : slash ∉ name) :
    filename (left ++ slash :: name) = name := by
  have hall : ∀ b ∈ name.reverse, decide (b ≠ slash) = true := by
    intro b hb
    rw [decide_eq_true_eq]
    rintro rfl
    exact hname (List.mem_reverse.mp hb)
  rw [filename, List.reverse_append, List.reverse_cons, List.append_assoc,
    List.takeWhile_append_of_pos hall, List.singleton_append,
    List.takeWhile_cons_of_neg (by simp), List.append_nil, List.reverse_reverse]

end PathName

/-- Files and directories. No entry is both. -/
structure Disk where
  files : FileSystem
  isDirectory : Path → Bool
  apart : ∀ p, isDirectory p = true → files.content p = none

/-- The calls that the operating system refuses, whatever the disk holds. A write or a copy may
also fail half way: `writing` and `cutting` say with what it leaves its file then. -/
structure Refusals where
  opening : Bytes → Bool := fun _ => false
  status : Bytes → Bool := fun _ => false
  copying : Bytes → Bytes → Bool := fun _ _ => false
  removing : Bytes → Bool := fun _ => false
  writing : Option Bytes := none
  cutting : Bytes → Bytes → Option Bytes := fun _ _ => none

/-- What is begun goes through. -/
structure Refusals.Whole (r : Refusals) : Prop where
  writing : r.writing = none
  cutting : ∀ source dest, r.cutting source dest = none

theorem whole_none : Refusals.Whole {} := ⟨rfl, fun _ _ => rfl⟩

namespace Disk

def hasFile (d : Disk) (name : Bytes) : Bool := !name.isEmpty && (d.files.lookup name).isSome

def hasDirectory (d : Disk) (name : Bytes) : Bool :=
  !name.isEmpty && d.isDirectory (d.files.denotes name)

/-- `fs::exists`. -/
def present (d : Disk) (name : Bytes) : Bool := d.hasFile name || d.hasDirectory name

def openable (d : Disk) (name : Bytes) : Bool :=
  d.hasDirectory (PathName.parent name) && !d.isDirectory (d.files.denotes name)

/-- `std::ofstream::open`. -/
def openFile (d : Disk) (r : Refusals) (s : OfStream) (name : Bytes) : OfStream × Disk :=
  let opened := s.openFile d.files name (d.openable name && !r.opening name)
  (opened.1, {
    files := opened.2
    isDirectory := d.isDirectory
    apart := by
      intro p hp
      simp only [opened, OfStream.openFile]
      split
      · rename_i h
        have hne : p ≠ d.files.denotes name := by
          rintro rfl
          simp [openable, hp] at h
        rw [FileSystem.create_content_of_ne _ _ hne, d.apart p hp]
      · exact d.apart p hp })

/-- `std::ofstream::write`. -/
def write (d : Disk) (s : OfStream) (bytes : Bytes) : OfStream × Disk :=
  let written := s.write d.files bytes
  (written.1, {
    files := written.2
    isDirectory := d.isDirectory
    apart := by
      intro p hp
      simp only [written, OfStream.write]
      split
      · exact d.apart p hp
      · split
        · rename_i q _
          by_cases hpq : p = q
          · rw [← hpq, FileSystem.append_content_self, d.apart p hp, Option.map_none]
          · rw [FileSystem.append_content_of_ne _ _ _ hpq, d.apart p hp]
        · exact d.apart p hp })

/-- `std::ofstream::write` on a device that may fail. -/
def writeOut (d : Disk) (r : Refusals) (s : OfStream) (bytes : Bytes) : OfStream × Disk :=
  match r.writing with
  | none => d.write s bytes
  | some left =>
    let broken := s.breakOff d.files left
    (broken.1, {
      files := broken.2
      isDirectory := d.isDirectory
      apart := by
        intro p hp
        simp only [broken, OfStream.breakOff]
        split
        · exact d.apart p hp
        · split
          · rename_i q _
            by_cases hpq : p = q
            · simp [← hpq, FileSystem.replace, d.apart p hp]
            · rw [FileSystem.replace_content_of_ne _ _ _ hpq, d.apart p hp]
          · exact d.apart p hp })

/-- `fs::remove` of a file. -/
def remove (d : Disk) (r : Refusals) (name : Bytes) : Disk :=
  if d.hasFile name && !r.removing name then
    { d with
      files := d.files.remove (d.files.denotes name)
      apart := fun p hp => by
        by_cases h : p = d.files.denotes name <;> simp [FileSystem.remove, h, d.apart p hp] }
  else d

def vacant (d : Disk) (name : Bytes) : Bool := !name.isEmpty && !d.present name

/-- The file that `fs::copy` makes out of `source`: in `dest` if this is a directory. -/
def copyTarget (d : Disk) (source dest : Bytes) : Bytes :=
  if d.hasDirectory dest then PathName.append dest (PathName.filename source) else dest

/-- What `fs::copy` of a file leaves in its target. -/
def copied (d : Disk) (r : Refusals) (source dest : Bytes) : Option Bytes :=
  match r.cutting source dest with
  | none => d.files.lookup source
  | some left => some left

/-- `fs::copy` of a file; a target that exists is an error. -/
def copy (d : Disk) (r : Refusals) (source dest : Bytes) : Disk :=
  if h : d.hasFile source && !r.copying source dest && d.vacant (d.copyTarget source dest) then
    { d with
      files := { d.files with
        content := Function.update d.files.content (d.files.denotes (d.copyTarget source dest))
          (d.copied r source dest) }
      apart := fun p hp => by
        have hne : p ≠ d.files.denotes (d.copyTarget source dest) := by
          rintro rfl
          simp only [vacant, present, hasDirectory, hp] at h
          cases hempty : (d.copyTarget source dest).isEmpty <;> simp [hempty] at h
        simp [hne, d.apart p hp] }
  else d

end Disk

/-- Calls on existing paths succeed, and so does what is begun. -/
structure Refusals.Spares (r : Refusals) (d : Disk) : Prop extends r.Whole where
  opening : ∀ name, d.openable name = true → r.opening name = false
  status : ∀ name, d.present name = true → r.status name = false
  copying : ∀ source dest, d.present source = true → d.present dest = true →
    r.copying source dest = false
  removing : ∀ name, d.present name = true → r.removing name = false

namespace Disk

def SameLayout (d d' : Disk) : Prop :=
  d.files.toNaming = d'.files.toNaming ∧ d.isDirectory = d'.isDirectory

variable {d d' d'' : Disk} {r : Refusals} {s : OfStream}

theorem SameLayout.refl (d : Disk) : SameLayout d d := ⟨rfl, rfl⟩

theorem SameLayout.trans (h : SameLayout d d') (h' : SameLayout d' d'') : SameLayout d d'' :=
  ⟨h.1.trans h'.1, h.2.trans h'.2⟩

theorem SameLayout.hasDirectory (h : SameLayout d d') (name : Bytes) :
    d.hasDirectory name = d'.hasDirectory name := by
  rw [Disk.hasDirectory, Disk.hasDirectory, h.1, h.2]

theorem SameLayout.openable (h : SameLayout d d') (name : Bytes) :
    d.openable name = d'.openable name := by
  rw [Disk.openable, Disk.openable, h.hasDirectory, h.1, h.2]

theorem openFile_layout (name : Bytes) : SameLayout (d.openFile r s name).2 d := by
  refine ⟨?_, rfl⟩
  simp only [openFile, OfStream.openFile]
  split <;> rfl

theorem write_layout (bytes : Bytes) : SameLayout (d.write s bytes).2 d := by
  refine ⟨?_, rfl⟩
  simp only [write, OfStream.write]
  split
  · rfl
  · split <;> rfl

theorem writeOut_layout (bytes : Bytes) : SameLayout (d.writeOut r s bytes).2 d := by
  unfold writeOut
  split
  · exact write_layout bytes
  · refine ⟨?_, rfl⟩
    simp only [OfStream.breakOff]
    split
    · rfl
    · split <;> rfl

theorem remove_layout (name : Bytes) : SameLayout (d.remove r name) d := by
  unfold remove
  split
  · exact ⟨rfl, rfl⟩
  · exact .refl d

theorem copy_layout (source dest : Bytes) : SameLayout (d.copy r source dest) d := by
  unfold copy
  split
  · exact ⟨rfl, rfl⟩
  · exact .refl d

theorem hasFile_eq_false {name : Bytes} (h : d.files.content (d.files.denotes name) = none) :
    d.hasFile name = false := by
  simp [hasFile, FileSystem.lookup, h]

theorem hasFile_eq_true {name content : Bytes} (hne : name ≠ [])
    (h : d.files.content (d.files.denotes name) = some content) : d.hasFile name = true := by
  simp [hasFile, FileSystem.lookup, h, hne]

theorem present_of_directory {name : Bytes} (h : d.hasDirectory name = true) :
    d.present name = true := by
  rw [present, h, Bool.or_true]

theorem present_of_file {name : Bytes} (h : d.hasFile name = true) : d.present name = true := by
  rw [present, h, Bool.true_or]

theorem vacant_content {name : Bytes} (h : d.vacant name = true) :
    d.files.content (d.files.denotes name) = none := by
  cases hc : d.files.content (d.files.denotes name) with
  | none => rfl
  | some content =>
    have hne : name ≠ [] := by
      rintro rfl
      simp [vacant] at h
    simp [vacant, present, hasFile_eq_true hne hc] at h

theorem openFile_granted {name : Bytes} (hs : s.file = none) (hopen : d.openable name = true)
    (hr : r.opening name = false) :
    (d.openFile r s name).1 = { file := some (d.files.denotes name) } ∧
    (d.openFile r s name).2.files = d.files.create (d.files.denotes name) := by
  simp [openFile, OfStream.openFile, hs, hopen, hr]

theorem openFile_refused {name : Bytes}
    (h : s.file.isSome = true ∨ d.openable name = false ∨ r.opening name = true) :
    d.openFile r s name = ({ s with fail := true }, d) := by
  have hgranted : s.file.isSome = true ∨ (d.openable name && !r.opening name) = false := by
    rcases h with h | h | h
    · exact .inl h
    · exact .inr (by rw [h, Bool.false_and])
    · exact .inr (by rw [h, Bool.not_true, Bool.and_false])
  simp only [openFile, OfStream.openFile_refused hgranted]

theorem openFile_cases (d : Disk) (r : Refusals) (s : OfStream) (name : Bytes) :
    ((d.openFile r s name).1 = { file := some (d.files.denotes name) } ∧
      (d.openFile r s name).2.files = d.files.create (d.files.denotes name)) ∨
    d.openFile r s name = ({ s with fail := true }, d) := by
  by_cases hrefused : s.file.isSome = true ∨ d.openable name = false ∨ r.opening name = true
  · exact .inr (openFile_refused hrefused)
  · rw [not_or, not_or, Bool.not_eq_true, Option.isSome_eq_false_iff, Option.isNone_iff_eq_none,
      Bool.not_eq_false, Bool.not_eq_true] at hrefused
    exact .inl (openFile_granted hrefused.1 hrefused.2.1 hrefused.2.2)

theorem write_open {p : Path} (hf : s.fail = false) (hp : s.file = some p) (bytes : Bytes) :
    (d.write s bytes).1 = s ∧ (d.write s bytes).2.files = d.files.append p bytes := by
  simp [write, OfStream.write_open hf hp]

theorem write_useless (h : s.fail = true ∨ s.file = none) (bytes : Bytes) :
    (d.write s bytes).2 = d ∧ (d.write s bytes).1.file = s.file ∧
    ((d.write s bytes).1.fail = true ∨ (d.write s bytes).1.file = none) := by
  obtain ⟨hfiles, hrest⟩ := OfStream.write_useless d.files h bytes
  refine ⟨?_, hrest⟩
  simp only [write, hfiles]

theorem write_file (bytes : Bytes) : (d.write s bytes).1.file = s.file := OfStream.write_file bytes

theorem writeOut_whole (h : r.Whole) (s : OfStream) (bytes : Bytes) :
    d.writeOut r s bytes = d.write s bytes := by
  rw [writeOut, h.writing]

theorem remove_absent {name : Bytes} (h : d.hasFile name = false) : d.remove r name = d := by
  simp [remove, h]

theorem remove_present {name : Bytes} (h : d.hasFile name = true) (hr : r.removing name = false) :
    (d.remove r name).files = d.files.remove (d.files.denotes name) := by
  simp [remove, h, hr]

theorem remove_lookup {name : Bytes} (hne : name ≠ [])
    (hr : d.hasFile name = true → r.removing name = false) :
    (d.remove r name).files.lookup name = none := by
  cases h : d.hasFile name with
  | true =>
    rw [FileSystem.lookup, (remove_layout name).1, remove_present h (hr h)]
    simp [FileSystem.remove]
  | false =>
    rw [remove_absent h]
    simpa [hasFile, hne] using h

theorem remove_content {name : Bytes} {p : Path} {bytes : Bytes}
    (h : (d.remove r name).files.content p = some bytes) : d.files.content p = some bytes := by
  unfold remove at h
  split at h
  · by_cases hp : p = d.files.denotes name
    · simp [FileSystem.remove, hp] at h
    · simpa [FileSystem.remove, hp] using h
  · exact h

theorem remove_lookup_of_ne {name other : Bytes}
    (h : d.files.denotes other ≠ d.files.denotes name) :
    (d.remove r name).files.lookup other = d.files.lookup other := by
  unfold remove
  split
  · simp [FileSystem.lookup, FileSystem.remove, h]
  · rfl

theorem copy_absent {source dest : Bytes} (h : d.hasFile source = false) :
    d.copy r source dest = d := by
  simp [copy, h]

theorem copy_content (source dest : Bytes) (p : Path) :
    (d.copy r source dest).files.content p = d.files.content p ∨
    (d.files.content p = none ∧
      (d.copy r source dest).files.content p = d.copied r source dest) := by
  unfold copy
  split
  · rename_i h
    simp only [Bool.and_eq_true] at h
    by_cases hp : p = d.files.denotes (d.copyTarget source dest)
    · right
      exact ⟨hp ▸ vacant_content h.2, by simp [hp]⟩
    · left
      simp [hp]
  · exact .inl rfl

theorem copy_content_of_ne {source dest : Bytes} {p : Path}
    (h : p ≠ d.files.denotes (d.copyTarget source dest)) :
    (d.copy r source dest).files.content p = d.files.content p := by
  unfold copy
  split
  · simp [h]
  · rfl

theorem copy_made {source dest : Bytes} (hsource : d.hasFile source = true)
    (hr : r.copying source dest = false) (htarget : d.vacant (d.copyTarget source dest) = true) :
    (d.copy r source dest).files.content (d.files.denotes (d.copyTarget source dest)) =
      d.copied r source dest := by
  simp [copy, hsource, hr, htarget]

theorem copied_whole (h : r.Whole) (source dest : Bytes) :
    d.copied r source dest = d.files.lookup source := by
  rw [copied, h.cutting]

/-- The disks have the same layout, and the same files in `own`. -/
def AgreeOn (own : Path → Prop) (d d' : Disk) : Prop :=
  SameLayout d d' ∧ ∀ p, own p → d.files.content p = d'.files.content p

section AgreeOn

variable {own : Path → Prop} {name : Bytes}

theorem AgreeOn.refl (own : Path → Prop) (d : Disk) : AgreeOn own d d := ⟨.refl d, fun _ _ => rfl⟩

theorem AgreeOn.trans (h : AgreeOn own d d') (h' : AgreeOn own d' d'') : AgreeOn own d d'' :=
  ⟨h.1.trans h'.1, fun p hp => (h.2 p hp).trans (h'.2 p hp)⟩

theorem AgreeOn.mono {other : Path → Prop} (hsub : ∀ p, other p → own p) (h : AgreeOn own d d') :
    AgreeOn other d d' :=
  ⟨h.1, fun p hp => h.2 p (hsub p hp)⟩

theorem AgreeOn.files (h : AgreeOn own d d') : FileSystem.AgreeOn own d.files d'.files :=
  ⟨h.1.1, h.2⟩

theorem AgreeOn.hasFile (h : AgreeOn own d d') (hown : own (d.files.denotes name)) :
    d.hasFile name = d'.hasFile name := by
  rw [Disk.hasFile, Disk.hasFile, h.files.lookup hown]

theorem AgreeOn.vacant (h : AgreeOn own d d') (hown : own (d.files.denotes name)) :
    d.vacant name = d'.vacant name := by
  rw [Disk.vacant, Disk.vacant, Disk.present, Disk.present, h.hasFile hown, h.1.hasDirectory]

theorem AgreeOn.openFile (h : AgreeOn own d d') (name : Bytes) :
    (d.openFile r s name).1 = (d'.openFile r s name).1 ∧
      AgreeOn own (d.openFile r s name).2 (d'.openFile r s name).2 := by
  have hfiles := OfStream.openFile_agree h.files s name (d.openable name && !r.opening name)
  have hgranted : s.openFile d'.files name (d.openable name && !r.opening name) =
      s.openFile d'.files name (d'.openable name && !r.opening name) := by
    rw [h.1.openable]
  rw [hgranted] at hfiles
  exact ⟨hfiles.1, ⟨hfiles.2.1, h.1.2⟩, hfiles.2.2⟩

theorem AgreeOn.write (h : AgreeOn own d d') (bytes : Bytes) :
    (d.write s bytes).1 = (d'.write s bytes).1 ∧
      AgreeOn own (d.write s bytes).2 (d'.write s bytes).2 := by
  obtain ⟨hstream, hdenotes, hcontent⟩ := OfStream.write_agree h.files s bytes
  exact ⟨hstream, ⟨hdenotes, h.1.2⟩, hcontent⟩

theorem AgreeOn.writeOut (h : AgreeOn own d d') (bytes : Bytes) :
    (d.writeOut r s bytes).1 = (d'.writeOut r s bytes).1 ∧
      AgreeOn own (d.writeOut r s bytes).2 (d'.writeOut r s bytes).2 := by
  unfold Disk.writeOut
  cases r.writing with
  | none => exact h.write bytes
  | some left =>
    obtain ⟨hstream, hdenotes, hcontent⟩ := OfStream.breakOff_agree h.files s left
    exact ⟨hstream, ⟨hdenotes, h.1.2⟩, hcontent⟩

theorem AgreeOn.remove (h : AgreeOn own d d') (hown : name = [] ∨ own (d.files.denotes name)) :
    AgreeOn own (d.remove r name) (d'.remove r name) := by
  refine ⟨(remove_layout name).trans (h.1.trans ?_), fun p hp => ?_⟩
  · exact ⟨(remove_layout name).1.symm, (remove_layout name).2.symm⟩
  rcases hown with rfl | hown
  · exact h.2 p hp
  have hfile : (d.hasFile name && !r.removing name) = (d'.hasFile name && !r.removing name) := by
    rw [h.hasFile hown]
  unfold Disk.remove
  rw [← hfile]
  split
  · by_cases heq : p = d.files.denotes name
    · simp [FileSystem.remove, heq, h.1.1]
    · have heq' : p ≠ d'.files.denotes name := by rwa [← h.1.1]
      simp only [FileSystem.remove, Function.update_of_ne heq, Function.update_of_ne heq']
      exact h.2 p hp
  · exact h.2 p hp

theorem copy_refused {source dest : Bytes} (h : d.hasFile source = false ∨
    r.copying source dest = true ∨ d.vacant (d.copyTarget source dest) = false) :
    d.copy r source dest = d := by
  unfold Disk.copy
  rw [dif_neg]
  rcases h with h | h | h
  · simp [h]
  · simp [h]
  · simp [h]

theorem AgreeOn.copy {source dest : Bytes} (h : AgreeOn own d d')
    (hsource : own (d.files.denotes source))
    (htarget : own (d.files.denotes (d.copyTarget source dest))) :
    AgreeOn own (d.copy r source dest) (d'.copy r source dest) := by
  have hname : d'.copyTarget source dest = d.copyTarget source dest := by
    rw [copyTarget, copyTarget, h.1.hasDirectory]
  have hfile := h.hasFile hsource
  have hvacant := h.vacant htarget
  by_cases hdone : d.hasFile source = true ∧ r.copying source dest = false ∧
      d.vacant (d.copyTarget source dest) = true
  · obtain ⟨hs, hr, hv⟩ := hdone
    refine ⟨(copy_layout source dest).trans (h.1.trans ?_), fun p hp => ?_⟩
    · exact ⟨(copy_layout source dest).1.symm, (copy_layout source dest).2.symm⟩
    by_cases heq : p = d.files.denotes (d.copyTarget source dest)
    · have hmade' := copy_made (d := d') (hfile ▸ hs) hr (hname ▸ hvacant ▸ hv)
      rw [hname, ← h.1.1] at hmade'
      rw [heq, copy_made hs hr hv, hmade', copied, copied, h.files.lookup hsource]
    · have heq' : p ≠ d'.files.denotes (d'.copyTarget source dest) := by
        rwa [hname, ← h.1.1]
      rw [copy_content_of_ne heq, copy_content_of_ne heq']
      exact h.2 p hp
  · have hrefused : d.hasFile source = false ∨ r.copying source dest = true ∨
        d.vacant (d.copyTarget source dest) = false := by
      simp only [not_and_or, Bool.not_eq_true, Bool.not_eq_false] at hdone
      exact hdone
    have hrefused' := hrefused
    rw [hfile, hvacant, ← hname] at hrefused'
    rw [copy_refused hrefused, copy_refused hrefused']
    exact h

theorem openFile_frame (hs : s.In own) (hown : own (d.files.denotes name)) :
    (d.openFile r s name).1.In own ∧ AgreeOn (fun p => ¬ own p) (d.openFile r s name).2 d := by
  obtain ⟨hin, hframe⟩ := OfStream.openFile_frame hs hown (d.openable name && !r.opening name)
  exact ⟨hin, ⟨hframe.1, rfl⟩, hframe.2⟩

theorem write_frame (hs : s.In own) (bytes : Bytes) :
    (d.write s bytes).1.In own ∧ AgreeOn (fun p => ¬ own p) (d.write s bytes).2 d := by
  obtain ⟨hin, hframe⟩ := OfStream.write_frame d.files hs bytes
  exact ⟨hin, ⟨hframe.1, rfl⟩, hframe.2⟩

theorem writeOut_frame (hs : s.In own) (bytes : Bytes) :
    (d.writeOut r s bytes).1.In own ∧ AgreeOn (fun p => ¬ own p) (d.writeOut r s bytes).2 d := by
  unfold Disk.writeOut
  split
  · exact write_frame hs bytes
  · rename_i left _
    obtain ⟨hin, hframe⟩ := OfStream.breakOff_frame d.files hs left
    exact ⟨hin, ⟨hframe.1, rfl⟩, hframe.2⟩

theorem remove_frame (hown : name = [] ∨ own (d.files.denotes name)) :
    AgreeOn (fun p => ¬ own p) (d.remove r name) d := by
  refine ⟨remove_layout name, fun p hp => ?_⟩
  rcases hown with rfl | hown
  · rfl
  unfold Disk.remove
  split
  · have heq : p ≠ d.files.denotes name := fun heq => hp (heq ▸ hown)
    exact Function.update_of_ne heq _ _
  · rfl

theorem copy_frame {source dest : Bytes}
    (htarget : own (d.files.denotes (d.copyTarget source dest))) :
    AgreeOn (fun p => ¬ own p) (d.copy r source dest) d :=
  ⟨copy_layout source dest, fun _ hp => copy_content_of_ne fun heq => hp (heq ▸ htarget)⟩

end AgreeOn

/-- The files of `own` that were there are there as they were. Others may have come. -/
structure Keeps (own : Path → Prop) (d' d : Disk) : Prop where
  layout : SameLayout d' d
  content : ∀ p, own p → ∀ bytes, d.files.content p = some bytes → d'.files.content p = some bytes

section Keeps

variable {own : Path → Prop}

theorem Keeps.refl (own : Path → Prop) (d : Disk) : Keeps own d d := ⟨.refl d, fun _ _ _ h => h⟩

theorem Keeps.trans (h : Keeps own d'' d') (h' : Keeps own d' d) : Keeps own d'' d :=
  ⟨h.layout.trans h'.layout, fun p hp bytes hb =>
    h.content p hp bytes (h'.content p hp bytes hb)⟩

theorem AgreeOn.keeps (h : AgreeOn own d' d) : Keeps own d' d :=
  ⟨h.1, fun p hp _ hb => (h.2 p hp).trans hb⟩

theorem copy_keeps (own : Path → Prop) (source dest : Bytes) :
    Keeps own (d.copy r source dest) d := by
  refine ⟨copy_layout source dest, fun p _ bytes hb => ?_⟩
  rcases copy_content (r := r) source dest p with hsame | ⟨hnone, -⟩
  · rw [hsame, hb]
  · rw [hnone] at hb
    cases hb

end Keeps

end Disk

end NetworkProtocols
