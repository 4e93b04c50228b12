import NetworkProtocols.Lib.Disk

/-!
# Directories that come and go

The calls of `std::experimental::filesystem` that make and remove entries of a disk. What may
stand against a call beside the entries of its path (rights, a directory that is not empty) is
the answer of the operating system.
-/

namespace NetworkProtocols
namespace Disk

/-- `std::ofstream::open` with the answer of the operating system; no directory is opened. -/
def openForWriting (d : Disk) (granted : Bool) (s : OfStream) (name : Bytes) : OfStream × Disk :=
  let opened := s.openFile d.files name
    (granted && !name.isEmpty && !d.isDirectory (d.files.denotes name))
  (opened.1, {
    files := opened.2
    isDirectory := d.isDirectory
    apart := by
      intro p hp
      simp only [opened, OfStream.openFile]
      split
      · rename_i h
        have hne : p ≠ d.files.denotes name := by
          rintro rfl
          simp [hp] at h
        rw [FileSystem.create_content_of_ne _ _ hne, d.apart p hp]
      · exact d.apart p hp })

/-- `fs::create_directory` with an error code. -/
def createDirectory (d : Disk) (granted : Bool) (name : Bytes) : Bool × Disk :=
  if h : granted && d.vacant name then
    (true, { d with
      isDirectory := Function.update d.isDirectory (d.files.denotes name) true
      apart := fun p hp => by
        by_cases hne : p = d.files.denotes name
        · simp only [Bool.and_eq_true, vacant, Bool.not_eq_true', present, Bool.or_eq_false_iff,
            hasFile, Bool.and_eq_false_iff, FileSystem.lookup] at h
          obtain ⟨-, hname, hfile, -⟩ := h
          rw [hname] at hfile
          simpa [hne] using hfile
        · rw [Function.update_of_ne hne] at hp
          exact d.apart p hp })
  else (false, d)

/-- `fs::remove` with an error code, of a file or a directory. -/
def removeEntry (d : Disk) (granted : Bool) (name : Bytes) : Bool × Disk :=
  if granted && d.hasFile name then (true, d.remove {} name)
  else if granted && d.hasDirectory name then
    (true, { d with
      isDirectory := Function.update d.isDirectory (d.files.denotes name) false
      apart := fun p hp => by
        by_cases hne : p = d.files.denotes name
        · simp [hne] at hp
        · rw [Function.update_of_ne hne] at hp
          exact d.apart p hp })
  else (false, d)

variable {d : Disk} {granted : Bool} {s : OfStream} {name : Bytes}

theorem openForWriting_granted (hs : s.file = none)
    (h : granted = true ∧ name ≠ [] ∧ d.isDirectory (d.files.denotes name) = false) :
    (d.openForWriting granted s name).1 = { file := some (d.files.denotes name) } ∧
    (d.openForWriting granted s name).2.files = d.files.create (d.files.denotes name) := by
  simp [openForWriting, OfStream.openFile, hs, h]

theorem openForWriting_refused
    (h : ¬ (granted = true ∧ name ≠ [] ∧ d.isDirectory (d.files.denotes name) = false)) :
    d.openForWriting granted s name = ({ s with fail := true }, d) := by
  have hgranted : s.file.isSome = true ∨
      (granted && !name.isEmpty && !d.isDirectory (d.files.denotes name)) = false := by
    right
    rw [← Bool.not_eq_true]
    simpa [and_assoc] using h
  simp only [openForWriting, OfStream.openFile_refused hgranted]

theorem createDirectory_fst :
    (d.createDirectory granted name).1 = (granted && d.vacant name) := by
  unfold createDirectory
  split
  · rename_i h
    exact h.symm
  · rename_i h
    exact (Bool.not_eq_true _ ▸ h).symm

theorem createDirectory_snd (h : (d.createDirectory granted name).1 = false) :
    (d.createDirectory granted name).2 = d := by
  unfold createDirectory at h ⊢
  split
  · rename_i hmade
    rw [dif_pos hmade] at h
    cases h
  · rfl

theorem removeEntry_fst :
    (d.removeEntry granted name).1 = (granted && (d.hasFile name || d.hasDirectory name)) := by
  unfold removeEntry
  cases granted <;> cases d.hasFile name <;> cases d.hasDirectory name <;> rfl

theorem removeEntry_snd (h : (d.removeEntry granted name).1 = false) :
    (d.removeEntry granted name).2 = d := by
  unfold removeEntry at h ⊢
  split
  · rename_i hfile
    rw [if_pos hfile] at h
    cases h
  · rename_i hfile
    rw [if_neg hfile] at h
    split
    · rename_i hdir
      rw [if_pos hdir] at h
      cases h
    · rfl

end Disk
end NetworkProtocols
