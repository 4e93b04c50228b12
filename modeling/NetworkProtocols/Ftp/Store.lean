import NetworkProtocols.Ftp.Commands

/-!
# What STOR stores

The loop takes a piece that does not fill the buffer for the last one, and an error for a
failure, also the end of the file that follows a full piece.
-/

namespace NetworkProtocols
namespace Ftp

open Bytes

def TransferType.stored : TransferType → Bytes → Bytes
  | .ascii, bytes => bytes.filter (· ≠ CR)
  | .binary, bytes => bytes

theorem TransferType.stored_append (t : TransferType) (a b : Bytes) :
    t.stored (a ++ b) = t.stored a ++ t.stored b := by
  cases t with
  | ascii => exact List.filter_append a b
  | binary => rfl

def upload (pieces : List Piece) : Bytes := (pieces.map Piece.bytes).flatten

theorem upload_append (pieces pieces' : List Piece) :
    upload (pieces ++ pieces') = upload pieces ++ upload pieces' := by
  rw [upload, List.map_append, List.flatten_append]
  rfl

theorem upload_cons (piece : Piece) (pieces : List Piece) :
    upload (piece :: pieces) = piece.bytes ++ upload pieces := rfl

theorem TransferType.stored_front_iff {t : TransferType} {full rest : List Piece} {short : Piece} :
    t.stored (upload (full ++ [short])) = t.stored (upload (full ++ short :: rest)) ↔
      t.stored (upload rest) = [] := by
  have hcut : full ++ short :: rest = (full ++ [short]) ++ rest := by simp
  rw [hcut, upload_append _ rest, t.stored_append, List.self_eq_append_right]

def Stored (p : Path) (bytes : Bytes) (before after : OfStream × Disk) : Prop :=
  after.1 = before.1 ∧ after.2.files = before.2.files.append p bytes

theorem Stored.trans {p : Path} {a b : Bytes} {f g h : OfStream × Disk} (hf : Stored p a f g)
    (hg : Stored p b g h) : Stored p (a ++ b) f h := by
  refine ⟨hg.1.trans hf.1, ?_⟩
  rw [hg.2, hf.2, FileSystem.append_append]

section Loop

variable {p : Path} {file : OfStream × Disk}

theorem write_stored (hfile : file.1 = { file := some p }) (bytes : Bytes) :
    Stored p bytes file (file.2.write file.1 bytes) := by
  have hfail : file.1.fail = false := by rw [hfile]
  have hopen : file.1.file = some p := by rw [hfile]
  exact Disk.write_open hfail hopen bytes

theorem putAscii_stored (hfile : file.1 = { file := some p }) (bytes : Bytes) :
    Stored p (TransferType.ascii.stored bytes) file (putAscii file bytes) := by
  induction bytes generalizing file with
  | nil => exact ⟨rfl, (FileSystem.append_nil _ p).symm⟩
  | cons b bytes ih =>
    rw [putAscii, List.foldl_cons, ← putAscii]
    by_cases hb : b = CR
    · rw [if_pos hb]
      have hskip : TransferType.ascii.stored (b :: bytes) = TransferType.ascii.stored bytes := by
        simp [TransferType.stored, hb]
      rw [hskip]
      exact ih hfile
    · rw [if_neg hb]
      have hkeep : TransferType.ascii.stored (b :: bytes) =
          [b] ++ TransferType.ascii.stored bytes := by
        simp [TransferType.stored, hb]
      have hput := write_stored hfile [b]
      rw [hkeep]
      exact hput.trans (ih (hput.1.trans hfile))

theorem put_stored (t : TransferType) (hfile : file.1 = { file := some p }) (bytes : Bytes) :
    Stored p (t.stored bytes) file (t.put file bytes) := by
  cases t with
  | ascii => exact putAscii_stored hfile bytes
  | binary => exact write_stored hfile bytes

/-- The pieces that the loop takes: up to the first that does not fill the buffer. -/
def taken : List Piece → List Piece
  | [] => []
  | piece :: pieces =>
    if piece.bytes.length = recvBufferSize then piece :: taken pieces else [piece]

theorem receivePieces_fst (put : OfStream × Disk → Bytes → OfStream × Disk) (pieces : List Piece)
    (file : OfStream × Disk) :
    (receivePieces put pieces file).1 =
      pieces.any fun piece => piece.bytes.length ≠ recvBufferSize := by
  induction pieces generalizing file with
  | nil => rfl
  | cons piece pieces ih =>
    rw [receivePieces, List.any_cons]
    split
    · rename_i hfull
      rw [ih]
      simp [hfull]
    · rename_i hshort
      simp [hshort]

theorem receivePieces_stored (t : TransferType) (hfile : file.1 = { file := some p })
    (pieces : List Piece) :
    Stored p (t.stored (upload (taken pieces))) file (receivePieces t.put pieces file).2 := by
  induction pieces generalizing file with
  | nil =>
    refine ⟨rfl, ?_⟩
    have hnil : t.stored (upload (taken [])) = [] := by cases t <;> rfl
    rw [hnil, FileSystem.append_nil]
    rfl
  | cons piece pieces ih =>
    have hput := put_stored t hfile piece.bytes
    rw [receivePieces, taken]
    split
    · rw [upload_cons, t.stored_append]
      exact hput.trans (ih (hput.1.trans hfile))
    · rw [upload_cons, upload, List.map_nil, List.flatten_nil, List.append_nil]
      exact hput

/-- A stream that failed writes nothing. -/
theorem receivePieces_failed (t : TransferType) (hfail : file.1.fail = true)
    (pieces : List Piece) : (receivePieces t.put pieces file).2 = file := by
  have hwrite : ∀ bytes, file.2.write file.1 bytes = file := by
    intro bytes
    simp [Disk.write, OfStream.write, hfail]
  have hput : ∀ bytes, t.put file bytes = file := by
    intro bytes
    cases t with
    | ascii =>
      unfold TransferType.put putAscii
      induction bytes with
      | nil => rfl
      | cons b bytes ih => simpa [hwrite] using ih
    | binary => exact hwrite bytes
  induction pieces with
  | nil => rfl
  | cons piece pieces ih =>
    rw [receivePieces, hput]
    split
    · exact ih
    · rfl

theorem taken_short {full rest : List Piece} {short : Piece}
    (hfull : ∀ piece ∈ full, piece.bytes.length = recvBufferSize)
    (hshort : short.bytes.length < recvBufferSize) :
    taken (full ++ short :: rest) = full ++ [short] := by
  induction full with
  | nil => rw [List.nil_append, taken, if_neg (Nat.ne_of_lt hshort), List.nil_append]
  | cons piece full ih =>
    have htail := ih fun other hother => hfull other (List.mem_cons_of_mem _ hother)
    rw [List.cons_append, taken, if_pos (hfull piece List.mem_cons_self), htail,
      List.cons_append]

theorem exists_short {pieces : List Piece}
    (h : (pieces.any fun piece => piece.bytes.length ≠ recvBufferSize) = true) :
    ∃ full short rest, pieces = full ++ short :: rest ∧
      (∀ piece ∈ full, piece.bytes.length = recvBufferSize) ∧
      short.bytes.length < recvBufferSize := by
  induction pieces with
  | nil => exact nomatch h
  | cons piece pieces ih =>
    by_cases hpiece : piece.bytes.length = recvBufferSize
    · rw [List.any_cons, hpiece] at h
      obtain ⟨full, short, rest, rfl, hfull, hshort⟩ := ih (by simpa using h)
      exact ⟨piece :: full, short, rest, rfl, List.forall_mem_cons.mpr ⟨hpiece, hfull⟩, hshort⟩
    · exact ⟨[], piece, pieces, rfl, List.forall_mem_nil _,
        Nat.lt_of_le_of_ne piece.le hpiece⟩

end Loop

section Handler

variable (o : Outcomes) (args : Bytes) (x : Execution)

/-- The file that STOR opens, or the stream that opened none. -/
abbrev storFile : OfStream × Disk :=
  x.disk.openForWriting (!o.refuses .write (x.session.joined args)) {} (x.session.joined args)

theorem handleStor_eq (h : x.session.dataSocket = true) :
    x.handleStor o args =
      let received := receivePieces x.session.transferType.put o.pieces (storFile o args x)
      { x with
        session := { x.session with dataSocket := false, acceptor := false }
        disk := received.2.2
        replies := x.replies ++ [x.session.transferType.ready, if received.1 then
            chars "226 The file transferred successfully, closing data connection"
          else chars "446 Transfer failed"]
        calls := x.calls ++
          [⟨.write, x.session.joined args, (storFile o args x).1.file.isSome⟩] } := by
  unfold Execution.handleStor
  rw [h, Bool.not_true, if_neg (by decide)]
  dsimp only [Execution.sendMessageToClient, Execution.called]
  cases hdone :
      (receivePieces x.session.transferType.put o.pieces (storFile o args x)).1 with
  | false => simp [Execution.closeDataConnection]
  | true => simp [Execution.closeDataConnection]

def CanStore : Prop :=
  o.refuses .write (x.session.joined args) = false ∧ x.session.joined args ≠ [] ∧
    x.disk.isDirectory (x.disk.files.denotes (x.session.joined args)) = false

/-- The first piece that does not fill the buffer has nothing to be stored behind it. -/
def EndsShort (t : TransferType) (pieces : List Piece) : Prop :=
  ∃ full short rest, pieces = full ++ short :: rest ∧
    (∀ piece ∈ full, piece.bytes.length = recvBufferSize) ∧
    short.bytes.length < recvBufferSize ∧ t.stored (upload rest) = []

/-- STOR opened the file, which now has what the client sent, and says so. -/
def StoresUpload : Prop :=
  let y := x.handleStor o args
  ⟨.write, x.session.joined args, true⟩ ∈ y.calls ∧
    y.disk.files.lookup (x.session.joined args) =
      some (x.session.transferType.stored (upload o.pieces)) ∧
    y.replies.getLast? =
      some (chars "226 The file transferred successfully, closing data connection")

instance : Decidable (CanStore o args x) := inferInstanceAs (Decidable (_ ∧ _ ∧ _))
instance : Decidable (StoresUpload o args x) := inferInstanceAs (Decidable (_ ∧ _ ∧ _))

variable {o args x}

theorem storFile_opened (hopen : CanStore o args x) :
    (storFile o args x).1 = { file := some (x.disk.files.denotes (x.session.joined args)) } ∧
      (storFile o args x).2.files =
        x.disk.files.create (x.disk.files.denotes (x.session.joined args)) :=
  Disk.openForWriting_granted rfl ⟨by rw [hopen.1, Bool.not_false], hopen.2⟩

theorem storFile_refused (hopen : ¬ CanStore o args x) :
    storFile o args x = ({ fail := true }, x.disk) := by
  refine Disk.openForWriting_refused fun h => hopen ⟨?_, h.2⟩
  rw [← Bool.not_eq_true', h.1]

theorem lookup_stored (h : x.session.dataSocket = true) (hopen : CanStore o args x) :
    (x.handleStor o args).disk.files.lookup (x.session.joined args) =
      some (x.session.transferType.stored (upload (taken o.pieces))) := by
  obtain ⟨hfile, hfiles⟩ := storFile_opened hopen
  obtain ⟨-, hstored⟩ := receivePieces_stored x.session.transferType hfile o.pieces
  rw [handleStor_eq o args x h, FileSystem.lookup, hstored, hfiles]
  simp

/-- STOR stores an upload and answers 226 exactly when a file can be opened under the path and
the first piece that does not fill the buffer is the end of what is to be stored. -/
theorem stor_stores_iff (o : Outcomes) (s : FTPSession) (args : Bytes)
    (h : s.dataSocket = true) :
    StoresUpload o args (.start s o.disk) ↔
      CanStore o args (.start s o.disk) ∧ EndsShort s.transferType o.pieces := by
  have heq := handleStor_eq o args (.start s o.disk) h
  constructor
  · rintro ⟨hcall, hlookup, hreply⟩
    have hopen : CanStore o args (.start s o.disk) := by
      by_contra hno
      rw [heq] at hcall
      dsimp only at hcall
      rw [storFile_refused hno] at hcall
      simp [Execution.start] at hcall
    refine ⟨hopen, ?_⟩
    have hshort : (o.pieces.any fun piece => piece.bytes.length ≠ recvBufferSize) = true := by
      rw [heq] at hreply
      dsimp only at hreply
      rw [receivePieces_fst] at hreply
      by_contra hno
      rw [if_neg hno] at hreply
      simp [chars] at hreply
    obtain ⟨full, short, rest, hpieces, hfull, hlen⟩ := exists_short hshort
    refine ⟨full, short, rest, hpieces, hfull, hlen, ?_⟩
    rw [lookup_stored h hopen, hpieces, taken_short hfull hlen] at hlookup
    exact TransferType.stored_front_iff.mp (Option.some.inj hlookup)
  · rintro ⟨hopen, full, short, rest, hpieces, hfull, hlen, hrest⟩
    refine ⟨?_, ?_, ?_⟩
    · rw [heq]
      dsimp only
      rw [(storFile_opened hopen).1]
      simp
    · rw [lookup_stored h hopen, hpieces, taken_short hfull hlen]
      exact congrArg some (TransferType.stored_front_iff.mpr hrest)
    · rw [heq]
      dsimp only
      rw [receivePieces_fst, if_pos]
      · simp
      · rw [hpieces, List.any_append, List.any_cons]
        simp [Nat.ne_of_lt hlen]

end Handler

/-- A home directory with one file, and a session in it with a data connection. -/
def homeDisk : Disk where
  files := .single (chars "/home/f") (chars "text")
  isDirectory p := p = chars "/" ∨ p = chars "/home"
  apart p hp := by
    have hne : p ≠ chars "/home/f" := by
      rintro rfl
      revert hp
      decide
    simp [FileSystem.single, hne]

def connected : FTPSession := { FTPSession.start 10020 (chars "/home") with dataSocket := true }

def twoPieces : List Piece :=
  [⟨chars "ab", by decide, by decide⟩, ⟨chars "cd", by decide, by decide⟩]

def fullPiece : Piece where
  bytes := List.replicate recvBufferSize 0
  pos := by
    rw [List.length_replicate]
    decide
  le := Nat.le_of_eq List.length_replicate

/-- A full piece and a short one are stored. -/
theorem stor_stores_piece :
    StoresUpload { disk := homeDisk, pieces := fullPiece :: twoPieces.take 1 } (chars "g")
      (.start connected homeDisk) :=
  (stor_stores_iff { disk := homeDisk, pieces := fullPiece :: twoPieces.take 1 } connected
    (chars "g") rfl).mpr ⟨by decide, [fullPiece], ⟨chars "ab", by decide, by decide⟩, [], rfl,
      List.forall_mem_singleton.mpr List.length_replicate, by decide, rfl⟩

/-- Of an upload in two short pieces the first is stored and 226 is answered; an upload of one
full piece is answered 446. -/
theorem stor_stops_short :
    ¬ StoresUpload { disk := homeDisk, pieces := twoPieces } (chars "g")
      (.start connected homeDisk) ∧
    (Execution.handleStor { disk := homeDisk, pieces := twoPieces } (chars "g")
      (.start connected homeDisk)).disk.files.lookup (chars "/home/g") = some (chars "ab") ∧
    ¬ StoresUpload { disk := homeDisk, pieces := [fullPiece] } (chars "g")
      (.start connected homeDisk) ∧
    (Execution.handleStor { disk := homeDisk, pieces := [fullPiece] } (chars "g")
      (.start connected homeDisk)).replies.getLast? = some (chars "446 Transfer failed") := by
  decide +kernel

end Ftp
end NetworkProtocols
