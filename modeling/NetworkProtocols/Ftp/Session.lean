import Mathlib.Data.Int.Notation
import NetworkProtocols.Lib.Directories
import NetworkProtocols.Lib.LexicalPath

/-!
# The FTP session

`FTPSession` with its handlers. A command runs on the session and the disk as it finds them
and leaves behind what it sent, which calls it made to the file system, and the exception that
left it, if any. The log is left out.
-/

namespace NetworkProtocols
namespace Ftp

open Bytes

def comma : Byte := 44
def leftParenthesis : Byte := 40
def rightParenthesis : Byte := 41

def sendBufferSize : ℕ := 1024
def recvBufferSize : ℕ := 512

inductive TransferType
  | ascii | binary
  deriving DecidableEq

/-- Of the two sockets, whether they are open. -/
structure FTPSession where
  dataPort : UInt16
  dataSocket : Bool := false
  acceptor : Bool := false
  rootDir : Bytes
  currDir : Bytes
  username : Bytes := []
  quitCmdLoop : Bool := false
  transferType : TransferType := .binary
  deriving DecidableEq

def FTPSession.start (dataPort : UInt16) (rootDir : Bytes) : FTPSession where
  dataPort := dataPort
  rootDir := rootDir
  currDir := rootDir

/-- `_usersWithPasswords`. -/
abbrev UsersDB := Bytes → Option Bytes

def UsersDB.usernameIsKnown (users : UsersDB) (username : Bytes) : Bool := (users username).isSome

/-- None is the exception for a username that is unknown. -/
def UsersDB.passwordIsValid (users : UsersDB) (username password : Bytes) : Option Bool :=
  (users username).map (· == password)

inductive Access
  | status | list | read | write | create | remove
  deriving DecidableEq

/-- A call with the path that was passed to it. -/
structure FileCall where
  access : Access
  path : Bytes
  granted : Bool
  deriving DecidableEq

/-- What one `read_some` without an error returns. -/
structure Piece where
  bytes : Bytes
  pos : 0 < bytes.length
  le : bytes.length ≤ recvBufferSize

/-- How the calls of a command turn out. The disk is as the command finds it. -/
structure Outcomes where
  disk : Disk
  refuses : Access → Bytes → Bool := fun _ _ => false
  /-- The lines about the entries of a directory; none when iterating throws. -/
  listing : Bytes → Option (List Bytes) := fun _ => some []
  /-- How many characters `readsome` finds in the buffer, and nothing behind the last of these. -/
  available : List ℕ := []
  /-- The bytes that an `asio::write` on the data socket fails after; none when it succeeds. -/
  sendFails : ℕ → Option ℕ := fun _ => none
  /-- What `read_some` returns in turn, before it returns an error. -/
  pieces : List Piece := []
  addressValid : Bytes → Bool := fun _ => true
  dataSocketOpens : Bool := true
  connects : Bytes → UInt16 → Bool := fun _ _ => true
  acceptorOpens : Bool := true
  optionSet : Bool := true
  binds : UInt16 → Bool := fun _ => true
  listens : Bool := true
  accepts : Bool := true

/-- How a command is left but by its return: an exception, or an element that is not there. -/
inductive Fault
  | exception | outOfRange
  deriving DecidableEq

/-- A command under way. A reply is on the wire with a CRLF behind it. -/
structure Execution where
  session : FTPSession
  disk : Disk
  replies : List Bytes := []
  sent : List Bytes := []
  calls : List FileCall := []
  endpoints : List (Bytes × UInt16) := []
  fault : Option Fault := none

/-- `std::getline` until it fails: a last item without text is none. -/
def split (s : Bytes) (delim : Byte) : List Bytes :=
  let items := s.splitOn delim
  if items.getLast? = some [] then items.dropLast else items

def isLower (b : Byte) : Bool := 97 ≤ b && b ≤ 122
def isUpper (b : Byte) : Bool := 65 ≤ b && b ≤ 90

def toUpper (b : Byte) : Byte := if isLower b then b - 32 else b

/-- `std::stoi`; none is an exception. -/
def stoi (s : Bytes) : Option ℤ :=
  let s := s.dropWhile isSpace
  let negative := s.head? = some 45
  let digits := (if negative ∨ s.head? = some 43 then s.drop 1 else s).takeWhile isDigit
  let value : ℤ := if negative then -digitsValue digits else digitsValue digits
  if digits = [] ∨ value < -2147483648 ∨ 2147483647 < value then none else some value

/-- The whole text matches `^[a-zA-Z0-9]+$`. -/
def matchesDirectory (s : Bytes) : Bool :=
  !s.isEmpty && s.all fun b => isLower b || isUpper b || isDigit b

/-- The whole text matches `(.+?)(\.[^.]*$|$)`: a front without line ends, and behind it nothing
or a last dot with what follows. -/
def matchesFile (s : Bytes) : Bool :=
  (List.range s.length).any fun i =>
    (s.take (i+1)).all (fun b => b ≠ CR ∧ b ≠ LF) &&
      match s.drop (i+1) with
      | [] => true
      | b :: rest => b == 46 && !rest.contains 46

namespace Execution

def start (s : FTPSession) (d : Disk) : Execution where
  session := s
  disk := d

def sendMessageToClient (x : Execution) (msg : Bytes) : Execution :=
  { x with replies := x.replies ++ [msg] }

def called (x : Execution) (access : Access) (path : Bytes) (granted : Bool) : Execution :=
  { x with calls := x.calls ++ [⟨access, path, granted⟩] }

def raise (x : Execution) (fault : Fault) : Execution := { x with fault := some fault }

variable (o : Outcomes)

def sendDataToClient (data : Bytes) (x : Execution) : Bool × Execution :=
  match o.sendFails x.sent.length with
  | none => (true, { x with sent := x.sent ++ [data] })
  | some n => (false, { x with sent := x.sent ++ [data.take n] })

def sendAsciiDataToClient (data : Bytes) (x : Execution) : Execution :=
  (x.sendDataToClient o (data ++ [CR, LF])).2

/-- A socket is closed by `close` whatever the error. -/
def closeDataConnection (x : Execution) : Execution :=
  { x with session := { x.session with dataSocket := false, acceptor := false } }

/-- `connect` opens a socket that is closed. -/
def openDataConnectionActive (addr : Bytes) (port : UInt16) (x : Execution) : Bool × Execution :=
  if !o.addressValid addr then (false, x.raise .exception)
  else
    let opened := x.session.dataSocket || o.dataSocketOpens
    (opened && o.connects addr port, { x with
      session := { x.session with dataSocket := opened }
      endpoints := x.endpoints ++ [(addr, port)] })

/-- An acceptor that is open is not opened again. -/
def openDataConnectionPassive (port : UInt16) (x : Execution) : Bool × Execution :=
  if x.session.dataSocket then (false, x)
  else if x.session.acceptor || !o.acceptorOpens then (false, x)
  else
    let x := { x with session := { x.session with acceptor := true } }
    if !o.optionSet then (false, x)
    else if !o.binds port then (false, x)
    else if !o.listens then (false, x)
    else if !o.accepts then (false, x)
    else (true, { x with session := { x.session with dataSocket := true } })

end Execution
end Ftp
end NetworkProtocols
