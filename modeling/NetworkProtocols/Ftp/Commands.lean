import NetworkProtocols.Ftp.Session

/-!
# The FTP commands

The handlers of `FTPSession` and `executeCommand`, which reads the command of a line and calls
one of them.
-/

namespace NetworkProtocols
namespace Ftp

open Bytes

/-- The loop of RETR in binary mode: the blocks that `readsome` finds, until it finds none. -/
def sendBlocks (o : Outcomes) : List ℕ → Bytes → Execution → Bool × Execution
  | [], _, x => (true, x)
  | n :: available, content, x =>
    let n := min (min n sendBufferSize) content.length
    if n = 0 then (true, x)
    else match x.sendDataToClient o (content.take n) with
      | (false, x) => (false, x)
      | (true, x) => sendBlocks o available (content.drop n) x

/-- The loop of RETR in ASCII mode. -/
def sendLines (o : Outcomes) : List Bytes → Execution → Bool × Execution
  | [], x => (true, x)
  | line :: lines, x =>
    match x.sendDataToClient o (line ++ [CR, LF]) with
    | (false, x) => (false, x)
    | (true, x) => sendLines o lines x

/-- The loops of STOR, which end with a piece that does not fill the buffer. -/
def receivePieces (put : OfStream × Disk → Bytes → OfStream × Disk) :
    List Piece → OfStream × Disk → Bool × (OfStream × Disk)
  | [], file => (false, file)
  | piece :: pieces, file =>
    let file := put file piece.bytes
    if piece.bytes.length = recvBufferSize then receivePieces put pieces file else (true, file)

def putBinary (file : OfStream × Disk) (bytes : Bytes) : OfStream × Disk :=
  file.2.write file.1 bytes

def putAscii (file : OfStream × Disk) (bytes : Bytes) : OfStream × Disk :=
  bytes.foldl (fun file b => if b = CR then file else file.2.write file.1 [b]) file

def TransferType.put : TransferType → OfStream × Disk → Bytes → OfStream × Disk
  | .ascii => putAscii
  | .binary => putBinary

def TransferType.ready : TransferType → Bytes
  | .ascii => chars "150 Data connection (ASCII mode) is ready to transfer file"
  | .binary => chars "150 Data connection (binary mode) is ready to transfer file"

/-- The host and the port that PORT reads. It takes six fields and does not look at the ones
behind them; the port is cut to 16 bits. -/
def portArguments (args : Bytes) : Except Fault (Bytes × UInt16) :=
  match split args comma with
  | h1 :: h2 :: h3 :: h4 :: p1 :: p2 :: _ =>
    match stoi p1, stoi p2 with
    | some p1, some p2 =>
      .ok ([46].intercalate [h1, h2, h3, h4], UInt16.ofInt (p1 * 256 + p2))
    | _, _ => .error .exception
  | _ => .error .outOfRange

/-- `_currDir / args`. -/
def FTPSession.joined (s : FTPSession) (args : Bytes) : Bytes := PathName.append s.currDir args

/-- The directory that `handleCwd` looks for. -/
def FTPSession.cwdTarget (s : FTPSession) (args : Bytes) : Bytes :=
  if args = PathName.dotDot then PathName.parentPath s.currDir
  else if args ≠ [] ∧ args ≠ PathName.dot then s.joined args
  else s.currDir

namespace Execution

variable (o : Outcomes) (users : UsersDB) (args : Bytes) (x : Execution)

def handleCwd : Execution :=
  let currDir := x.session.cwdTarget args
  let x := x.called .status currDir (!o.refuses .status currDir)
  if o.refuses .status currDir then x.raise .exception
  else if x.disk.present currDir && x.disk.hasDirectory currDir then
    { x with session := { x.session with currDir := currDir } }.sendMessageToClient
      (chars "250 The current directory has been changed to " ++ currDir)
  else x.sendMessageToClient (chars "550 Requested action not taken, directory unavailable")

def handleDele : Execution :=
  if matchesFile args then
    let filePath := x.session.joined args
    let x := x.called .status filePath (!o.refuses .status filePath)
    if o.refuses .status filePath then x.raise .exception
    else if x.disk.present filePath && x.disk.hasFile filePath then
      let (removed, disk) := x.disk.removeEntry (!o.refuses .remove filePath) filePath
      let x := { x with disk := disk }.called .remove filePath removed
      if removed then x.sendMessageToClient (chars "250 file successfully deleted")
      else x.sendMessageToClient (chars "550 could not delete file")
    else x.sendMessageToClient (chars "550 File doesn't exist")
  else x.sendMessageToClient (chars "550 Invalid name")

def handleEpsv : Execution :=
  let x := x.sendMessageToClient (chars "229 Entering Extended Passive Mode (|||" ++
    decimal x.session.dataPort.toNat ++ chars "|)")
  (x.openDataConnectionPassive o x.session.dataPort).2

def handleFeat : Execution :=
  ((x.sendMessageToClient (chars "211-Features supported:")).sendMessageToClient
    (chars " nothing essential now ")).sendMessageToClient (chars "211 End")

def handleMkd : Execution :=
  if matchesDirectory args then
    let dir := x.session.joined args
    let (created, disk) := x.disk.createDirectory (!o.refuses .create dir) dir
    let x := { x with disk := disk }.called .create dir created
    if created then x.sendMessageToClient (chars "250 Directory successfully created")
    else x.sendMessageToClient (chars "550 Could not create directory")
  else x.sendMessageToClient (chars "550 Invalid name")

/-- The lines about a directory; none when an exception leaves the loop. -/
def readDirectory : Option (List Bytes) × Execution :=
  let path := x.session.joined args
  let x := x.called .status path (!o.refuses .status path)
  if o.refuses .status path || !x.disk.present path || !x.disk.hasDirectory path then (some [], x)
  else (o.listing path, x.called .list path (o.listing path).isSome)

/-- An exception is caught and left without a reply. -/
def handleNlst : Execution :=
  if !x.session.dataSocket then x.sendMessageToClient (chars "425 No data connection")
  else match x.readDirectory o args with
    | (none, x) => x.closeDataConnection
    | (some [], x) =>
      (x.sendMessageToClient (chars "550 The directory does not exist")).closeDataConnection
    | (some dirContent, x) =>
      let x := x.sendMessageToClient
        (chars "125 Data connection is ready to transfer files list")
      let x := dirContent.foldl (fun x s => x.sendAsciiDataToClient o s) x
      (x.sendMessageToClient (chars "226 Transfer complete")).closeDataConnection

/-- A PASS without a username is not answered. -/
def handlePass : Execution :=
  if x.session.username ≠ [] then
    match users.passwordIsValid x.session.username args with
    | none => x.raise .exception
    | some true => x.sendMessageToClient
        (chars "230 User " ++ x.session.username ++ chars " logged in")
    | some false => x.sendMessageToClient (chars "530 login authentication failed")
  else x

def handlePasv : Execution :=
  let h := split (chars "127.0.0.1") 46
  let p1 := x.session.dataPort.toNat / 256
  let p2 := x.session.dataPort.toNat % 256
  let x := x.sendMessageToClient (chars "227 Entering Passive Mode (" ++
    [comma].intercalate (h ++ [decimal p1, decimal p2]) ++ chars ").")
  (x.openDataConnectionPassive o x.session.dataPort).2

def handlePort : Execution :=
  match portArguments args with
  | .error fault => x.raise fault
  | .ok (host, port) =>
    let (opened, x) := x.openDataConnectionActive o host port
    if opened then x.sendMessageToClient (chars "200 PORT command successful") else x

def handlePwd : Execution :=
  x.sendMessageToClient (chars "257 \"" ++ x.session.currDir ++ chars "\"")

def handleQuit : Execution :=
  let x := x.sendMessageToClient (chars "221 Goodbye.")
  { x with session := { x.session with quitCmdLoop := true } }

/-- The file that RETR reads; a stream that opened nothing has nothing to read. -/
def readable (path : Bytes) : Option Bytes :=
  if x.disk.hasFile path && !o.refuses .read path then x.disk.files.lookup path else none

/-- What RETR does with a path that exists. -/
def sendFile (path : Bytes) : Bool × Execution :=
  let inFile := x.readable o path
  match x.session.transferType with
  | .binary =>
    let x := x.sendMessageToClient
      (chars "150 Data connection (binary mode) is ready to transfer file")
    sendBlocks o o.available (inFile.getD []) (x.called .read path inFile.isSome)
  | .ascii =>
    let x := x.sendMessageToClient
      (chars "150 Data connection (ASCII mode) is ready to transfer file.")
    sendLines o (split (inFile.getD []) LF) (x.called .read path inFile.isSome)

/-- A path that does not exist leaves the data connection open. -/
def handleRetr : Execution :=
  if !x.session.dataSocket then x.sendMessageToClient (chars "425 No data connection")
  else
    let path := x.session.joined args
    let x := x.called .status path (!o.refuses .status path)
    if o.refuses .status path then x.raise .exception
    else if !x.disk.present path then x.sendMessageToClient (chars "550 File does not exist")
    else
      let (transferSuccess, x) := x.sendFile o path
      let x := if transferSuccess then x.sendMessageToClient
          (chars "226 The file transferred successfully, closing data connection") else x
      x.closeDataConnection

def handleRmd : Execution :=
  if matchesDirectory args then
    let dir := x.session.joined args
    let x := x.called .status dir (!o.refuses .status dir)
    if !o.refuses .status dir && x.disk.present dir && x.disk.hasDirectory dir then
      let (removed, disk) := x.disk.removeEntry (!o.refuses .remove dir) dir
      let x := { x with disk := disk }.called .remove dir removed
      if removed then x.sendMessageToClient (chars "250 Directory successfully removed")
      else x.sendMessageToClient (chars "550 Could not remove directory")
    else x.sendMessageToClient (chars "550 Directory not exist or given name is not directory")
  else x.sendMessageToClient (chars "550 Invalid name")

def handleSyst : Execution := x.sendMessageToClient (chars "215 UNIX Type: L8")

/-- Whether the file was opened is not looked at. -/
def handleStor : Execution :=
  if !x.session.dataSocket then x.sendMessageToClient (chars "425 No data connection")
  else
    let path := x.session.joined args
    let x := x.sendMessageToClient x.session.transferType.ready
    let (outFile, disk) := x.disk.openForWriting (!o.refuses .write path) {} path
    let x := x.called .write path outFile.file.isSome
    let (transferSuccess, _, disk) :=
      receivePieces x.session.transferType.put o.pieces (outFile, disk)
    let x := { x with disk := disk }
    let x := if transferSuccess then x.sendMessageToClient
        (chars "226 The file transferred successfully, closing data connection")
      else x.sendMessageToClient (chars "446 Transfer failed")
    x.closeDataConnection

def handleType : Execution :=
  match args with
  | [b] =>
    if toUpper b = 65 then
      { x with session := { x.session with transferType := .ascii } }.sendMessageToClient
        (chars "200 Switched to ASCII mode")
    else if toUpper b = 73 then
      { x with session := { x.session with transferType := .binary } }.sendMessageToClient
        (chars "200 Switched to Binary mode")
    else x.sendMessageToClient (chars "504 Invalid argument")
  | _ => x.sendMessageToClient (chars "504 Invalid argument")

/-- A username that is unknown is not answered, and the one in front of it is kept. -/
def handleUser : Execution :=
  if users.usernameIsKnown args then
    let x := x.sendMessageToClient (chars "331 Password required for " ++ args)
    { x with session := { x.session with username := args } }
  else x

end Execution

inductive Command
  | cwd | dele | eprt | epsv | feat | list | nlst | mkd | pass | pasv | port | pwd | quit | retr
  | rmd | syst | stor | type | user | unknown
  deriving DecidableEq

/-- The command that the first word of a line names, in upper case. -/
def commandOf (command : Bytes) : Command :=
  if command = chars "CWD" then .cwd
  else if command = chars "DELE" then .dele
  else if command = chars "EPRT" then .eprt
  else if command = chars "EPSV" then .epsv
  else if command = chars "FEAT" then .feat
  else if command = chars "LIST" then .list
  else if command = chars "NLST" then .nlst
  else if command = chars "MKD" then .mkd
  else if command = chars "PASS" then .pass
  else if command = chars "PASV" then .pasv
  else if command = chars "PORT" then .port
  else if command = chars "PWD" then .pwd
  else if command = chars "QUIT" then .quit
  else if command = chars "RETR" then .retr
  else if command = chars "RMD" then .rmd
  else if command = chars "SYST" then .syst
  else if command = chars "STOR" then .stor
  else if command = chars "TYPE" then .type
  else if command = chars "USER" then .user
  else .unknown

/-- A line cut at its first space: the command in front of it, the arguments behind it. -/
def parseCommand (cmd : Bytes) : Command × Bytes :=
  let p := cmd.findIdx (· == space)
  (commandOf ((cmd.take p).map toUpper), cmd.drop (p + 1))

/-- What PORT does with its arguments: the text behind a left parenthesis and in front of a
right one. -/
def stripParentheses (args : Bytes) : Bytes :=
  let args := if leftParenthesis ∈ args then args.drop (args.findIdx (· == leftParenthesis) + 1)
    else args
  args.take (args.findIdx (· == rightParenthesis))

def parseExtendedArguments (args : Bytes) : Bytes := args

def executeCommand (o : Outcomes) (users : UsersDB) (cmd : Bytes) (x : Execution) : Execution :=
  let (command, args) := parseCommand cmd
  match command with
  | .cwd => x.handleCwd o args
  | .dele => x.handleDele o args
  | .eprt => x.handlePort o (parseExtendedArguments args)
  | .epsv => x.handleEpsv o
  | .feat => x.handleFeat
  | .list => x.handleNlst o args
  | .nlst => x.handleNlst o args
  | .mkd => x.handleMkd o args
  | .pass => x.handlePass users args
  | .pasv => x.handlePasv o
  | .port => x.handlePort o (stripParentheses args)
  | .pwd => x.handlePwd
  | .quit => x.handleQuit
  | .retr => x.handleRetr o args
  | .rmd => x.handleRmd o args
  | .syst => x.handleSyst
  | .stor => x.handleStor o args
  | .type => x.handleType args
  | .user => x.handleUser users args
  | .unknown => x.sendMessageToClient (chars "500 Unknown command")

end Ftp
end NetworkProtocols
