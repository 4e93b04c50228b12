import NetworkProtocols.Tftp.Payload

/-!
# The client: `getFile` and `putFile`

Both functions of `tftp-client.cpp` send a request and then loop around a blocking
`recv()`. Their locals at the head of the loop are a structure, one turn of the loop is
a function of the received datagram. The asserts are evaluated, as in the Debug build
that `CMakeLists.txt` asks for; a failed one aborts the process.
-/

namespace NetworkProtocols
namespace Tftp

/-- The members the two functions use, with the files of the client's host, which are
not those of the server's. -/
structure TFTPClient where
  transferMode : TransferMode := .ascii
  recvBuffer : Buffer
  files : FileSystem

/-- The client after construction, in the given mode and on a host with the given files. -/
def TFTPClient.init (mode : TransferMode) (files : FileSystem) : TFTPClient where
  transferMode := mode
  recvBuffer := .blank
  files := files

/-- What the environment answers: opening the local file, sending, removing the file. -/
structure ClientOutcomes where
  openOk : Bool := true
  sendOk : Bool := true
  removeOk : Bool := true
  deriving DecidableEq

/-- Where a call stands: blocked in `recv()` with its locals, returned, or aborted. -/
inductive Call (L : Type)
  | waiting (locals : L)
  | returned (result : Bool) (client : TFTPClient)
  | aborted (client : TFTPClient)

def TFTPClient.recv (c : TFTPClient) (d : Datagram) : TFTPClient :=
  { c with recvBuffer := c.recvBuffer.fill d }

/-- The `switch` over the error codes; its `default` is `assert(false)`. -/
def ErrorCode.ofCode (w : UInt16) : Option ErrorCode :=
  [ErrorCode.noError, .fileNotFound, .accessViolation, .diskFull, .illegalOperation,
    .unknownTransferId, .fileAlreadyExists, .noSuchUser, .terminateTransfer].find?
    fun e => e.code = w

def ErrorCode.text : ErrorCode → String
  | .noError => " No Error"
  | .fileNotFound => " File not found"
  | .accessViolation => " Access violation"
  | .diskFull => " Disk full or allocation exceeded"
  | .illegalOperation => " Illegal TFTP operation"
  | .unknownTransferId => " Unknown transfer ID"
  | .fileAlreadyExists => " File already exists"
  | .noSuchUser => " No such user"
  | .terminateTransfer => " Terminate transfer due to option negotiation"

/-- The three parts of the line that `writeErrorMessage` prints. -/
structure ErrorReport where
  description : String
  errCode : UInt16
  msgText : Bytes

/-- `none` is a failed assertion. The text ends at a NUL or with the buffer. -/
def TFTPClient.writeErrorMessage (c : TFTPClient) : Option ErrorReport :=
  if c.recvBuffer.word 0 ≠ MessageType.error.code then none
  else (ErrorCode.ofCode (c.recvBuffer.word 2)).map fun e =>
    { description := e.text
      errCode := c.recvBuffer.word 2
      msgText := (c.recvBuffer.bytes.drop 4).takeWhile (· ≠ 0) }

/-- The locals of `getFile` at the head of its loop. -/
structure GetFile where
  client : TFTPClient
  dstFilename : Bytes
  outFile : OfStream
  expectedBlockNumber : UInt16 := 0

namespace GetFile

/-- `removeOutFile`: close the stream and remove the file; `removeOk` is the answer of
the operating system. -/
def removeOutFile (g : GetFile) (o : ClientOutcomes) : TFTPClient :=
  if o.removeOk then
    { g.client with files := g.client.files.remove (g.client.files.denotes g.dstFilename) }
  else g.client

/-- The DATA branch behind the comparison of the block number: store the block,
acknowledge it, and leave the loop after a short block. -/
def storeAndAcknowledge (g : GetFile) (o : ClientOutcomes) (blockNum : UInt16) (block : Bytes) :
    Call GetFile × List Datagram :=
  let stored := storePayload g.client.files g.client.transferMode g.outFile block
  let g := { g with outFile := stored.1, client := { g.client with files := stored.2 } }
  if !o.sendOk then (.returned false (g.removeOutFile o), [])
  else if block.length < 512 then (.returned true g.client, [ackMessage blockNum])
  else (.waiting g, [ackMessage blockNum])

/-- One turn of the loop; `none` is a failed `recv()`. -/
def turn (g : GetFile) (o : ClientOutcomes) : Option Datagram → Call GetFile × List Datagram
  | none => (.returned false g.client, [])
  | some d =>
    let recvBytesCount := min d.length bufferSize
    let g := { g with client := g.client.recv d }
    let msgType := g.client.recvBuffer.word 0
    if msgType = MessageType.error.code then
      match g.client.writeErrorMessage with
      | none => (.aborted g.client, [])
      | some _ => (.returned false (g.removeOutFile o), [])
    else
      let g := { g with expectedBlockNumber := g.expectedBlockNumber + 1 }
      if msgType = MessageType.data.code then
        let blockNum := g.client.recvBuffer.word 2
        if blockNum ≠ g.expectedBlockNumber then (.returned false (g.removeOutFile o), [])
        else
          let blockSize := sizeSub recvBytesCount 4
          if blockSize ≤ 512 then
            g.storeAndAcknowledge o blockNum ((g.client.recvBuffer.bytes.drop 4).take blockSize)
          else (.aborted g.client, [])
      else (.waiting g, [])

end GetFile

/-- `getFile` up to its loop. -/
def TFTPClient.getFile (c : TFTPClient) (o : ClientOutcomes) (srcFilename dstFilename : Bytes) :
    Call GetFile × List Datagram :=
  let opened := OfStream.openFile c.files {} dstFilename o.openOk
  let c := { c with files := opened.2 }
  if opened.1.fail then (.returned false c, [])
  else
    let request := requestMessage .rrq srcFilename c.transferMode
    if request.length ≤ bufferSize then
      if o.sendOk then
        (.waiting { client := c, dstFilename := dstFilename, outFile := opened.1 }, [request])
      else (.returned false c, [])
    else (.aborted c, [])

/-- The locals of `putFile` at the head of its loop. -/
structure PutFile where
  client : TFTPClient
  inFile : IfStream
  currBlockNumber : UInt16 := 0
  complete : Bool := false
  lineFeed : Bool := false

namespace PutFile

/-- The ACK branch behind its checks: send the next block of the file. -/
def sendNextBlock (p : PutFile) (o : ClientOutcomes) : Call PutFile × List Datagram :=
  let block := nextPayload p.client.files p.client.transferMode p.inFile p.lineFeed
  let p := { p with
    currBlockNumber := p.currBlockNumber + 1
    inFile := block.1
    lineFeed := block.2.1
    complete := p.complete || decide (block.2.2.length < 512) }
  let message := dataMessage p.currBlockNumber block.2.2
  if message.length ≤ bufferSize then
    if o.sendOk then (.waiting p, [message]) else (.returned false p.client, [])
  else (.aborted p.client, [])

/-- One turn of the loop; `none` is a failed `recv()`. -/
def turn (p : PutFile) (o : ClientOutcomes) : Option Datagram → Call PutFile × List Datagram
  | none => (.returned false p.client, [])
  | some d =>
    let p := { p with client := p.client.recv d }
    let msgType := p.client.recvBuffer.word 0
    if msgType = MessageType.error.code then
      match p.client.writeErrorMessage with
      | none => (.aborted p.client, [])
      | some _ => (.returned false p.client, [])
    else if msgType = MessageType.ack.code then
      if p.client.recvBuffer.word 2 ≠ p.currBlockNumber then (.returned false p.client, [])
      else if p.complete then (.returned true p.client, [])
      else p.sendNextBlock o
    else (.waiting p, [])

end PutFile

/-- `putFile` up to its loop. -/
def TFTPClient.putFile (c : TFTPClient) (o : ClientOutcomes) (srcFilename dstFilename : Bytes) :
    Call PutFile × List Datagram :=
  let inFile := IfStream.openFile c.files {} srcFilename o.openOk
  if inFile.fail then (.returned false c, [])
  else
    let request := requestMessage .wrq dstFilename c.transferMode
    if request.length ≤ bufferSize then
      if o.sendOk then (.waiting { client := c, inFile := inFile }, [request])
      else (.returned false c, [])
    else (.aborted c, [])

end Tftp
end NetworkProtocols
