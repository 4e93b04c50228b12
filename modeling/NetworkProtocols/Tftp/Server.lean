import NetworkProtocols.Tftp.Payload

/-!
# The server: sessions and dispatch

`TFTPSessionRead`, `TFTPSessionWrite` and `TFTPServer::receive` of `tftp-server.cpp`.
A handler that reads outside the receive buffer has no defined behaviour and is `none`.
A handler sends at most one datagram; the lists below hold what reached the network.
-/

namespace NetworkProtocols
namespace Tftp

/-- `udp::endpoint` of a socket opened with `udp::v4()`. -/
structure Endpoint where
  address : UInt32
  port : UInt16
  deriving DecidableEq, Repr

inductive State
  | undefined | active | failed | finished
  deriving DecidableEq, Repr

/-- What the environment answers while one datagram is handled: whether `send_to`
succeeds, whether the operating system lets the file be opened, the error codes of the
three file-system queries and the `others_write` bit of the current directory. -/
structure Outcomes where
  sendOk : Bool := true
  openOk : Bool := true
  currentPathErr : Bool := false
  existsErr : Bool := false
  statusErr : Bool := false
  othersWrite : Bool := true
  deriving DecidableEq

abbrev Packet := Endpoint × Datagram

/-- The members of the base class; the socket is the server's. -/
structure TFTPSession where
  ep : Endpoint
  transferMode : TransferMode := .ascii
  blockCounter : UInt16 := 0
  state : State := .undefined
  deriving DecidableEq

namespace TFTPSession

def send (s : TFTPSession) (o : Outcomes) (d : Datagram) : List Packet :=
  if o.sendOk then [(s.ep, d)] else []

def sendErrorMessage (s : TFTPSession) (o : Outcomes) (code : ErrorCode) (text : Bytes) :
    List Packet :=
  s.send o (errorMessage code text)

end TFTPSession

/-- Nothing was sent, or one ERROR without a text. -/
def AtMostError (ep : Endpoint) (sent : List Packet) : Prop :=
  sent = [] ∨ ∃ code, sent = [(ep, errorMessage code [])]

theorem atMostError_send (s : TFTPSession) (o : Outcomes) (code : ErrorCode) :
    AtMostError s.ep (s.sendErrorMessage o code []) := by
  unfold TFTPSession.sendErrorMessage TFTPSession.send
  cases o.sendOk with
  | false => exact .inl rfl
  | true => exact .inr ⟨code, rfl⟩

structure TFTPSessionRead extends TFTPSession where
  inFile : IfStream := {}
  readComplete : Bool := false
  lineFeed : Bool := false
  deriving DecidableEq

structure TFTPSessionWrite extends TFTPSession where
  outFile : OfStream := {}
  deriving DecidableEq

namespace TFTPSessionRead

/-- The counter advances and the file is read before the send is known to succeed. -/
def sendBlockOfData (s : TFTPSessionRead) (fs : FileSystem) (o : Outcomes) :
    TFTPSessionRead × List Packet :=
  let block := nextPayload fs s.transferMode s.inFile s.lineFeed
  let s' := { s with
    blockCounter := s.blockCounter + 1
    inFile := block.1
    lineFeed := block.2.1
    readComplete := s.readComplete || decide (block.2.2.length < 512) }
  (s', s'.send o (dataMessage s'.blockCounter block.2.2))

/-- The RRQ branch behind the checks of name and mode. -/
def openAndSend (s : TFTPSessionRead) (fs : FileSystem) (o : Outcomes) (filename : Bytes) :
    TFTPSessionRead × List Packet :=
  let s := { s with inFile := s.inFile.openFile fs filename o.openOk }
  if s.inFile.fail then (s, s.sendErrorMessage o .fileNotFound [])
  else s.sendBlockOfData fs o

def onDataReceived (s : TFTPSessionRead) (fs : FileSystem) (o : Outcomes) (data : Buffer)
    (_amount : ℕ) : Option (TFTPSessionRead × List Packet) :=
  if data.word 0 = MessageType.rrq.code then
    let s := { s with state := .active }
    match data.request with
    | none => none
    | some .noFilename => some (s, [])
    | some .invalidMode => some (s, [])
    | some (.accepted filename mode) =>
      some (openAndSend { s with transferMode := mode } fs o filename)
  else if data.word 0 = MessageType.ack.code then
    if data.word 2 ≠ s.blockCounter then some (s, s.sendErrorMessage o .unknownTransferId [])
    else if s.readComplete then
      some ({ s with inFile := s.inFile.close, state := .finished }, [])
    else some (s.sendBlockOfData fs o)
  else some (s, [])

end TFTPSessionRead

namespace TFTPSessionWrite

def sendAcknowledge (s : TFTPSessionWrite) (o : Outcomes) : List Packet :=
  s.send o (ackMessage s.blockCounter)

/-- The WRQ branch behind the checks of name and mode. What is looked up is the name behind the
current directory, what is opened is the name; the stream is not asked whether it could be
opened. -/
def checkAndOpen (s : TFTPSessionWrite) (fs : FileSystem) (o : Outcomes) (filename : Bytes) :
    TFTPSessionWrite × FileSystem × List Packet :=
  if o.currentPathErr then (s, fs, [])
  else if o.existsErr then (s, fs, [])
  else if (fs.lookup (fs.filePath filename)).isSome then
    (s, fs, s.sendErrorMessage o .fileAlreadyExists [])
  else if o.statusErr then (s, fs, [])
  else if !o.othersWrite then (s, fs, s.sendErrorMessage o .accessViolation [])
  else
    let opened := s.outFile.openFile fs filename o.openOk
    let s := { s with outFile := opened.1 }
    (s, opened.2, s.sendAcknowledge o)

/-- The DATA branch behind the comparison of the block number. -/
def storeAndAcknowledge (s : TFTPSessionWrite) (fs : FileSystem) (o : Outcomes)
    (payload : Bytes) : TFTPSessionWrite × FileSystem × List Packet :=
  let stored := storePayload fs s.transferMode s.outFile payload
  let s := { s with outFile := stored.1 }
  if !o.sendOk then (s, stored.2, [])
  else if payload.length < 512 then
    ({ s with outFile := s.outFile.close, state := .finished }, stored.2, s.sendAcknowledge o)
  else (s, stored.2, s.sendAcknowledge o)

/-- The counter advances before the block number is compared with it. -/
def onDataReceived (s : TFTPSessionWrite) (fs : FileSystem) (o : Outcomes) (data : Buffer)
    (amount : ℕ) : Option (TFTPSessionWrite × FileSystem × List Packet) :=
  if data.word 0 = MessageType.wrq.code then
    let s := { s with state := .active }
    match data.request with
    | none => none
    | some .noFilename => some (s, fs, [])
    | some .invalidMode => some (s, fs, [])
    | some (.accepted filename mode) =>
      some (checkAndOpen { s with transferMode := mode } fs o filename)
  else if data.word 0 = MessageType.data.code then
    let s := { s with blockCounter := s.blockCounter + 1 }
    if data.word 2 ≠ s.blockCounter then some (s, fs, s.sendErrorMessage o .unknownTransferId [])
    else match data.slice 4 (sizeSub amount 4) with
      | none => none
      | some payload => some (s.storeAndAcknowledge fs o payload)
  else some (s, fs, [])

end TFTPSessionWrite

/-- The session objects behind `std::unique_ptr<TFTPSession>`. -/
inductive Session
  | read (s : TFTPSessionRead)
  | write (s : TFTPSessionWrite)
  deriving DecidableEq

namespace Session

def base : Session → TFTPSession
  | .read s => s.toTFTPSession
  | .write s => s.toTFTPSession

def getState (s : Session) : State := s.base.state

def onDataReceived (s : Session) (fs : FileSystem) (o : Outcomes) (data : Buffer) (amount : ℕ) :
    Option (Session × FileSystem × List Packet) :=
  match s with
  | .read s => (s.onDataReceived fs o data amount).map fun r => (.read r.1, fs, r.2)
  | .write s => (s.onDataReceived fs o data amount).map fun r => (.write r.1, r.2.1, r.2.2)

variable {fs : FileSystem} {o : Outcomes} {data : Buffer} {n : ℕ}

theorem onDataReceived_read {s : TFTPSessionRead} {r : TFTPSessionRead × List Packet}
    (h : s.onDataReceived fs o data n = some r) :
    (read s).onDataReceived fs o data n = some (read r.1, fs, r.2) := by
  rw [onDataReceived, h]
  rfl

theorem onDataReceived_write {s : TFTPSessionWrite}
    {r : TFTPSessionWrite × FileSystem × List Packet} (h : s.onDataReceived fs o data n = some r) :
    (write s).onDataReceived fs o data n = some (write r.1, r.2.1, r.2.2) := by
  rw [onDataReceived, h]
  rfl

end Session

/-- The server with the files of its host. -/
structure TFTPServer where
  sessions : Endpoint → Option Session
  recvBuffer : Buffer
  files : FileSystem

/-- The server after construction, on a host with the given files. -/
def TFTPServer.init (files : FileSystem) : TFTPServer where
  sessions _ := none
  recvBuffer := .blank
  files := files

inductive Completion
  | failed
  | received (remoteEndpoint : Endpoint) (d : Datagram) (o : Outcomes)

namespace TFTPServer

/-- Store the session under its endpoint and let it handle the datagram. -/
def dispatchNew (s : TFTPServer) (ep : Endpoint) (o : Outcomes) (n : ℕ) (session : Session) :
    Option (TFTPServer × List Packet) :=
  (session.onDataReceived s.files o s.recvBuffer n).map fun r =>
    ({ s with sessions := Function.update s.sessions ep (some r.1), files := r.2.1 }, r.2.2)

/-- Let the stored session handle the datagram and erase it once it is finished. -/
def dispatch (s : TFTPServer) (ep : Endpoint) (o : Outcomes) (n : ℕ) (session : Session) :
    Option (TFTPServer × List Packet) :=
  (session.onDataReceived s.files o s.recvBuffer n).map fun r =>
    ({ s with
        sessions := Function.update s.sessions ep
          (if r.1.getState = .finished then none else some r.1)
        files := r.2.1 }, r.2.2)

def sendErrorMessage (ep : Endpoint) (o : Outcomes) (code : ErrorCode) (text : Bytes) :
    List Packet :=
  if o.sendOk then [(ep, errorMessage code text)] else []

/-- The completion handler of `async_receive_from`. -/
def receive (s : TFTPServer) : Completion → Option (TFTPServer × List Packet)
  | .failed => some (s, [])
  | .received ep d o =>
    let s := { s with recvBuffer := s.recvBuffer.fill d }
    let n := min d.length bufferSize
    match s.sessions ep with
    | none =>
      if s.recvBuffer.word 0 = MessageType.rrq.code then
        s.dispatchNew ep o n (.read { ep := ep })
      else if s.recvBuffer.word 0 = MessageType.wrq.code then
        s.dispatchNew ep o n (.write { ep := ep })
      else some (s, sendErrorMessage ep o .illegalOperation [])
    | some session => s.dispatch ep o n session

variable {s : TFTPServer} {ep : Endpoint} {d : Datagram} {o : Outcomes}

/-- The datagram is received as a request of this type with an accepted name and mode. -/
def Requests (s : TFTPServer) (type : MessageType) (d : Datagram) (name : Bytes)
    (mode : TransferMode) : Prop :=
  (s.recvBuffer.fill d).word 0 = type.code ∧
    (s.recvBuffer.fill d).request = some (.accepted name mode)

theorem requests_requestMessage (s : TFTPServer) (type : MessageType) {name : Bytes}
    (mode : TransferMode) (h : ValidName name) :
    s.Requests type (requestMessage type name mode) name mode :=
  ⟨s.recvBuffer.word_zero_requestMessage type name mode,
    s.recvBuffer.request_requestMessage type mode h⟩

theorem receive_stored {session session' : Session} {fs : FileSystem} {sent : List Packet}
    (h : s.sessions ep = some session)
    (hgo : session.onDataReceived s.files o (s.recvBuffer.fill d) (min d.length bufferSize) =
      some (session', fs, sent)) :
    s.receive (.received ep d o) =
      some ({ sessions := Function.update s.sessions ep
                (if session'.getState = .finished then none else some session')
              recvBuffer := s.recvBuffer.fill d
              files := fs }, sent) := by
  simp [receive, h, dispatch, hgo]

/-- The session that a request of an endpoint without one creates. -/
def newSession (ep : Endpoint) (type : UInt16) : Option Session :=
  if type = MessageType.rrq.code then some (.read { ep := ep })
  else if type = MessageType.wrq.code then some (.write { ep := ep })
  else none

theorem receive_dispatchNew {session : Session} (h : s.sessions ep = none)
    (hnew : newSession ep ((s.recvBuffer.fill d).word 0) = some session) :
    s.receive (.received ep d o) =
      dispatchNew { s with recvBuffer := s.recvBuffer.fill d } ep o (min d.length bufferSize)
        session := by
  unfold newSession at hnew
  simp only [receive, h]
  split at hnew
  · rename_i hr
    obtain rfl := Option.some.inj hnew
    rw [if_pos hr]
  · rename_i hr
    split at hnew
    · rename_i hw
      obtain rfl := Option.some.inj hnew
      rw [if_neg hr, if_pos hw]
    · cases hnew

theorem receive_new {session session' : Session} {fs : FileSystem} {sent : List Packet}
    (h : s.sessions ep = none)
    (hnew : newSession ep ((s.recvBuffer.fill d).word 0) = some session)
    (hgo : session.onDataReceived s.files o (s.recvBuffer.fill d) (min d.length bufferSize) =
      some (session', fs, sent)) :
    s.receive (.received ep d o) =
      some ({ sessions := Function.update s.sessions ep (some session')
              recvBuffer := s.recvBuffer.fill d
              files := fs }, sent) := by
  rw [receive_dispatchNew h hnew, dispatchNew, hgo]
  rfl

theorem receive_new_fault {session : Session} (h : s.sessions ep = none)
    (hnew : newSession ep ((s.recvBuffer.fill d).word 0) = some session)
    (hgo : session.onDataReceived s.files o (s.recvBuffer.fill d) (min d.length bufferSize) =
      none) :
    s.receive (.received ep d o) = none := by
  rw [receive_dispatchNew h hnew, dispatchNew, hgo]
  rfl

theorem receive_illegal (h : s.sessions ep = none)
    (hnew : newSession ep ((s.recvBuffer.fill d).word 0) = none) :
    s.receive (.received ep d o) =
      some ({ s with recvBuffer := s.recvBuffer.fill d },
        sendErrorMessage ep o .illegalOperation []) := by
  unfold newSession at hnew
  split at hnew
  · cases hnew
  · rename_i hr
    split at hnew
    · cases hnew
    · rename_i hw
      simp [receive, h, hr, hw]

end TFTPServer

end Tftp
end NetworkProtocols
