import Mathlib.Algebra.GroupWithZero.Nat
import Mathlib.Data.Finset.Card
import Mathlib.Data.List.OfFn
import Mathlib.Logic.Function.Basic
import NetworkProtocols.Lib.Bytes

/-!
# The old Telnet server

`telnet_server::Server` with its sessions and the callbacks of its program. All reads go to one
buffer: between the read that fills it and its handler the read of another session may fill it.
The messages that the server sends by `sendMessageToClient` and `clearClientScreen` are left out,
since these functions do nothing.
-/

namespace NetworkProtocols
namespace TelnetServer

open Bytes

inductive AuthStatus
  | guest | authenticating | loggedIn
  deriving DecidableEq

structure Session where
  id : UInt32 := 0
  authStatus : AuthStatus := .guest
  receivedData : Bytes := []
  deriving DecidableEq

def Session.removeLastReceivedCharacter (session : Session) : Session :=
  { session with receivedData := session.receivedData.dropLast }

/-- What a callback does to the session that it is called with. -/
structure Reaction where
  authStatus : AuthStatus
  removes : Bool
  deriving DecidableEq

abbrev OnMessageReceivedCB := Session → Bytes → Reaction

def logIn : OnMessageReceivedCB := fun session message =>
  match session.authStatus with
  | .guest =>
    if message = chars "testuser" then { authStatus := .authenticating, removes := false }
    else { authStatus := .guest, removes := true }
  | .authenticating =>
    if message = chars "testpassword" then { authStatus := .loggedIn, removes := false }
    else { authStatus := .authenticating, removes := true }
  | .loggedIn => { authStatus := .loggedIn, removes := false }

def onMessageReceived : OnMessageReceivedCB := fun session message =>
  if session.authStatus ≠ .loggedIn then logIn session message
  else if message = chars "exit" ∨ message = chars "logout" then
    { authStatus := session.authStatus, removes := true }
  else { authStatus := session.authStatus, removes := false }

abbrev recvBufferSize : ℕ := 1024

instance : NeZero recvBufferSize := ⟨by decide⟩

/-- `std::array<char, RECV_BUFFER_SIZE>`. -/
abbrev RecvBuffer := Fin recvBufferSize → Byte

def RecvBuffer.fill (buffer : RecvBuffer) (data : Bytes) : RecvBuffer :=
  fun i => data[i.1]?.getD (buffer i)

def RecvBuffer.front (buffer : RecvBuffer) (sz : ℕ) : Bytes :=
  List.ofFn fun i : Fin (min sz recvBufferSize) => buffer ⟨i.1, by omega⟩

/-- A `char` as a number: it is signed on the targets of the build. -/
def charValue (b : Byte) : ℤ := if b < 0x80 then b.toNat else b.toNat - 256

/-- An asynchronous operation up to the end of its handler: a read, a read that filled the buffer
with some bytes, a write. -/
inductive Operation
  | read | arrived (sz : ℕ) | write (bytes : Bytes)
  deriving DecidableEq

/-- A session is known by its number among those that were made. `messages` are the calls of
`_onMessageReceived`, and `gone` are the sessions that were removed or whose connection failed. -/
structure Server where
  connections : ℕ := 0
  sessions : Finset ℕ := ∅
  session : ℕ → Session := fun _ => {}
  operations : ℕ → List Operation := fun _ => []
  recvBuffer : RecvBuffer := fun _ => 0
  messages : List (ℕ × Bytes) := []
  gone : Finset ℕ := ∅

namespace Server

def update (id : ℕ) (f : Session → Session) (s : Server) : Server :=
  { s with session := Function.update s.session id (f (s.session id)) }

def begin (id : ℕ) (operation : Operation) (s : Server) : Server :=
  { s with operations := Function.update s.operations id (s.operations id ++ [operation]) }

def finish (id : ℕ) (operation : Operation) (s : Server) : Server :=
  { s with operations := Function.update s.operations id ((s.operations id).erase operation) }

/-- The operations of the socket are cancelled: their handlers get an error. -/
def removeClient (id : ℕ) (s : Server) : Server :=
  { s with sessions := s.sessions.erase id, gone := insert id s.gone }

def sendBytesToClient (id : ℕ) (bytes : Bytes) (s : Server) : Server := s.begin id (.write bytes)

def receiveAsync (id : ℕ) (s : Server) : Server := s.begin id .read

/-- Do echo, do remote flow control, will echo, will suppress go ahead. -/
def greeting : Bytes :=
  [0xFF, 0xFD, 0x01, 0xFF, 0xFD, 0x21, 0xFF, 0xFB, 0x01, 0xFF, 0xFB, 0x03]

/-- The id of the new session is made from the number of those in the set. -/
def handleConnection (s : Server) : Server :=
  let id := s.connections
  { s with
    connections := s.connections + 1
    sessions := insert id s.sessions
    session := Function.update s.session id
      { id := UInt32.ofNat (s.sessions.card + 1) } }.sendBytesToClient id greeting

/-- The call of `_onMessageReceived`. -/
def onMessage (onMessageReceived : OnMessageReceivedCB) (id : ℕ) (message : Bytes) (s : Server) :
    Server :=
  let reaction := onMessageReceived (s.session id) message
  let s := { s with messages := s.messages ++ [(id, message)] }.update id
    fun session => { session with authStatus := reaction.authStatus }
  if reaction.removes then s.removeClient id else s

/-- A dot and a carriage return on an empty line, or a carriage return and a line feed. The
second byte is one of an earlier read when only one was read. -/
def endsMessage (buffer : RecvBuffer) (receivedData : Bytes) : Bool :=
  (buffer 0 == 0x2E && buffer 1 == 0x0D && receivedData.isEmpty) ||
    (buffer 0 == 0x0D && buffer 1 == 0x0A)

/-- The handler of a read. -/
def received (onMessageReceived : OnMessageReceivedCB) (id sz : ℕ) (s : Server) : Server :=
  if sz = 0 then s.removeClient id
  else if charValue (s.recvBuffer 0) < 0xF0 then
    let receivedData := (s.session id).receivedData
    if endsMessage s.recvBuffer receivedData then
      (s.onMessage onMessageReceived id (receivedData ++ s.recvBuffer.front sz)).update id
        fun session => { session with receivedData := [] }
    else if s.recvBuffer 0 = 0x08 then
      if receivedData = [] then s.receiveAsync id
      else (s.update id Session.removeLastReceivedCharacter).sendBytesToClient id [0x08, 0x20, 0x08]
    else if s.recvBuffer 0 = 0x7F then s.receiveAsync id
    else
      let s := s.update id fun session =>
        { session with receivedData := session.receivedData ++ s.recvBuffer.front sz }
      let echo : Bytes :=
        if (s.session id).authStatus ≠ .authenticating then [s.recvBuffer 0] else chars "*"
      (s.sendBytesToClient id echo).receiveAsync id
  else s.receiveAsync id

end Server

section Fields

open Server

variable {onMessageReceived : OnMessageReceivedCB} {s : Server} {id other : ℕ}

theorem update_session (f : Session → Session) : (s.update id f).session id = f (s.session id) :=
  Function.update_self ..

theorem update_others (f : Session → Session) (hne : other ≠ id) :
    (s.update id f).session other = s.session other := Function.update_of_ne hne _ _

@[simp] theorem begin_operations (operation : Operation) :
    (s.begin id operation).operations id = s.operations id ++ [operation] :=
  Function.update_self ..

@[simp] theorem begin_session (operation : Operation) :
    (s.begin id operation).session = s.session := rfl

theorem begin_others (operation : Operation) (hne : other ≠ id) :
    (s.begin id operation).operations other = s.operations other := Function.update_of_ne hne _ _

@[simp] theorem finish_operations (operation : Operation) :
    (s.finish id operation).operations id = (s.operations id).erase operation :=
  Function.update_self ..

theorem finish_others (operation : Operation) (hne : other ≠ id) :
    (s.finish id operation).operations other = s.operations other := Function.update_of_ne hne _ _

theorem handleConnection_new : s.handleConnection.session s.connections =
    { id := UInt32.ofNat (s.sessions.card + 1) } := Function.update_self ..

theorem handleConnection_others (hne : other ≠ s.connections) :
    s.handleConnection.session other = s.session other := Function.update_of_ne hne _ _

@[simp] theorem onMessage_messages (message : Bytes) :
    (s.onMessage onMessageReceived id message).messages = s.messages ++ [(id, message)] := by
  unfold onMessage
  dsimp only
  split <;> rfl

theorem onMessage_session (message : Bytes) :
    (s.onMessage onMessageReceived id message).session id =
      { s.session id with
        authStatus := (onMessageReceived (s.session id) message).authStatus } := by
  unfold onMessage
  dsimp only
  split <;> exact Function.update_self ..

theorem onMessage_others (message : Bytes) (hne : other ≠ id) :
    (s.onMessage onMessageReceived id message).session other = s.session other := by
  unfold onMessage
  dsimp only
  split <;> exact Function.update_of_ne hne _ _

theorem onMessage_sessions (message : Bytes) :
    (s.onMessage onMessageReceived id message).sessions =
      if (onMessageReceived (s.session id) message).removes then s.sessions.erase id
      else s.sessions := by
  unfold onMessage
  dsimp only
  split <;> rfl

theorem onMessage_operations (message : Bytes) :
    (s.onMessage onMessageReceived id message).operations = s.operations := by
  unfold onMessage
  dsimp only
  split <;> rfl

theorem onMessage_recvBuffer (message : Bytes) :
    (s.onMessage onMessageReceived id message).recvBuffer = s.recvBuffer := by
  unfold onMessage
  dsimp only
  split <;> rfl

theorem charValue_lt (b : Byte) : charValue b < 0xF0 := by
  have hb := b.toNat_lt
  unfold charValue
  split
  · rename_i hlow
    rw [UInt8.lt_iff_toNat_lt] at hlow
    have hmax : (0x80 : Byte).toNat = 128 := rfl
    omega
  · omega

/-- The branches of the handler of a read. -/
inductive Received (onMessageReceived : OnMessageReceivedCB) (s : Server) (id sz : ℕ) :
    Server → Prop
  | closed : sz = 0 → Received onMessageReceived s id sz (s.removeClient id)
  | command : sz ≠ 0 → ¬ charValue (s.recvBuffer 0) < 0xF0 →
      Received onMessageReceived s id sz (s.receiveAsync id)
  | message : sz ≠ 0 → charValue (s.recvBuffer 0) < 0xF0 →
      endsMessage s.recvBuffer (s.session id).receivedData = true →
      Received onMessageReceived s id sz
        ((s.onMessage onMessageReceived id
          ((s.session id).receivedData ++ s.recvBuffer.front sz)).update id
            fun session => { session with receivedData := [] })
  | backspaceEmpty : sz ≠ 0 → charValue (s.recvBuffer 0) < 0xF0 →
      endsMessage s.recvBuffer (s.session id).receivedData = false → s.recvBuffer 0 = 0x08 →
      (s.session id).receivedData = [] → Received onMessageReceived s id sz (s.receiveAsync id)
  | backspace : sz ≠ 0 → charValue (s.recvBuffer 0) < 0xF0 →
      endsMessage s.recvBuffer (s.session id).receivedData = false → s.recvBuffer 0 = 0x08 →
      (s.session id).receivedData ≠ [] → Received onMessageReceived s id sz
        ((s.update id Session.removeLastReceivedCharacter).sendBytesToClient id [0x08, 0x20, 0x08])
  | delete : sz ≠ 0 → charValue (s.recvBuffer 0) < 0xF0 →
      endsMessage s.recvBuffer (s.session id).receivedData = false → s.recvBuffer 0 = 0x7F →
      Received onMessageReceived s id sz (s.receiveAsync id)
  | text : sz ≠ 0 → charValue (s.recvBuffer 0) < 0xF0 →
      endsMessage s.recvBuffer (s.session id).receivedData = false → s.recvBuffer 0 ≠ 0x08 →
      s.recvBuffer 0 ≠ 0x7F → Received onMessageReceived s id sz
        (((s.update id fun session =>
          { session with receivedData := session.receivedData ++ s.recvBuffer.front sz
          }).sendBytesToClient id
            (if (s.session id).authStatus ≠ .authenticating then [s.recvBuffer 0]
            else chars "*")).receiveAsync id)

theorem received_cases (onMessageReceived : OnMessageReceivedCB) (s : Server) (id sz : ℕ) :
    Received onMessageReceived s id sz (s.received onMessageReceived id sz) := by
  unfold Server.received
  by_cases hsz : sz = 0
  · rw [if_pos hsz]
    exact .closed hsz
  rw [if_neg hsz]
  by_cases hchar : charValue (s.recvBuffer 0) < 0xF0
  · rw [if_pos hchar]
    dsimp only
    cases hends : endsMessage s.recvBuffer (s.session id).receivedData with
    | true => exact .message hsz hchar hends
    | false =>
      rw [if_neg Bool.false_ne_true]
      by_cases hback : s.recvBuffer 0 = 0x08
      · rw [if_pos hback]
        by_cases hempty : (s.session id).receivedData = []
        · rw [if_pos hempty]
          exact .backspaceEmpty hsz hchar hends hback hempty
        · rw [if_neg hempty]
          exact .backspace hsz hchar hends hback hempty
      rw [if_neg hback]
      by_cases hdelete : s.recvBuffer 0 = 0x7F
      · rw [if_pos hdelete]
        exact .delete hsz hchar hends hdelete
      · rw [if_neg hdelete, update_session]
        exact .text hsz hchar hends hback hdelete
  · rw [if_neg hchar]
    exact .command hsz hchar

end Fields

inductive Event
  | connected
  | written (id : ℕ) | writeFailed (id : ℕ)
  | arrived (id : ℕ) (data : Bytes) | received (id sz : ℕ) | readFailed (id : ℕ)
  | removed (id : ℕ)
  deriving DecidableEq

open Server

/-- A read fills the buffer, a handler runs, or a session is removed by the program. -/
inductive Step (onMessageReceived : OnMessageReceivedCB) : Server → Event → Server → Prop
  | connected {s} : Step onMessageReceived s .connected s.handleConnection
  | written {s id bytes} : .write bytes ∈ s.operations id →
      Step onMessageReceived s (.written id) ((s.finish id (.write bytes)).receiveAsync id)
  | writeFailed {s id bytes} : .write bytes ∈ s.operations id →
      Step onMessageReceived s (.writeFailed id)
        { s.finish id (.write bytes) with gone := insert id s.gone }
  | arrived {s id data} : .read ∈ s.operations id → data.length ≤ recvBufferSize →
      Step onMessageReceived s (.arrived id data)
        { (s.finish id .read).begin id (.arrived data.length) with
          recvBuffer := s.recvBuffer.fill data }
  | received {s id sz} : .arrived sz ∈ s.operations id →
      Step onMessageReceived s (.received id sz)
        ((s.finish id (.arrived sz)).received onMessageReceived id sz)
  | readFailed {s id} : .read ∈ s.operations id →
      Step onMessageReceived s (.readFailed id)
        { s.finish id .read with gone := insert id s.gone }
  | removed {s id} : id < s.connections →
      Step onMessageReceived s (.removed id) (s.removeClient id)

end TelnetServer
end NetworkProtocols
