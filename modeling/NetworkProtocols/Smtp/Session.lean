import NetworkProtocols.Lib.Disk

/-!
# The SMTP session

`SMTPSession` with its command scanner and its handlers. A handler returns the session, the
disk and the asynchronous operations it starts. The texts behind the reply codes are left
out.
-/

namespace NetworkProtocols
namespace Smtp

open Bytes

def commandBufferSize : ℕ := 512
def recvBufferSize : ℕ := 512
def maxRcptAllowed : ℕ := 100

def atSign : Byte := 64
def less : Byte := 60
def greater : Byte := 62

inductive Command
  | undefined | helo | mailFrom | rcptTo | data | rset | vrfy | noop | quit
  deriving DecidableEq, Repr

/-- `std::array<char, RECV_BUFFER_SIZE>`. -/
structure Buffer where
  bytes : Bytes
  size : bytes.length = recvBufferSize

def Buffer.full (b : Byte) : Buffer := ⟨List.replicate recvBufferSize b, List.length_replicate⟩

/-- A read overwrites the first bytes and leaves the others as they were. -/
def Buffer.fill (b : Buffer) (received : Bytes) : Buffer where
  bytes := received.take recvBufferSize ++ b.bytes.drop received.length
  size := by
    have hb := b.size
    rw [List.length_append, List.length_take, List.length_drop]
    omega

abbrev Recipient := Bytes × Bytes

structure SMTPSession where
  id : UInt32
  recvBuffer : Buffer
  recvLength : ℕ := 0
  receiveMessage : Bool := false
  returnAddress : Bytes := []
  recipients : Vector Recipient maxRcptAllowed := Vector.replicate maxRcptAllowed ([], [])
  rcptCount : UInt8 := 0
  lastCommand : Command := .undefined
  messagePath : Bytes := []
  messageOut : OfStream := {}
  unknownRecipients : List Bytes := []

def mailboxesRoot : Bytes := chars "./mailboxes"
def messagesRoot : Bytes := chars "./messages"

inductive Operation
  | receive
  | send (responseCode : UInt16)
  deriving DecidableEq

def sendResponse (responseCode : UInt16) : List Operation := [.send responseCode]

abbrev Outcome := SMTPSession × Disk × List Operation

def isBlank (b : Byte) : Bool := b == space || b == CR || b == LF

/-- The loop over `p` and `i`: the next blank from position `i`, if not the end. -/
def nextBlank (buffer : Bytes) (i : ℕ) : ℕ :=
  i + ((buffer.drop i).take (commandBufferSize - i)).findIdx isBlank

/-- `!std::strncmp(s, t, n)` for strings that end with a NUL or have `n` characters. -/
def strncmpEqual : ℕ → Bytes → Bytes → Bool
  | n+1, a :: s, b :: t => a == b && (a == 0 || strncmpEqual n s t)
  | _, _, _ => true

def literal (s : String) : Bytes := chars s ++ [0]

/-- What `processCommand` does with a command: the handler it calls, or its own reply. -/
inductive Handler
  | helo | data | rset | vrfy | noop | quit | mailFrom | rcptTo
  | reply (responseCode : UInt16)
  deriving DecidableEq

/-- The second search starts at the blank that the first one found. -/
def dispatch (buffer : Bytes) : Handler :=
  let i := nextBlank buffer 0
  if i = commandBufferSize then .reply 500
  else if buffer.getD i 0 = space then
    let i := nextBlank buffer i
    if i = commandBufferSize then .reply 500
    else if buffer.getD i 0 = space then
      if strncmpEqual i buffer (literal "MAIL FROM") then .mailFrom
      else if strncmpEqual i buffer (literal "RCPT TO") then .rcptTo
      else .reply 502
    else .reply 500
  else if i ≠ 4 then .reply 500
  else if strncmpEqual i buffer (literal "HELO") then .helo
  else if strncmpEqual i buffer (literal "DATA") then .data
  else if strncmpEqual i buffer (literal "RSET") then .rset
  else if strncmpEqual i buffer (literal "VRFY") then .vrfy
  else if strncmpEqual i buffer (literal "NOOP") then .noop
  else if strncmpEqual i buffer (literal "QUIT") then .quit
  else .reply 502

namespace SMTPSession

variable (r : Refusals)

/-- The buffer and the byte behind it, which is the low byte of `_recvLength`. -/
def memory (s : SMTPSession) : Bytes := s.recvBuffer.bytes ++ [UInt8.ofNat s.recvLength]

/-- The second loop counts on from the position of the bracket, one behind its pointer. -/
def getAddress (s : SMTPSession) : Bytes :=
  let i := (s.memory.take commandBufferSize).findIdx fun b => b == less || b == CR || b == LF
  if i = commandBufferSize ∨ s.memory.getD i 0 ≠ less then []
  else
    let addrBegin := i + 1
    let n := ((s.memory.drop addrBegin).take (commandBufferSize - i)).findIdx
      fun b => b == greater || b == CR || b == LF
    if i + n = commandBufferSize ∨ s.memory.getD (addrBegin + n) 0 ≠ greater then []
    else (s.memory.drop addrBegin).take n

/-- The name `message-<id>.eml`, the number padded to five digits. -/
def messageName (id : UInt32) : Bytes :=
  chars "message-" ++ (((Nat.toDigits 10 id.toNat).leftpad 5 '0').map
    fun c => UInt8.ofNat c.toNat) ++ chars ".eml"

/-- The path that `createMessage` opens. -/
def newMessagePath (id : UInt32) : Bytes := PathName.append messagesRoot (messageName id)

def createMessage (s : SMTPSession) (d : Disk) : Bool × SMTPSession × Disk :=
  let path := newMessagePath s.id
  let (out, d) := d.openFile r s.messageOut path
  if out.fail then (false, { s with messageOut := out, messagePath := [] }, d)
  else (true, { s with messageOut := out, messagePath := path }, d)

def deleteMessage (s : SMTPSession) (d : Disk) : SMTPSession × Disk :=
  ({ s with messageOut := s.messageOut.close }, d.remove r s.messagePath)

/-- One turn of the loop of `deliverMessage`. An exception of `exists` is caught, and the
error code of `copy` is only reported. -/
def deliverTo (messagePath : Bytes) (recipient : Recipient) (unknown : List Bytes) (d : Disk) :
    List Bytes × Disk :=
  if r.status recipient.2 then (unknown, d)
  else if d.present recipient.2 then (unknown, d.copy r messagePath recipient.2)
  else (unknown ++ [recipient.1], d)

/-- The entries of `_recipients` that are in use. -/
def accepted (s : SMTPSession) : List Recipient := s.recipients.toList.take s.rcptCount.toNat

def deliverMessage (s : SMTPSession) (d : Disk) : SMTPSession × Disk :=
  let (unknown, d) := s.accepted.foldl
    (fun done recipient => deliverTo r s.messagePath recipient done.1 done.2) ([], d)
  ({ s with unknownRecipients := unknown }, d)

def processHelo (s : SMTPSession) (d : Disk) : Outcome :=
  let s := { s with rcptCount := 0, returnAddress := [] }
  match createMessage r s d with
  | (false, s, d) => (s, d, sendResponse 451)
  | (true, s, d) => ({ s with lastCommand := .helo }, d, sendResponse 250)

/-- A second DATA starts nothing. -/
def processData (s : SMTPSession) (d : Disk) : Outcome :=
  if s.lastCommand ≠ .data then
    ({ s with receiveMessage := true, lastCommand := .data }, d, sendResponse 354)
  else (s, d, [])

def processRset (s : SMTPSession) (d : Disk) : Outcome :=
  let s := { s with rcptCount := 0, returnAddress := [], receiveMessage := false }
  let (s, d) := deleteMessage r s d
  ({ s with lastCommand := .rset }, d, sendResponse 250)

def processVrfy (s : SMTPSession) (d : Disk) : Outcome := (s, d, [])
def processNoop (s : SMTPSession) (d : Disk) : Outcome := (s, d, sendResponse 250)
def processQuit (s : SMTPSession) (d : Disk) : Outcome := (s, d, sendResponse 221)

def processMailFrom (s : SMTPSession) (d : Disk) : Outcome :=
  if s.lastCommand ≠ .helo ∧ s.lastCommand ≠ .rset then (s, d, sendResponse 503)
  else
    let address := s.getAddress
    if address = [] then (s, d, sendResponse 501)
    else ({ s with returnAddress := address, lastCommand := .mailFrom }, d, sendResponse 250)

/-- The parts of an address before and behind the first `@`, if there is one. -/
def splitAddress (address : Bytes) : Option (Bytes × Bytes) :=
  let p := address.findIdx (· == atSign)
  if p = address.length then none else some (address.take p, address.drop (p + 1))

/-- The paths that `processRcptTo` makes out of the parts of an address. -/
def domainPath (domain : Bytes) : Bytes := PathName.append mailboxesRoot domain
def mboxPath (user domain : Bytes) : Bytes := PathName.append (domainPath domain) user

/-- The directory of the domain is looked up twice, that of the user never. -/
def processRcptTo (s : SMTPSession) (d : Disk) : Outcome :=
  if s.lastCommand ≠ .mailFrom then (s, d, sendResponse 501)
  else if maxRcptAllowed ≤ s.rcptCount.toNat then (s, d, sendResponse 523)
  else
    let address := s.getAddress
    if address = [] then (s, d, sendResponse 501)
    else match splitAddress address with
      | none => (s, d, sendResponse 501)
      | some (user, domain) =>
        if r.status (domainPath domain) then (s, d, sendResponse 451)
        else if !d.present (domainPath domain) || !d.hasDirectory (domainPath domain) then
          (s, d, sendResponse 551)
        else if !d.present (domainPath domain) || !d.hasDirectory (domainPath domain) then
          (s, d, sendResponse 550)
        else
          ({ s with
            recipients := s.recipients.setIfInBounds s.rcptCount.toNat
              (address, mboxPath user domain)
            rcptCount := s.rcptCount + 1 }, d, sendResponse 250)

def processCommand (s : SMTPSession) (d : Disk) : Outcome :=
  match dispatch s.recvBuffer.bytes with
  | .helo => s.processHelo r d
  | .data => s.processData d
  | .rset => s.processRset r d
  | .vrfy => s.processVrfy d
  | .noop => s.processNoop d
  | .quit => s.processQuit d
  | .mailFrom => s.processMailFrom d
  | .rcptTo => s.processRcptTo r d
  | .reply responseCode => (s, d, sendResponse responseCode)

/-- The terminator is known by its length and the first bytes of the buffer. -/
def processMessage (s : SMTPSession) (d : Disk) : Outcome :=
  if s.recvLength = 3 ∧ strncmpEqual 3 s.recvBuffer.bytes (literal ".\r\n") then
    let s := { s with messageOut := s.messageOut.close }
    let (s, d) := deliverMessage r s d
    let (s, d) := deleteMessage r s d
    (s, d, sendResponse 250)
  else
    let (out, d) := d.writeOut r s.messageOut (s.recvBuffer.bytes.take s.recvLength)
    ({ s with messageOut := out }, d, [.receive])

theorem slash_notMem_messageName (id : UInt32) : PathName.slash ∉ messageName id := by
  have hfront : PathName.slash ∉ chars "message-" := by decide
  have hsuffix : PathName.slash ∉ chars ".eml" := by decide
  have hdigits : PathName.slash ∉ ((Nat.toDigits 10 id.toNat).leftpad 5 '0').map
      fun c => UInt8.ofNat c.toNat := by
    intro hmem
    obtain ⟨c, hc, heq⟩ := List.mem_map.mp hmem
    have hdigit : c.isDigit = true := by
      rw [List.leftpad, List.mem_append, List.mem_replicate] at hc
      rcases hc with ⟨-, rfl⟩ | hc
      · decide
      · exact Nat.isDigit_of_mem_toDigits (by decide) (by decide) hc
    have hnat := congrArg UInt8.toNat heq
    simp only [Char.isDigit, Bool.and_eq_true, decide_eq_true_eq] at hdigit
    have hlow : 48 ≤ c.toNat := hdigit.1
    have hhigh : c.toNat ≤ 57 := hdigit.2
    rw [UInt8.toNat_ofNat', show PathName.slash.toNat = 47 from rfl] at hnat
    omega
  simp only [messageName, List.mem_append, not_or]
  exact ⟨⟨hfront, hdigits⟩, hsuffix⟩

theorem newMessagePath_eq (id : UInt32) :
    newMessagePath id = messagesRoot ++ PathName.slash :: messageName id := by
  have hne : messageName id ≠ [] := by simp [messageName, chars]
  have hhead : (messageName id).head? ≠ some PathName.slash := by
    intro h
    exact slash_notMem_messageName id (List.mem_of_head? h)
  rw [newMessagePath, PathName.append, if_neg]
  rintro (h | h | h | h)
  · exact absurd h (by decide)
  · exact absurd h (by decide)
  · exact hne h
  · exact hhead h

theorem newMessagePath_ne_nil (id : UInt32) : newMessagePath id ≠ [] := by
  rw [newMessagePath_eq]
  simp

theorem filename_newMessagePath (id : UInt32) :
    PathName.filename (newMessagePath id) = messageName id := by
  rw [newMessagePath_eq, PathName.filename_append (slash_notMem_messageName id)]

section MessageFile

variable {r : Refusals} {s : SMTPSession} {d : Disk}

theorem createMessage_opened (hs : s.messageOut.file = none)
    (hopen : d.openable (newMessagePath s.id) = true)
    (hr : r.opening (newMessagePath s.id) = false) :
    createMessage r s d = (true, { s with
        messageOut := { file := some (d.files.denotes (newMessagePath s.id)) }
        messagePath := newMessagePath s.id },
      (d.openFile r s.messageOut (newMessagePath s.id)).2) := by
  simp only [createMessage, (Disk.openFile_granted hs hopen hr).1]
  rfl

theorem createMessage_refused (h : s.messageOut.file.isSome = true ∨
      d.openable (newMessagePath s.id) = false ∨ r.opening (newMessagePath s.id) = true) :
    createMessage r s d = (false, { s with
      messageOut := { s.messageOut with fail := true }
      messagePath := [] }, d) := by
  simp only [createMessage, Disk.openFile_refused h]
  rfl

theorem processHelo_opened (hs : s.messageOut.file = none)
    (hopen : d.openable (newMessagePath s.id) = true)
    (hr : r.opening (newMessagePath s.id) = false) :
    processHelo r s d = ({ s with
        returnAddress := []
        rcptCount := 0
        lastCommand := .helo
        messageOut := { file := some (d.files.denotes (newMessagePath s.id)) }
        messagePath := newMessagePath s.id },
      (d.openFile r s.messageOut (newMessagePath s.id)).2, sendResponse 250) := by
  rw [processHelo, createMessage_opened (s := { s with rcptCount := 0, returnAddress := [] })
    hs hopen hr]

theorem processHelo_refused (h : s.messageOut.file.isSome = true ∨
      d.openable (newMessagePath s.id) = false ∨ r.opening (newMessagePath s.id) = true) :
    processHelo r s d = ({ s with
        returnAddress := []
        rcptCount := 0
        messageOut := { s.messageOut with fail := true }
        messagePath := [] }, d, sendResponse 451) := by
  rw [processHelo, createMessage_refused (s := { s with rcptCount := 0, returnAddress := [] }) h]

end MessageFile

section Envelope

variable (r : Refusals) (s : SMTPSession) (d : Disk)

theorem processMailFrom_cases :
    (∃ code, code ≠ 250 ∧ s.processMailFrom d = (s, d, sendResponse code)) ∨
    ((s.lastCommand = .helo ∨ s.lastCommand = .rset) ∧ s.getAddress ≠ [] ∧
      s.processMailFrom d = ({ s with returnAddress := s.getAddress, lastCommand := .mailFrom }, d,
        sendResponse 250)) := by
  unfold processMailFrom
  split
  · exact .inl ⟨503, by decide, rfl⟩
  · rename_i hlast
    dsimp only
    split
    · exact .inl ⟨501, by decide, rfl⟩
    · rename_i haddress
      refine .inr ⟨?_, haddress, rfl⟩
      rw [not_and_or, not_not, not_not] at hlast
      exact hlast

/-- A command that is not answered with 250 changes nothing; an accepted one stores the
address with the path of its mailbox. -/
theorem processRcptTo_cases :
    (∃ code, code ≠ 250 ∧ s.processRcptTo r d = (s, d, sendResponse code)) ∨
    (s.lastCommand = .mailFrom ∧ s.rcptCount.toNat < maxRcptAllowed ∧ s.getAddress ≠ [] ∧
      ∃ user domain, splitAddress s.getAddress = some (user, domain) ∧
        d.hasDirectory (domainPath domain) = true ∧
        s.processRcptTo r d = ({ s with
          recipients := s.recipients.setIfInBounds s.rcptCount.toNat
            (s.getAddress, mboxPath user domain)
          rcptCount := s.rcptCount + 1 }, d, sendResponse 250)) := by
  unfold processRcptTo
  split
  · exact .inl ⟨501, by decide, rfl⟩
  · rename_i hlast
    split
    · exact .inl ⟨523, by decide, rfl⟩
    · rename_i hcount
      dsimp only
      split
      · exact .inl ⟨501, by decide, rfl⟩
      · rename_i haddress
        cases hsplit : splitAddress s.getAddress with
        | none => exact .inl ⟨501, by decide, rfl⟩
        | some parts =>
          obtain ⟨user, domain⟩ := parts
          dsimp only
          split
          · exact .inl ⟨451, by decide, rfl⟩
          · split
            · exact .inl ⟨551, by decide, rfl⟩
            · rename_i hdomain
              have hboth : d.present (domainPath domain) = true ∧
                  d.hasDirectory (domainPath domain) = true := by simpa using hdomain
              exact .inr ⟨not_not.mp hlast, Nat.not_le.mp hcount, haddress, user, domain, rfl,
                hboth.2, rfl⟩

end Envelope

theorem accepted_store {s : SMTPSession} (recipient : Recipient)
    (h : s.rcptCount.toNat < maxRcptAllowed) :
    accepted { s with
        recipients := s.recipients.setIfInBounds s.rcptCount.toNat recipient
        rcptCount := s.rcptCount + 1 } = s.accepted ++ [recipient] := by
  have hcount : (s.rcptCount + 1).toNat = s.rcptCount.toNat + 1 := by
    unfold maxRcptAllowed at h
    rw [UInt8.toNat_add, show (1 : UInt8).toNat = 1 from rfl]
    omega
  have hlen : s.rcptCount.toNat < s.recipients.toList.length := by
    rwa [Vector.length_toList]
  simp only [accepted, hcount, Vector.toList_setIfInBounds]
  rw [List.take_succ_eq_append_getElem (by rwa [List.length_set]),
    List.take_set_of_le (Nat.le_refl _), List.getElem_set_self]

end SMTPSession

end Smtp
end NetworkProtocols
