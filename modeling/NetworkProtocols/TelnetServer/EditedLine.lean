import NetworkProtocols.TelnetServer.Server

/-!
# The line that is typed

A client types a line key by key, and the server keeps the text as it is edited. The read that
ends the line is appended to it, so that no message is the text alone, and no name is one that
the login knows.
-/

namespace NetworkProtocols
namespace TelnetServer

open Bytes Server

def backspace : Byte := 0x08
def lineEnd : Bytes := [0x0D, 0x0A]

/-- A printable character or a backspace. -/
def isKey (b : Byte) : Bool := b == backspace || (0x20 ≤ b && b ≤ 0x7E)

def press (text : Bytes) (b : Byte) : Bytes := if b = backspace then text.dropLast else text ++ [b]

def edit (keys : Bytes) : Bytes := keys.foldl press []

def NoLeadingDot : Bytes → Bytes → Prop
  | _, [] => True
  | text, b :: keys => (text = [] → b ≠ 0x2E) ∧ NoLeadingDot (press text b) keys

def lineReads (keys : Bytes) : List Bytes := keys.map ([·]) ++ [lineEnd]

namespace Server

def read (onMessageReceived : OnMessageReceivedCB) (id : ℕ) (s : Server) (data : Bytes) : Server :=
  { s with recvBuffer := s.recvBuffer.fill data }.received onMessageReceived id data.length

def reads (onMessageReceived : OnMessageReceivedCB) (id : ℕ) (s : Server) (data : List Bytes) :
    Server :=
  data.foldl (read onMessageReceived id) s

end Server

/-- The message of a line is its text, and nothing is left of it. -/
def Delivers (onMessageReceived : OnMessageReceivedCB) (id : ℕ) (s : Server) (keys : Bytes) :
    Prop :=
  let t := s.reads onMessageReceived id (lineReads keys)
  t.messages = s.messages ++ [(id, edit keys)] ∧ (t.session id).receivedData = []

section Reads

variable {onMessageReceived : OnMessageReceivedCB} {s : Server} {id : ℕ} {b : Byte}

theorem front_fill (buffer : RecvBuffer) {data : Bytes} (h : data.length ≤ recvBufferSize) :
    (buffer.fill data).front data.length = data := by
  refine List.ext_getElem ?_ fun i hi hdata => ?_
  · rw [RecvBuffer.front, List.length_ofFn, Nat.min_eq_left h]
  · simp [RecvBuffer.front, RecvBuffer.fill, hdata]

theorem isKey_ne (hkey : isKey b = true) : b ≠ 0x0D ∧ b ≠ 0x7F := by
  constructor
  · rintro rfl
    exact absurd hkey (by decide)
  · rintro rfl
    exact absurd hkey (by decide)

/-- A key is a message when it is a dot on an empty line; any other is taken into the text. -/
theorem read_key_cases (hkey : isKey b = true) :
    (b = 0x2E ∧ (s.session id).receivedData = [] ∧ s.read onMessageReceived id [b] =
      ({ s with recvBuffer := s.recvBuffer.fill [b] }.onMessage onMessageReceived id [b]).update id
        fun session => { session with receivedData := [] }) ∨
    (s.read onMessageReceived id [b]).messages = s.messages ∧
      (s.read onMessageReceived id [b]).session id =
        { s.session id with receivedData := press (s.session id).receivedData b } := by
  obtain ⟨hreturn, hdelete⟩ := isKey_ne hkey
  have hfirst : s.recvBuffer.fill [b] 0 = b := rfl
  have hfront : (s.recvBuffer.fill [b]).front [b].length = [b] :=
    front_fill s.recvBuffer (show 1 ≤ recvBufferSize by decide)
  have hcases := received_cases onMessageReceived
    { s with recvBuffer := s.recvBuffer.fill [b] } id [b].length
  unfold Server.read
  generalize Server.received .. = t at hcases ⊢
  cases hcases with
  | closed hsz => exact absurd hsz (by simp)
  | command _ hchar => exact absurd (charValue_lt _) hchar
  | message _ _ hends =>
    have hdot : (b = 0x2E ∧ s.recvBuffer.fill [b] 1 = 0x0D) ∧ (s.session id).receivedData = [] := by
      simpa [endsMessage, hfirst, hreturn] using hends
    left
    dsimp only
    rw [hfront, hdot.2]
    exact ⟨hdot.1.1, rfl, rfl⟩
  | backspaceEmpty _ _ _ hback hempty =>
    have hempty : (s.session id).receivedData = [] := hempty
    right
    rw [press, if_pos (show b = backspace from hback), hempty, List.dropLast_nil, ← hempty]
    exact ⟨rfl, rfl⟩
  | backspace _ _ _ hback _ =>
    right
    rw [press, if_pos (show b = backspace from hback)]
    exact ⟨rfl, update_session _⟩
  | delete _ _ _ hdel => exact absurd hdel hdelete
  | text _ _ _ hback _ =>
    right
    rw [press, if_neg (show b ≠ backspace from hback)]
    refine ⟨rfl, ?_⟩
    rw [receiveAsync, begin_session, sendBytesToClient, begin_session, update_session]
    dsimp only
    rw [hfront]

/-- The end of a line is a message with the text in front of it. -/
theorem read_lineEnd_eq : s.read onMessageReceived id lineEnd =
    ({ s with recvBuffer := s.recvBuffer.fill lineEnd }.onMessage onMessageReceived id
      ((s.session id).receivedData ++ lineEnd)).update id
        fun session => { session with receivedData := [] } := by
  have hfront : (s.recvBuffer.fill lineEnd).front lineEnd.length = lineEnd :=
    front_fill s.recvBuffer (show 2 ≤ recvBufferSize by decide)
  have hends : endsMessage (s.recvBuffer.fill lineEnd) (s.session id).receivedData = true := by
    rw [endsMessage, Bool.or_eq_true]
    exact .inr rfl
  have hnot : endsMessage (s.recvBuffer.fill lineEnd) (s.session id).receivedData ≠ false := by
    rw [hends]
    decide
  have hcases := received_cases onMessageReceived
    { s with recvBuffer := s.recvBuffer.fill lineEnd } id lineEnd.length
  unfold Server.read
  generalize Server.received .. = t at hcases ⊢
  cases hcases with
  | closed hsz => exact absurd hsz (by decide)
  | command _ hchar => exact absurd (charValue_lt _) hchar
  | message _ _ _ =>
    dsimp only
    rw [hfront]
  | backspaceEmpty _ _ hinside _ _ => exact absurd hinside hnot
  | backspace _ _ hinside _ _ => exact absurd hinside hnot
  | delete _ _ hinside _ => exact absurd hinside hnot
  | text _ _ hinside _ _ => exact absurd hinside hnot

theorem read_lineEnd :
    (s.read onMessageReceived id lineEnd).messages =
      s.messages ++ [(id, (s.session id).receivedData ++ lineEnd)] ∧
    ((s.read onMessageReceived id lineEnd).session id).receivedData = [] := by
  rw [read_lineEnd_eq, update_session]
  exact ⟨onMessage_messages _, rfl⟩

theorem reads_append (data data' : List Bytes) : s.reads onMessageReceived id (data ++ data') =
    (s.reads onMessageReceived id data).reads onMessageReceived id data' :=
  List.foldl_append

theorem reads_cons (data : Bytes) (rest : List Bytes) :
    s.reads onMessageReceived id (data :: rest) =
      (s.read onMessageReceived id data).reads onMessageReceived id rest :=
  List.foldl_cons ..

theorem reads_nil : s.reads onMessageReceived id [] = s := List.foldl_nil

/-- The keys of a line edit the text, and none of them is a message. -/
theorem reads_keys {keys : Bytes} (hkeys : ∀ b ∈ keys, isKey b = true)
    (hdot : NoLeadingDot (s.session id).receivedData keys) :
    (s.reads onMessageReceived id (keys.map ([·]))).messages = s.messages ∧
      ((s.reads onMessageReceived id (keys.map ([·]))).session id).receivedData =
        keys.foldl press (s.session id).receivedData := by
  induction keys generalizing s with
  | nil => exact ⟨rfl, rfl⟩
  | cons b keys ih =>
    obtain ⟨hkey, hrest⟩ := List.forall_mem_cons.mp hkeys
    obtain ⟨hfirst, hdots⟩ := hdot
    rcases @read_key_cases onMessageReceived s id b hkey with
      ⟨hbyte, hempty, -⟩ | ⟨hmessages, hsession⟩
    · exact absurd hbyte (hfirst hempty)
    · have htext : ((s.read onMessageReceived id [b]).session id).receivedData =
          press (s.session id).receivedData b := by rw [hsession]
      rw [← htext] at hdots
      obtain ⟨hmsgs, hdata⟩ := ih hrest hdots
      rw [List.map_cons, reads_cons, hmsgs, hdata, htext]
      exact ⟨hmessages, rfl⟩

theorem reads_line {keys : Bytes} (hkeys : ∀ b ∈ keys, isKey b = true)
    (hempty : (s.session id).receivedData = []) (hdot : NoLeadingDot [] keys) :
    (s.reads onMessageReceived id (lineReads keys)).messages =
        s.messages ++ [(id, edit keys ++ lineEnd)] ∧
      ((s.reads onMessageReceived id (lineReads keys)).session id).receivedData = [] := by
  rw [← hempty] at hdot
  obtain ⟨hmessages, hdata⟩ := @reads_keys onMessageReceived s id keys hkeys hdot
  obtain ⟨hlast, hcleared⟩ := @read_lineEnd onMessageReceived
    (s.reads onMessageReceived id (keys.map ([·]))) id
  rw [hmessages, hdata, hempty] at hlast
  rw [lineReads, reads_append, reads_cons, reads_nil, hlast, hcleared]
  exact ⟨rfl, rfl⟩

theorem edit_no_lineFeed {keys : Bytes} (hkeys : ∀ b ∈ keys, isKey b = true) :
    0x0A ∉ edit keys := by
  have hfold : ∀ text : Bytes, 0x0A ∉ text → 0x0A ∉ keys.foldl press text := by
    induction keys with
    | nil => exact fun _ h => h
    | cons b keys ih =>
      intro text htext
      obtain ⟨hkey, hrest⟩ := List.forall_mem_cons.mp hkeys
      refine ih hrest _ ?_
      unfold press
      split
      · exact fun hin => htext (List.mem_of_mem_dropLast hin)
      · rw [List.mem_append, List.mem_singleton, not_or]
        refine ⟨htext, ?_⟩
        rintro rfl
        exact absurd hkey (by decide)
  exact hfold [] List.not_mem_nil

theorem reads_line_last (keys : Bytes) : ∃ messages text,
    (s.reads onMessageReceived id (lineReads keys)).messages =
      messages ++ [(id, text ++ lineEnd)] := by
  rw [lineReads, reads_append, reads_cons, reads_nil, read_lineEnd.1]
  exact ⟨_, _, rfl⟩

end Reads

section Guest

variable {s : Server} {id : ℕ} {b : Byte} {keys : Bytes}

theorem onMessageReceived_guest {session : Session} {message : Bytes}
    (hguest : session.authStatus = .guest) (hother : message ≠ chars "testuser") :
    (onMessageReceived session message).authStatus = .guest := by
  have hnot : session.authStatus ≠ .loggedIn := by rw [hguest]; decide
  rw [onMessageReceived, if_pos hnot, logIn, hguest]
  dsimp only
  rw [if_neg hother]

theorem read_key_guest (hkey : isKey b = true) (hguest : (s.session id).authStatus = .guest) :
    ((s.read onMessageReceived id [b]).session id).authStatus = .guest := by
  rcases @read_key_cases onMessageReceived s id b hkey with ⟨-, -, hread⟩ | ⟨-, hsession⟩
  · rw [hread, update_session, onMessage_session]
    refine onMessageReceived_guest hguest fun hname => ?_
    have hlength : 1 = (chars "testuser").length := congrArg List.length hname
    exact absurd hlength (by decide)
  · rw [hsession]
    exact hguest

theorem read_lineEnd_guest (hguest : (s.session id).authStatus = .guest) :
    ((s.read onMessageReceived id lineEnd).session id).authStatus = .guest := by
  rw [read_lineEnd_eq, update_session, onMessage_session]
  refine onMessageReceived_guest hguest fun hname => ?_
  -- the name that the login knows does not end with a line feed
  have hlast : some 0x0A = (chars "testuser").getLast? := by
    rw [← hname, List.getLast?_append]
    rfl
  exact absurd hlast (by decide)

theorem reads_keys_guest (hkeys : ∀ b ∈ keys, isKey b = true)
    (hguest : (s.session id).authStatus = .guest) :
    ((s.reads onMessageReceived id (keys.map ([·]))).session id).authStatus = .guest := by
  induction keys generalizing s with
  | nil => exact hguest
  | cons b keys ih =>
    obtain ⟨hkey, hrest⟩ := List.forall_mem_cons.mp hkeys
    rw [List.map_cons, reads_cons]
    exact ih hrest (read_key_guest hkey hguest)

theorem reads_line_guest (hkeys : ∀ b ∈ keys, isKey b = true)
    (hguest : (s.session id).authStatus = .guest) :
    ((s.reads onMessageReceived id (lineReads keys)).session id).authStatus = .guest := by
  rw [lineReads, reads_append, reads_cons, reads_nil]
  exact read_lineEnd_guest (reads_keys_guest hkeys hguest)

end Guest

/-- No line is delivered as its text: the end of the line is part of every message, so that
typing a name and a password logs nobody in. -/
theorem edited_line_never (cb : OnMessageReceivedCB) (s : Server) (id : ℕ) (keys : Bytes)
    (hkeys : ∀ b ∈ keys, isKey b = true) (hempty : (s.session id).receivedData = []) :
    ¬ Delivers cb id s keys ∧
    (NoLeadingDot [] keys →
      (s.reads cb id (lineReads keys)).messages = s.messages ++ [(id, edit keys ++ lineEnd)] ∧
        ((s.reads cb id (lineReads keys)).session id).receivedData = []) ∧
    ((s.session id).authStatus = .guest → ∀ password : Bytes, (∀ b ∈ password, isKey b = true) →
      ((s.reads onMessageReceived id (lineReads keys ++ lineReads password)).session id).authStatus
        ≠ .loggedIn) := by
  refine ⟨?_, fun hdot => reads_line hkeys hempty hdot, fun hguest password hpassword => ?_⟩
  · rintro ⟨hmessages, -⟩
    obtain ⟨messages, text, hlast⟩ := @reads_line_last cb s id keys
    rw [hlast] at hmessages
    obtain ⟨-, hmessage⟩ := List.append_inj' hmessages rfl
    have htext : text ++ lineEnd = edit keys := by simpa using hmessage
    apply edit_no_lineFeed hkeys
    rw [← htext]
    exact List.mem_append_right _ (by decide)
  · rw [reads_append, reads_line_guest hpassword (reads_line_guest hkeys hguest)]
    decide

/-- `ab`, a backspace and `c`. -/
theorem edited_line_never_backspace :
    ¬ Delivers onMessageReceived 0 (handleConnection {}) [0x61, 0x62, backspace, 0x63] ∧
    ((handleConnection {}).reads onMessageReceived 0
      (lineReads [0x61, 0x62, backspace, 0x63])).messages = [(0, [0x61, 0x63] ++ lineEnd)] := by
  have hnever := edited_line_never onMessageReceived (handleConnection {}) 0
    [0x61, 0x62, backspace, 0x63] (List.all_eq_true.mp (by decide)) rfl
  refine ⟨hnever.1, (hnever.2.1 ?_).1⟩
  exact ⟨by decide, by decide, by decide, by decide, trivial⟩

/-- The user name is typed: it is delivered with the end of the line, which logs nobody in and
removes the session. -/
theorem user_name_with_line_end :
    let s : Server := handleConnection {}
    let t := s.reads onMessageReceived 0 (lineReads (chars "testuser"))
    ¬ Delivers onMessageReceived 0 s (chars "testuser") ∧
    t.messages = [(0, chars "testuser" ++ lineEnd)] ∧ (t.session 0).authStatus = .guest ∧
    0 ∉ t.sessions := by
  refine ⟨fun hdelivers => absurd hdelivers.1 ?_, ?_, ?_, ?_⟩ <;> decide

end TelnetServer
end NetworkProtocols
