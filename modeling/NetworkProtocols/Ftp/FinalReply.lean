import NetworkProtocols.Ftp.Effects

/-!
# The final reply

Which commands are answered by a reply that ends them. USER and PASS may stay without an answer,
so may a PORT that does not connect and a listing that breaks off, and a RETR that breaks off is
left with its 150.
-/

namespace NetworkProtocols
namespace Ftp

open Bytes

def isFinal : Bytes → Bool
  | a :: b :: c :: d :: _ => 50 ≤ a && a ≤ 53 && isDigit b && isDigit c && d == space
  | _ => false

theorem isFinal_append {msg : Bytes} (h : isFinal msg = true) (rest : Bytes) :
    isFinal (msg ++ rest) = true := by
  rcases msg with _ | ⟨a, _ | ⟨b, _ | ⟨c, _ | ⟨d, msg⟩⟩⟩⟩
  · cases h
  · cases h
  · cases h
  · cases h
  · exact h

theorem isFinal_chars {l : List Char} {b : Bool}
    (h : isFinal (l.map fun c => UInt8.ofNat c.toNat) = b) :
    isFinal (chars (String.ofList l)) = b := by
  rw [chars, String.toList_ofList]
  exact h

def Execution.Answered (x : Execution) : Prop :=
  (∃ reply ∈ x.replies.getLast?, isFinal reply = true) ∧ x.fault = none

instance (x : Execution) : Decidable x.Answered := inferInstanceAs (Decidable (_ ∧ _))

section Replies

variable {x : Execution}

theorem Execution.Answered.message (h : x.fault = none) {msg : Bytes}
    (hmsg : isFinal msg = true) : (x.sendMessageToClient msg).Answered :=
  ⟨⟨msg, by simp [Execution.sendMessageToClient], hmsg⟩, h⟩

theorem Execution.Answered.message_append (h : x.fault = none) {msg : Bytes}
    (hmsg : isFinal msg = true) (rest : Bytes) : (x.sendMessageToClient (msg ++ rest)).Answered :=
  .message h (isFinal_append hmsg rest)

theorem Execution.not_answered_raise (fault : Fault) : ¬ (x.raise fault).Answered :=
  fun h => Option.some_ne_none fault h.2

theorem Execution.not_answered_nil (h : x.replies = []) : ¬ x.Answered := by
  rintro ⟨⟨reply, hreply, -⟩, -⟩
  rw [h] at hreply
  cases hreply

theorem Execution.not_answered_last {before : List Bytes} {msg : Bytes}
    (h : x.replies = before ++ [msg]) (hmsg : isFinal msg = false) : ¬ x.Answered := by
  rintro ⟨⟨reply, hreply, hfinal⟩, -⟩
  rw [h, List.getLast?_concat] at hreply
  obtain rfl := Option.some.inj hreply
  exact Bool.false_ne_true (hmsg.symm.trans hfinal)

@[simp] theorem Execution.answered_close : x.closeDataConnection.Answered ↔ x.Answered := Iff.rfl

end Replies

/-- The blocks that RETR reads in binary mode. -/
def readBlocks : List ℕ → Bytes → List Bytes
  | [], _ => []
  | n :: available, content =>
    let n := min (min n sendBufferSize) content.length
    if n = 0 then [] else content.take n :: readBlocks available (content.drop n)

/-- Send one after the other until that fails. -/
def sendAll (o : Outcomes) : List Bytes → Execution → Bool × Execution
  | [], x => (true, x)
  | data :: rest, x =>
    match x.sendDataToClient o data with
    | (false, x) => (false, x)
    | (true, x) => sendAll o rest x

section Sending

variable (o : Outcomes)

theorem sendBlocks_eq_sendAll (available : List ℕ) (content : Bytes) (x : Execution) :
    sendBlocks o available content x = sendAll o (readBlocks available content) x := by
  induction available generalizing content x with
  | nil => rfl
  | cons n available ih =>
    rw [sendBlocks, readBlocks]
    split
    · rfl
    · rw [sendAll]
      generalize x.sendDataToClient o _ = result
      obtain ⟨sent, y⟩ := result
      cases sent with
      | false => rfl
      | true => exact ih _ y

theorem sendLines_eq_sendAll (lines : List Bytes) (x : Execution) :
    sendLines o lines x = sendAll o (lines.map (· ++ [CR, LF])) x := by
  induction lines generalizing x with
  | nil => rfl
  | cons line lines ih =>
    rw [sendLines, List.map_cons, sendAll]
    generalize x.sendDataToClient o _ = result
    obtain ⟨sent, y⟩ := result
    cases sent with
    | false => rfl
    | true => exact ih y

theorem sendAll_true_iff (pieces : List Bytes) (x : Execution) :
    (sendAll o pieces x).1 = true ↔
      ∀ i < pieces.length, o.sendFails (x.sent.length + i) = none := by
  induction pieces generalizing x with
  | nil => simp [sendAll]
  | cons data rest ih =>
    rw [sendAll, Execution.sendDataToClient, List.length_cons, Nat.forall_lt_succ_left]
    cases hfails : o.sendFails x.sent.length with
    | some n => simp
    | none =>
      dsimp only
      rw [ih]
      simp [Nat.add_assoc, Nat.add_comm 1]

end Sending

/-- What RETR sends of the file that a path names. -/
def FTPSession.pieces (o : Outcomes) (s : FTPSession) (path : Bytes) : List Bytes :=
  let content := ((Execution.start s o.disk).readable o path).getD []
  match s.transferType with
  | .binary => readBlocks o.available content
  | .ascii => (split content LF).map (· ++ [CR, LF])

/-- The arguments can be read, and the data connection opens. -/
def PortConnects (o : Outcomes) (s : FTPSession) (args : Bytes) : Prop :=
  match portArguments args with
  | .error _ => False
  | .ok (host, port) => o.addressValid host = true ∧
      (s.dataSocket = true ∨ o.dataSocketOpens = true) ∧ o.connects host port = true

/-- The command comes to a final reply. -/
def ComesToReply (o : Outcomes) (users : UsersDB) (s : FTPSession) (args : Bytes) : Command → Prop
  | .cwd => o.refuses .status (s.cwdTarget args) = false
  | .dele => matchesFile args = true → o.refuses .status (s.joined args) = false
  | .eprt => PortConnects o s (parseExtendedArguments args)
  | .list | .nlst => s.dataSocket = true → o.refuses .status (s.joined args) = false →
      o.disk.hasDirectory (s.joined args) = true → (o.listing (s.joined args)).isSome = true
  | .pass => s.username ≠ [] ∧ users.usernameIsKnown s.username = true
  | .port => PortConnects o s (stripParentheses args)
  | .retr => s.dataSocket = true → o.refuses .status (s.joined args) = false ∧
      (o.disk.present (s.joined args) = true →
        ∀ i < (s.pieces o (s.joined args)).length, o.sendFails i = none)
  | .user => users.usernameIsKnown args = true
  | _ => True

section Handlers

open Execution

variable (o : Outcomes) (users : UsersDB) (s : FTPSession) (args : Bytes)

theorem handleCwd_answered : ((start s o.disk).handleCwd o args).Answered ↔
    ComesToReply o users s args .cwd := by
  unfold handleCwd
  dsimp only [ComesToReply]
  split
  · rename_i hstatus
    exact iff_of_false (not_answered_raise _) fun h => Bool.false_ne_true (h.symm.trans hstatus)
  · rename_i hstatus
    refine iff_of_true ?_ (Bool.not_eq_true _ ▸ hstatus)
    split
    · exact .message_append rfl (isFinal_chars rfl) _
    · exact .message rfl (isFinal_chars rfl)

theorem handleDele_answered : ((start s o.disk).handleDele o args).Answered ↔
    ComesToReply o users s args .dele := by
  unfold handleDele
  dsimp only [ComesToReply]
  split
  · rename_i hname
    split
    · rename_i hstatus
      exact iff_of_false (not_answered_raise _) fun h =>
        Bool.false_ne_true ((h hname).symm.trans hstatus)
    · rename_i hstatus
      refine iff_of_true ?_ fun _ => Bool.not_eq_true _ ▸ hstatus
      split
      · split
        · exact .message rfl (isFinal_chars rfl)
        · exact .message rfl (isFinal_chars rfl)
      · exact .message rfl (isFinal_chars rfl)
  · rename_i hname
    exact iff_of_true (.message rfl (isFinal_chars rfl)) fun h => absurd h hname

theorem handleMkd_answered : ((start s o.disk).handleMkd o args).Answered := by
  unfold handleMkd
  split
  · dsimp only
    split
    · exact .message rfl (isFinal_chars rfl)
    · exact .message rfl (isFinal_chars rfl)
  · exact .message rfl (isFinal_chars rfl)

theorem handleRmd_answered : ((start s o.disk).handleRmd o args).Answered := by
  unfold handleRmd
  split
  · dsimp only
    split
    · split
      · exact .message rfl (isFinal_chars rfl)
      · exact .message rfl (isFinal_chars rfl)
    · exact .message rfl (isFinal_chars rfl)
  · exact .message rfl (isFinal_chars rfl)

theorem passive_answered {msg : Bytes} (hmsg : isFinal msg = true) :
    (((start s o.disk).sendMessageToClient msg).openDataConnectionPassive o
      s.dataPort).2.Answered := by
  obtain ⟨dataSocket, acceptor, heq⟩ := openDataConnectionPassive_eq o s.dataPort
    ((start s o.disk).sendMessageToClient msg)
  rw [heq]
  exact Answered.message (x := start s o.disk) rfl hmsg

theorem handleEpsv_answered : ((start s o.disk).handleEpsv o).Answered := by
  refine passive_answered o s ?_
  rw [List.append_assoc]
  exact isFinal_append (isFinal_chars rfl) _

theorem handlePasv_answered : ((start s o.disk).handlePasv o).Answered := by
  refine passive_answered o s ?_
  rw [List.append_assoc]
  exact isFinal_append (isFinal_chars rfl) _

theorem handlePwd_answered : ((start s o.disk).handlePwd).Answered := by
  unfold handlePwd
  rw [List.append_assoc]
  exact .message_append rfl (isFinal_chars rfl) _

theorem handlePort_answered :
    ((start s o.disk).handlePort o args).Answered ↔ PortConnects o s args := by
  unfold handlePort PortConnects
  cases portArguments args with
  | error fault => exact iff_of_false (not_answered_raise _) not_false
  | ok target =>
    obtain ⟨host, port⟩ := target
    dsimp only
    unfold openDataConnectionActive
    cases haddr : o.addressValid host with
    | false => exact iff_of_false (not_answered_raise _) (by simp)
    | true =>
      simp only [Bool.not_true, Bool.false_eq_true, if_false, true_and]
      split
      · rename_i hopened
        rw [Bool.and_eq_true, Bool.or_eq_true] at hopened
        exact iff_of_true (.message rfl (isFinal_chars rfl)) hopened
      · rename_i hopened
        rw [Bool.and_eq_true, Bool.or_eq_true] at hopened
        exact iff_of_false (not_answered_nil rfl) hopened

theorem handlePass_answered : ((start s o.disk).handlePass users args).Answered ↔
    ComesToReply o users s args .pass := by
  have hknows : users.usernameIsKnown s.username = (users s.username).isSome := rfl
  rcases handlePass_cases users args (.start s o.disk) with
    ⟨hname, heq⟩ | ⟨hname, hunknown, heq⟩ | ⟨password, hname, hknown, heq⟩
  · rw [heq]
    exact iff_of_false (not_answered_nil rfl) fun h => h.1 hname
  · rw [heq]
    refine iff_of_false (not_answered_raise _) fun h => ?_
    have hsome := hknows.symm.trans h.2
    rw [show users s.username = none from hunknown] at hsome
    cases hsome
  · have hsome : users.usernameIsKnown s.username = true := by
      rw [hknows, show users s.username = some password from hknown]
      rfl
    rw [heq]
    refine iff_of_true (.message rfl ?_) ⟨hname, hsome⟩
    split
    · rw [List.append_assoc]
      exact isFinal_append (isFinal_chars rfl) _
    · decide

theorem handleUser_answered : ((start s o.disk).handleUser users args).Answered ↔
    ComesToReply o users s args .user := by
  unfold handleUser
  dsimp only [ComesToReply]
  split
  · rename_i hknown
    exact iff_of_true
      (Answered.message_append (x := start s o.disk) rfl (isFinal_chars rfl) args) hknown
  · rename_i hunknown
    exact iff_of_false (not_answered_nil rfl) hunknown

theorem handleType_answered : ((start s o.disk).handleType args).Answered := by
  unfold handleType
  split
  · split
    · exact .message rfl (isFinal_chars rfl)
    split
    · exact .message rfl (isFinal_chars rfl)
    · exact .message rfl (isFinal_chars rfl)
  · exact .message rfl (isFinal_chars rfl)

theorem handleNlst_answered : ((start s o.disk).handleNlst o args).Answered ↔
    ComesToReply o users s args .nlst := by
  unfold handleNlst
  dsimp only [ComesToReply]
  cases hopen : s.dataSocket with
  | false =>
    rw [show (start s o.disk).session.dataSocket = false from hopen]
    exact iff_of_true (.message rfl (isFinal_chars rfl)) (by simp)
  | true =>
    rw [show (start s o.disk).session.dataSocket = true from hopen, Bool.not_true,
      if_neg (by decide)]
    by_cases hdir : o.refuses .status (s.joined args) = false ∧
        o.disk.hasDirectory (s.joined args) = true
    · rw [readDirectory_found o s args hdir.1 hdir.2]
      simp only [hdir, forall_const]
      cases o.listing (s.joined args) with
      | none => exact iff_of_false (not_answered_nil rfl) (by simp)
      | some lines =>
        refine iff_of_true ?_ rfl
        cases lines with
        | nil => exact Answered.message rfl (isFinal_chars rfl)
        | cons line lines =>
          dsimp only
          obtain ⟨sent, hsent⟩ := sendAscii_eq o (line :: lines) (sendMessageToClient _ _)
          rw [hsent]
          exact Answered.message rfl (isFinal_chars rfl)
    · rw [readDirectory_missing o s args hdir]
      refine iff_of_true (Answered.message rfl (isFinal_chars rfl)) fun _ hstatus hhas => ?_
      exact absurd ⟨hstatus, hhas⟩ hdir

theorem handleStor_answered : ((start s o.disk).handleStor o args).Answered := by
  unfold handleStor
  split
  · exact .message rfl (isFinal_chars rfl)
  · dsimp only
    rw [answered_close]
    split
    · exact .message rfl (isFinal_chars rfl)
    · exact .message rfl (isFinal_chars rfl)

/-- The transfer of RETR succeeds when all that it sends gets through; its reply is a
preliminary one. -/
theorem sendFile_true_iff (x : Execution) (path : Bytes) (hdisk : x.disk = o.disk)
    (hsession : x.session = s) (hsent : x.sent = []) :
    (x.sendFile o path).1 = true ↔
      ∀ i < (s.pieces o path).length, o.sendFails i = none := by
  have hread : x.readable o path = (start s o.disk).readable o path := by
    unfold readable
    rw [hdisk]
    rfl
  unfold sendFile FTPSession.pieces
  rw [hread, hsession]
  cases s.transferType with
  | binary =>
    dsimp only
    rw [sendBlocks_eq_sendAll, sendAll_true_iff]
    simp [sendMessageToClient, called, hsent]
  | ascii =>
    dsimp only
    rw [sendLines_eq_sendAll, sendAll_true_iff]
    simp [sendMessageToClient, called, hsent]

theorem sendFile_not_answered (x : Execution) (path : Bytes) :
    ¬ (x.sendFile o path).2.Answered := by
  unfold sendFile
  cases x.session.transferType with
  | binary =>
    dsimp only
    obtain ⟨sent, hsent⟩ := sendBlocks_eq o o.available ((x.readable o path).getD []) _
    rw [hsent]
    exact not_answered_last rfl (isFinal_chars rfl)
  | ascii =>
    dsimp only
    obtain ⟨sent, hsent⟩ := sendLines_eq o (split ((x.readable o path).getD []) LF) _
    rw [hsent]
    exact not_answered_last rfl (isFinal_chars rfl)

theorem transferred_answered {result : Bool × Execution} (hfault : result.2.fault = none)
    (hready : ¬ result.2.Answered) :
    (if result.1 = true then result.2.sendMessageToClient
        (chars "226 The file transferred successfully, closing data connection")
      else result.2).Answered ↔ result.1 = true := by
  split
  · rename_i htrue
    exact iff_of_true (.message hfault (isFinal_chars rfl)) htrue
  · rename_i hfalse
    exact iff_of_false hready hfalse

theorem handleRetr_answered : ((start s o.disk).handleRetr o args).Answered ↔
    ComesToReply o users s args .retr := by
  unfold handleRetr
  dsimp only [ComesToReply]
  cases hopen : s.dataSocket with
  | false =>
    rw [show (start s o.disk).session.dataSocket = false from hopen]
    exact iff_of_true (.message rfl (isFinal_chars rfl)) (by simp)
  | true =>
    rw [show (start s o.disk).session.dataSocket = true from hopen, Bool.not_true,
      if_neg (by decide)]
    simp only [forall_const]
    split
    · rename_i hstatus
      exact iff_of_false (not_answered_raise _) fun h => Bool.false_ne_true (h.1.symm.trans hstatus)
    · rename_i hstatus
      have hgranted : o.refuses .status (s.joined args) = false := Bool.not_eq_true _ ▸ hstatus
      rw [and_iff_right hgranted]
      split
      · rename_i hmissing
        rw [Bool.not_eq_true'] at hmissing
        refine iff_of_true (.message rfl (isFinal_chars rfl)) fun hpresent => ?_
        exact absurd (hmissing.symm.trans hpresent) Bool.false_ne_true
      · rename_i hpresent
        rw [Bool.not_eq_true', Bool.not_eq_false] at hpresent
        obtain ⟨ready, sent, heq, -⟩ := sendFile_eq o (s.joined args) (called _ _ _ _)
        refine (transferred_answered (congrArg Execution.fault heq)
          (sendFile_not_answered o _ _)).trans ?_
        have hexists : o.disk.present (s.joined args) = true := hpresent
        rw [forall_prop_of_true hexists]
        exact sendFile_true_iff o s _ _ rfl rfl rfl

/-- Of every line, whatever the calls to the surroundings come to: the command is answered by a
final reply exactly when its condition holds. -/
theorem executeCommand_answered_iff (o : Outcomes) (users : UsersDB) (s : FTPSession)
    (line : Bytes) : (executeCommand o users line (.start s o.disk)).Answered ↔
      ComesToReply o users s (parseCommand line).2 (parseCommand line).1 := by
  unfold executeCommand
  obtain ⟨command, args⟩ := parseCommand line
  dsimp only
  cases command with
  | cwd => exact handleCwd_answered o users s args
  | dele => exact handleDele_answered o users s args
  | eprt => exact handlePort_answered o s _
  | epsv => exact iff_of_true (handleEpsv_answered o s) trivial
  | feat => exact iff_of_true (.message rfl (isFinal_chars rfl)) trivial
  | list => exact handleNlst_answered o users s args
  | nlst => exact handleNlst_answered o users s args
  | mkd => exact iff_of_true (handleMkd_answered o s args) trivial
  | pass => exact handlePass_answered o users s args
  | pasv => exact iff_of_true (handlePasv_answered o s) trivial
  | port => exact handlePort_answered o s _
  | pwd => exact iff_of_true (handlePwd_answered o s) trivial
  | quit => exact iff_of_true (Answered.message rfl (isFinal_chars rfl)) trivial
  | retr => exact handleRetr_answered o users s args
  | rmd => exact iff_of_true (handleRmd_answered o s args) trivial
  | syst => exact iff_of_true (.message rfl (isFinal_chars rfl)) trivial
  | stor => exact iff_of_true (handleStor_answered o s args) trivial
  | type => exact iff_of_true (handleType_answered o s args) trivial
  | user => exact handleUser_answered o users s args
  | unknown => exact iff_of_true (.message rfl (isFinal_chars rfl)) trivial

/-- A USER with a name that is unknown gets no reply, and no PASS behind it does; a RETR whose
data connection breaks off is left with its 150. -/
theorem unanswered_commands :
    let unknown := executeCommand { disk := homeDisk } (fun _ => none) (chars "USER nobody")
      (.start connected homeDisk)
    let early := executeCommand { disk := homeDisk } (fun _ => none) (chars "PASS secret")
      (.start unknown.session homeDisk)
    let broken := executeCommand
      { disk := homeDisk, available := [3], sendFails := fun _ => some 0 } (fun _ => none)
      (chars "RETR f") (.start connected homeDisk)
    unknown.replies = [] ∧ early.replies = [] ∧
      broken.replies = [chars "150 Data connection (binary mode) is ready to transfer file"] ∧
      ∀ x ∈ [unknown, early, broken], ¬ x.Answered := by
  decide +kernel

end Handlers

end Ftp
end NetworkProtocols
