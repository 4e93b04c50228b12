import NetworkProtocols.Tftp.ClientLoop
import NetworkProtocols.Tftp.Network
import NetworkProtocols.Tftp.WriteSession

/-!
# PUT over an unreliable network

Datagrams may be lost, duplicated, delayed and reordered. The call has sent its first
`k` blocks, and the server has sent ACKs with the numbers below `a` only, where
`k ≤ a ≤ k + 1`. A block in flight that carries the number after the server's counter is
then the first block the file does not hold, because the counter is never behind the
number of stored blocks. This needs that a repeated request finds the file: for an absolute
name the server looks elsewhere.
-/

namespace NetworkProtocols
namespace Tftp
namespace LossyPut

open Bytes Channel

/-- Sends, receives and file-system queries may fail at any time, but a file that passed
the checks can be opened. `Meets` restricts what the server receives in which state. -/
abbrev Step (ep : Endpoint) (Meets : TFTPServer → Datagram → Outcomes → Prop) :=
  Lossy (clientReaction PutFile.turn fun _ => True)
    (serverReaction ep fun srv i o => o.openOk = true ∧ ∀ d ∈ i, Meets srv d o)

/-- The server after `n` datagrams when it may have sent the ACKs with numbers below `a`:
no file was opened yet, or `m` blocks are stored and the counter has run ahead, or the
whole file is stored and no session writes to it any more. -/
inductive ServerAt (ep : Endpoint) (mode : TransferMode) (name file : Bytes) (n : ℕ) :
    ℕ → TFTPServer → Prop
  | unopened {srv : TFTPServer} : srv.Unopened ep → srv.files.lookup name = none →
      ServerAt ep mode name file n 0 srv
  | storing {srv : TFTPServer} {m c : ℕ} : m ≤ c → c ≤ n →
      srv.Uploading ep mode (srv.files.denotes name) c (stored mode file m) →
      ServerAt ep mode name file n (m + 1) srv
  | complete {srv : TFTPServer} : payloads mode file ≤ n → srv.Idle ep →
      srv.files.lookup name = some (decode mode file) →
      ServerAt ep mode name file n (payloads mode file + 1) srv

variable {ep : Endpoint} {mode : TransferMode} {name file : Bytes} {n a k : ℕ}
variable {srv : TFTPServer}

theorem ServerAt.le (h : ServerAt ep mode name file n a srv) : a ≤ n + 1 := by
  cases h <;> omega

/-- A datagram the call may have sent once it is past its first `k` blocks. -/
def FromCall (mode : TransferMode) (name file : Bytes) (k : ℕ) (d : Datagram) : Prop :=
  d = requestMessage .wrq name mode ∨
    ∃ j < k, d = dataMessage (UInt16.ofNat (j + 1)) (payload mode file j)

/-- A datagram the server may have sent when its ACKs have numbers below `a`. -/
def FromServer (a : ℕ) (d : Datagram) : Prop :=
  IsError d ∨ ∃ j < a, d = ackMessage (UInt16.ofNat j)

theorem FromCall.mono {k' : ℕ} (hk : k ≤ k') {d : Datagram} (h : FromCall mode name file k d) :
    FromCall mode name file k' d := by
  rcases h with h | ⟨j, hj, h⟩
  · exact .inl h
  · exact .inr ⟨j, by omega, h⟩

theorem FromServer.mono {a' : ℕ} (ha : a ≤ a') {d : Datagram} (h : FromServer a d) :
    FromServer a' d := by
  rcases h with h | ⟨j, hj, h⟩
  · exact .inl h
  · exact .inr ⟨j, by omega, h⟩

theorem fromServer_of_error {sent : List Packet} (h : AtMostError ep sent) :
    ∀ d ∈ sentTo ep sent, FromServer a d :=
  fun d hd => .inl (h.sentTo d hd)

/-- What one datagram of the call does to the server. -/
def Advances (ep : Endpoint) (mode : TransferMode) (name file : Bytes) (n a k : ℕ)
    (srv : TFTPServer) (sent : List Packet) : Prop :=
  ∃ a', a ≤ a' ∧ a' ≤ k + 1 ∧ ServerAt ep mode name file (n + 1) a' srv ∧
    ∀ d ∈ sentTo ep sent, FromServer a' d

/-- A request opens the file once and is refused ever after. -/
theorem ServerAt.receive_wrq (h : ServerAt ep mode name file n a srv) (hname : ValidName name)
    (hak : a ≤ k + 1) {o : Outcomes} (hopen : o.openOk = true)
    (hgrants : srv.GrantsNew (requestMessage .wrq name mode) o) :
    ∃ srv' sent, srv.receive (.received ep (requestMessage .wrq name mode) o) = some (srv', sent) ∧
      Advances ep mode name file n a k srv' sent := by
  have hd := srv.requests_requestMessage .wrq mode hname
  cases h with
  | unopened hs hfree =>
    by_cases hpass : TFTPSessionWrite.ChecksPass srv.files o name
    · obtain ⟨srv', hr, hup, hfiles⟩ := hs.receive_granted hd hpass hopen
      have hden : srv'.files.denotes = srv.files.denotes := by rw [hfiles]; rfl
      rw [← hden, ← stored_zero mode file] at hup
      exact ⟨srv', _, hr, 1, by omega, by omega, .storing le_rfl (Nat.zero_le _) hup,
        fun d hd => .inr ⟨0, by omega, eq_of_mem_sentTo hd⟩⟩
    · obtain ⟨srv', sent, hr, hs', hfiles, hsent⟩ :=
        hs.receive_refused hd hpass
      exact ⟨srv', sent, hr, 0, le_rfl, by omega, .unopened hs' (by rw [hfiles, hfree]),
        fromServer_of_error hsent⟩
  | @storing _ m c hm hc hup =>
    have hfile : srv.files.lookup name = some (stored mode file m) := by
      obtain ⟨_, -, -, -, -, -, -, hcontent⟩ := hup
      exact hcontent
    obtain ⟨srv', sent, hr, hup', hfiles, hsent⟩ :=
      hup.receive_again hd (hgrants.refuses hd hfile)
    rw [← hfiles] at hup'
    exact ⟨srv', sent, hr, m + 1, le_rfl, by omega, .storing hm (by omega) hup',
      fromServer_of_error hsent⟩
  | complete hn hs hfile =>
    obtain ⟨srv', sent, hr, hs', hfiles, hsent⟩ :=
      hs.receive_refused hd (hgrants.refuses hd hfile)
    exact ⟨srv', sent, hr, _, le_rfl, hak, .complete (by omega) hs' (by rw [hfiles, hfile]),
      fromServer_of_error hsent⟩

/-- A block is stored only where it belongs. -/
theorem ServerAt.receive_data (h : ServerAt ep mode name file n a srv) (hn : n + 1 < 65535)
    (hka : k ≤ a) (hak : a ≤ k + 1) (hk : k ≤ payloads mode file) {j : ℕ} (hj : j < k)
    (o : Outcomes) :
    ∃ srv' sent, srv.receive (.received ep
          (dataMessage (UInt16.ofNat (j + 1)) (payload mode file j)) o) = some (srv', sent) ∧
      Advances ep mode name file n a k srv' sent := by
  have hle := payload_length_le mode file j
  have hbound := h.le
  cases h with
  | unopened => omega
  | @storing _ m c hm hc hup =>
    by_cases hw : UInt16.ofNat (j + 1) = UInt16.ofNat (c + 1)
    · have hjc : j + 1 = c + 1 := Bytes.ofNat_inj (by omega) (by omega) hw
      obtain rfl : j = c := by omega
      obtain rfl : j = m := by omega
      obtain ⟨srv', hr, hfiles, hcontent, hnext⟩ := hup.receive_expected hle o
      rw [← stored_succ] at hcontent hnext
      have hden : srv'.files.denotes = srv.files.denotes := by rw [hfiles]; rfl
      refine ⟨srv', _, hr, (j + 1) + 1, by omega, by omega, ?_,
        fun d hd => .inr ⟨j + 1, by omega, eq_of_mem_sentTo hd⟩⟩
      split at hnext
      · rename_i hdone
        have hlast := (payload_short_iff (by omega)).mp hdone.2
        rw [hlast]
        refine .complete (by omega) (.inl hnext) ?_
        rw [FileSystem.lookup, hden, hcontent, hlast, stored_all]
      · exact .storing le_rfl (by omega) (hden ▸ hnext)
    · obtain ⟨srv', hr, hup', hfiles⟩ := hup.receive_unexpected hle hw o
      rw [← hfiles] at hup'
      refine ⟨srv', _, hr, m + 1, le_rfl, by omega, .storing (by omega) (by omega) hup', ?_⟩
      exact fromServer_of_error (atMostError_send { ep := ep } o .unknownTransferId)
  | complete hlen hs hfile =>
    obtain ⟨srv', sent, hr, hs', hfiles, hsent⟩ := hs.receive_data hle o
    refine ⟨srv', sent, hr, _, le_rfl, hak, .complete (by omega) hs' (by rw [hfiles, hfile]), ?_⟩
    rcases hsent with hsent | rfl
    · exact fromServer_of_error hsent
    · rw [sentTo_singleton]
      intro d hd
      exact .inr ⟨j + 1, by omega, List.mem_singleton.mp hd⟩

/-- The call when `k` blocks were sent and ACKs below `a` may have reached it. -/
inductive CallAt (mode : TransferMode) (file : Bytes) (a k : ℕ) : Call PutFile → Prop
  | waiting {p : PutFile} : p.Sending mode file k → CallAt mode file a k (.waiting p)
  | failed {c : TFTPClient} : CallAt mode file a k (.returned false c)
  | succeeded {c : TFTPClient} : a = payloads mode file + 1 →
      CallAt mode file a k (.returned true c)

/-- What one datagram of the server does to a waiting call. -/
theorem turn_fromServer (name : Bytes) {p : PutFile} (hp : p.Sending mode file k) (hka : k ≤ a)
    (hak : a ≤ k + 1) (ha : a < 65536) {d : Datagram} (hd : FromServer a d) (o : ClientOutcomes) :
    ∃ call out k', p.turn o (some d) = (call, out) ∧ k ≤ k' ∧ k' ≤ a ∧ a ≤ k' + 1 ∧
      k' ≤ payloads mode file ∧ CallAt mode file a k' call ∧
      ∀ d ∈ out, FromCall mode name file k' d := by
  rcases hd with ⟨code, rfl⟩ | ⟨j, hj, rfl⟩
  · obtain ⟨c, ht⟩ := PutFile.turn_error (p := p) (o := o) code
    exact ⟨_, _, k, ht, le_rfl, hka, hak, hp.le_payloads, .failed, by simp⟩
  by_cases hjk : UInt16.ofNat j = UInt16.ofNat k
  · obtain rfl : j = k := Bytes.ofNat_inj (by omega) (by omega) hjk
    rcases Nat.lt_or_eq_of_le hp.le_payloads with hlt | heq
    · cases hsend : o.sendOk with
      | false =>
        obtain ⟨c, ht⟩ := (hp.turn_next hlt).1 hsend
        exact ⟨_, _, j, ht, le_rfl, hka, hak, hp.le_payloads, .failed, by simp⟩
      | true =>
        obtain ⟨p', hp', ht⟩ := (hp.turn_next hlt).2 hsend
        refine ⟨_, _, j + 1, ht, by omega, by omega, by omega, hlt, .waiting hp', ?_⟩
        intro d hd
        exact .inr ⟨j, by omega, List.mem_singleton.mp hd⟩
    · exact ⟨_, _, j, hp.turn_last heq, le_rfl, hka, hak, hp.le_payloads,
        .succeeded (by omega), by simp⟩
  · obtain ⟨c, ht⟩ := PutFile.turn_unexpected (p := p) (o := o) (w := UInt16.ofNat j)
      (by rwa [hp.counter])
    exact ⟨_, _, k, ht, le_rfl, hka, hak, hp.le_payloads, .failed, by simp⟩

/-- The invariant of a run. -/
structure Inv (ep : Endpoint) (mode : TransferMode) (name file : Bytes) (a k : ℕ)
    (s : Net (Call PutFile) (Option TFTPServer) Datagram) : Prop where
  server : ∃ srv, s.right = some srv ∧ ServerAt ep mode name file s.handed a srv
  call : CallAt mode file a k s.left
  acked : k ≤ a ∧ a ≤ k + 1
  le_payloads : k ≤ payloads mode file
  toRight : ∀ d ∈ s.toRight, FromCall mode name file k d
  toLeft : ∀ d ∈ s.toLeft, FromServer a d

/-- The invariant holds as long as the 16-bit counter cannot have wrapped around. -/
def Safe (ep : Endpoint) (mode : TransferMode) (name file : Bytes)
    (s : Net (Call PutFile) (Option TFTPServer) Datagram) : Prop :=
  s.handed < 65535 → ∃ a k, Inv ep mode name file a k s

theorem Inv.client_step {s : Net (Call PutFile) (Option TFTPServer) Datagram}
    (h : Inv ep mode name file a k s) (hn : s.handed < 65535) {i : Option Datagram}
    {call : Call PutFile} {out : List Datagram} (hi : ∀ d ∈ i, d ∈ s.toLeft)
    (hr : clientReaction PutFile.turn (fun _ => True) s.left i call out) :
    ∃ a' k', Inv ep mode name file a' k' { s with left := call, toRight := s.toRight ++ out } := by
  obtain ⟨p, o, hcall, -, ht⟩ := hr
  obtain ⟨srv, hsrv, hat⟩ := h.server
  have hle := hat.le
  have hp : p.Sending mode file k := by
    have hc := h.call
    rw [hcall] at hc
    cases hc with
    | waiting hp => exact hp
  cases i with
  | none =>
    obtain ⟨rfl, rfl⟩ := Prod.mk.inj ht
    exact ⟨a, k, ⟨srv, hsrv, hat⟩, .failed, h.acked, h.le_payloads, by simpa using h.toRight,
      h.toLeft⟩
  | some d =>
    obtain ⟨_, _, k', ht', hk, hka, hak, hpay, hcall', hout⟩ :=
      turn_fromServer name hp h.acked.1 h.acked.2 (by omega) (h.toLeft d (hi d rfl)) o
    rw [ht'] at ht
    obtain ⟨rfl, rfl⟩ := Prod.mk.inj ht
    refine ⟨a, k', ⟨srv, hsrv, hat⟩, hcall', ⟨hka, hak⟩, hpay, fun e he => ?_, h.toLeft⟩
    rcases List.mem_append.mp he with he | he
    · exact (h.toRight e he).mono hk
    · exact hout e he

theorem Inv.server_step {s : Net (Call PutFile) (Option TFTPServer) Datagram}
    (h : Inv ep mode name file a k s) (hname : ValidName name)
    {i : Option Datagram} {right : Option TFTPServer} {out : List Datagram}
    (hn : s.handed + i.toList.length < 65535) (hi : ∀ d ∈ i, d ∈ s.toRight)
    (hr : serverReaction ep (fun srv i o => o.openOk = true ∧ ∀ d ∈ i, srv.GrantsNew d o)
      s.right i right out) :
    ∃ a' k', Inv ep mode name file a' k'
      { s with right := right, toLeft := s.toLeft ++ out,
               handed := s.handed + i.toList.length } := by
  obtain ⟨srv, hsrv, hat⟩ := h.server
  obtain ⟨hka, hak⟩ := h.acked
  rw [hsrv] at hr
  cases i with
  | none =>
    obtain ⟨rfl, rfl⟩ := serverReaction_failed hr
    exact ⟨a, k, ⟨srv, rfl, hat⟩, h.call, h.acked, h.le_payloads, h.toRight,
      by simpa using h.toLeft⟩
  | some d =>
    obtain ⟨o, ⟨hopen, hgrants⟩, hgo⟩ := serverReaction_received hr
    have hadv : ∃ srv' sent, srv.receive (.received ep d o) = some (srv', sent) ∧
        Advances ep mode name file s.handed a k srv' sent := by
      rcases h.toRight d (hi d rfl) with rfl | ⟨j, hj, rfl⟩
      · exact hat.receive_wrq hname hak hopen (hgrants _ rfl)
      · exact hat.receive_data hn hka hak h.le_payloads hj o
    obtain ⟨srv', sent, hrec, a', haa, hak', hat', hsent⟩ := hadv
    obtain ⟨rfl, rfl⟩ := hgo _ _ hrec
    refine ⟨a', k, ⟨srv', rfl, hat'⟩, ?_, ⟨by omega, hak'⟩, h.le_payloads, h.toRight, ?_⟩
    · have hpay := h.le_payloads
      have hcall := h.call
      cases hl : s.left with
      | waiting p =>
        rw [hl] at hcall
        cases hcall with
        | waiting hp => exact .waiting hp
      | returned b c =>
        rw [hl] at hcall
        cases hcall with
        | failed => exact .failed
        | succeeded ha => exact .succeeded (by omega)
      | aborted c =>
        rw [hl] at hcall
        cases hcall
    · intro e he
      rcases List.mem_append.mp he with he | he
      · exact (h.toLeft e he).mono haa
      · exact hsent e he

/-- A file of less than 512 bytes is put with two datagrams for the server. -/
theorem put_one_block (ep : Endpoint) (srv : TFTPServer) (c : TFTPClient) {src : Bytes}
    (Allowed : TFTPServer → Option Datagram → Outcomes → Prop) (hname : ValidName name)
    (hsrc : c.files.lookup src = some file)
    (hlast : payloads c.transferMode file = 1)
    (hfree : srv.files.lookup (srv.files.filePath name) = none) (hnone : srv.sessions ep = none)
    (hrequest : Allowed srv (some (requestMessage .wrq name c.transferMode)) {})
    (hblock : ∀ srv', srv'.Uploading ep c.transferMode (srv.files.denotes name) 0 [] →
      ∀ bytes, bytes.length ≤ 512 → Allowed srv' (some (dataMessage (UInt16.ofNat 1) bytes)) {}) :
    ∃ t c', Relation.ReflTransGen
        (Lossy (clientReaction PutFile.turn fun _ => True) (serverReaction ep Allowed))
        (start (c.putFile {} src name) srv) t ∧
      t.handed = 2 ∧ t.left = .returned true c' := by
  obtain ⟨p₀, hp₀, hcall⟩ := c.putFile_sending (o := {}) name hsrc rfl rfl
  rw [hcall]
  have hd := srv.requests_requestMessage .wrq c.transferMode hname
  obtain ⟨srv₁, hr₁, hup₁, -⟩ := (TFTPServer.unopened_of_none hnone).receive_granted (o := {}) hd
    ⟨rfl, rfl, hfree, rfl, rfl⟩ rfl
  obtain ⟨p₁, hp₁, ht₁⟩ := (hp₀.turn_next (o := {}) (by omega)).2 rfl
  have hle := payload_length_le c.transferMode file 0
  obtain ⟨srv₂, hr₂, -⟩ := hup₁.receive_expected hle {}
  have ht₂ := hp₁.turn_last (o := {}) (by omega)
  have h₁ := serverReaction_of_receive hrequest hr₁
  have h₂ := serverReaction_of_receive (hblock srv₁ hup₁ _ hle) hr₂
  refine ⟨_, _, .tail (.tail (.tail (.tail .refl (.right ?_ h₁))
    (.left ?_ ⟨p₀, {}, rfl, trivial, ht₁⟩)) (.right ?_ h₂))
    (.left ?_ ⟨p₁, {}, rfl, trivial, ht₂⟩), rfl, rfl⟩
  all_goals simp

/-- A PUT that returns success has stored the decoded source file, unless the server
received 65535 datagrams or more, or granted a request for a file that exists. -/
theorem putFile_safe (ep : Endpoint) (srv : TFTPServer) (c : TFTPClient) (o : ClientOutcomes)
    (src name : Bytes) (hname : ValidName name)
    (hfree : srv.files.lookup name = none) (hnone : srv.sessions ep = none)
    (t : Net (Call PutFile) (Option TFTPServer) Datagram)
    (hrun : Relation.ReflTransGen (Step ep TFTPServer.GrantsNew)
      (start (c.putFile o src name) srv) t)
    (hn : t.handed < 65535) (c' : TFTPClient) (hret : t.left = .returned true c') :
    ∃ file srv', c.files.lookup src = some file ∧ t.right = some srv' ∧
      srv'.files.lookup name = some (decode c.transferMode file) := by
  rcases c.putFile_cases o src name with ⟨c₁, hcall⟩ | ⟨file, p, hsrc, hp, hcall⟩
  · rw [hcall] at hrun
    have hleft := returned_forever (s := start (.returned false c₁, []) srv) rfl hrun
    rw [hret] at hleft
    cases hleft
  · rw [hcall] at hrun
    have hsafe : Safe ep c.transferMode name file t := by
      refine Lossy.invariant (Safe ep c.transferMode name file) ?_ ?_ ?_ hrun
      · intro s i call out hs hi hr hlt
        obtain ⟨a, k, hinv⟩ := hs hlt
        exact hinv.client_step hlt hi hr
      · intro s i right out hs hi hr hlt
        obtain ⟨a, k, hinv⟩ := hs (Nat.lt_of_le_of_lt (Nat.le_add_right _ _) hlt)
        exact hinv.server_step hname hlt hi hr
      · intro _
        refine ⟨0, 0, ⟨srv, rfl, .unopened (TFTPServer.unopened_of_none hnone) hfree⟩, .waiting hp,
          ⟨le_rfl, by omega⟩, Nat.zero_le _, ?_, by simp [start]⟩
        intro d hd
        exact .inl (List.mem_singleton.mp hd)
    obtain ⟨a, k, hinv⟩ := hsafe hn
    obtain ⟨srv', hright, hat⟩ := hinv.server
    refine ⟨file, srv', hsrc, hright, ?_⟩
    have hcall' := hinv.call
    rw [hret] at hcall'
    cases hcall' with
    | succeeded ha =>
      subst ha
      generalize hm : payloads c.transferMode file + 1 = m at hat
      cases hat with
      | unopened => omega
      | @storing _ m _ _ _ hup =>
        obtain ⟨_, -, -, -, -, -, -, hc⟩ := hup
        obtain rfl : payloads c.transferMode file = m := by omega
        rw [FileSystem.lookup, hc, stored_all]
      | complete _ _ hfile => exact hfile

theorem putFile_safe_three_bytes :
    ∃ t c', Relation.ReflTransGen (Step ⟨0, 0⟩ TFTPServer.GrantsNew)
        (start ((TFTPClient.init .binary (.single [99] [1, 2, 3])).putFile {} [99] [97])
          (.init (.single [98] []))) t ∧
      t.left = .returned true c' ∧
      ∃ srv', t.right = some srv' ∧ srv'.files.lookup [97] = some [1, 2, 3] := by
  have hname : ValidName [97] := ⟨by decide, by decide, by decide⟩
  have hsrc : (FileSystem.single [99] [1, 2, 3]).lookup [99] = some [1, 2, 3] := rfl
  have hgrants : ∀ {srv : TFTPServer} {d o}, srv.GrantsNew d o → ({} : Outcomes).openOk = true ∧
      ∀ d' ∈ some d, srv.GrantsNew d' o :=
    fun h => ⟨rfl, fun _ hd => by obtain rfl := Option.some.inj hd; exact h⟩
  obtain ⟨t, c', hrun, hhanded, hret⟩ := put_one_block ⟨0, 0⟩ (.init (.single [98] []))
    (.init .binary (.single [99] [1, 2, 3]))
    (fun srv i o => o.openOk = true ∧ ∀ d ∈ i, srv.GrantsNew d o) hname hsrc rfl rfl rfl
    (hgrants (TFTPServer.grantsNew_requestMessage _ hname (by decide)))
    (fun srv' _ bytes hb => hgrants (TFTPServer.grantsNew_of_word
      (srv'.recvBuffer.word_zero_dataMessage hb) (by decide)))
  obtain ⟨file, srv', hfile, hright, hstored⟩ :=
    putFile_safe _ _ _ _ _ _ hname rfl rfl t hrun (by omega) c' hret
  cases hfile
  exact ⟨t, c', hrun, hret, srv', hright, hstored⟩

/-- A second copy of a request that is granted again: the stream keeps the file that it has open
but writes no more, and the block is acknowledged. -/
theorem second_request_empties (ep : Endpoint) (srv : TFTPServer) (c : TFTPClient) {src : Bytes}
    (hname : ValidName name) (hsrc : c.files.lookup src = some file)
    (hlast : payloads c.transferMode file = 1)
    (hfree : srv.files.lookup (srv.files.filePath name) = none)
    (hother : srv.files.denotes (srv.files.filePath name) ≠ srv.files.denotes name)
    (hnone : srv.sessions ep = none) :
    ∃ t c' srv', Relation.ReflTransGen (Step ep fun _ _ _ => True)
        (start (c.putFile {} src name) srv) t ∧
      t.handed = 3 ∧ t.left = .returned true c' ∧ t.right = some srv' ∧
      srv'.files.lookup name = some [] := by
  obtain ⟨p₀, hp₀, hcall⟩ := c.putFile_sending (o := {}) name hsrc rfl rfl
  rw [hcall]
  have hd := srv.requests_requestMessage .wrq c.transferMode hname
  have hpass : TFTPSessionWrite.ChecksPass srv.files {} name := ⟨rfl, rfl, hfree, rfl, rfl⟩
  obtain ⟨srv₁, hr₁, hup₁, hfiles₁⟩ :=
    (TFTPServer.unopened_of_none hnone).receive_granted hd hpass rfl
  have hfree₁ : srv₁.files.lookup (srv₁.files.filePath name) = none := by
    rw [hfiles₁]
    exact (FileSystem.create_content_of_ne srv.files _ hother).trans hfree
  obtain ⟨srv₂, hr₂, hstuck, hfiles₂⟩ := hup₁.receive_granted (o := {})
    (srv₁.requests_requestMessage .wrq c.transferMode hname) ⟨rfl, rfl, hfree₁, rfl, rfl⟩
  obtain ⟨p₁, hp₁, ht₁⟩ := (hp₀.turn_next (o := {}) (by omega)).2 rfl
  obtain ⟨srv₃, hr₃, hfiles₃, -⟩ :=
    hstuck.receive_expected (payload_length_le c.transferMode file 0) {}
  have ht₂ := hp₁.turn_last (o := {}) (by omega)
  have hmeets : ∀ d : Datagram, ({} : Outcomes).openOk = true ∧ ∀ e ∈ some d, True :=
    fun _ => ⟨rfl, fun _ _ => trivial⟩
  refine ⟨_, _, srv₃, .tail (.tail (.tail (.tail (.tail .refl
    (.right ?_ (serverReaction_of_receive (hmeets _) hr₁)))
    (.right ?_ (serverReaction_of_receive (hmeets _) hr₂)))
    (.left ?_ ⟨p₀, {}, rfl, trivial, ht₁⟩))
    (.right ?_ (serverReaction_of_receive (hmeets _) hr₃)))
    (.left ?_ ⟨p₁, {}, rfl, trivial, ht₂⟩), rfl, rfl, rfl, ?_⟩
  case refine_6 =>
    rw [hfiles₃, hfiles₂, hfiles₁]
    exact FileSystem.create_content_self _ _
  all_goals simp

theorem absolute_name_empties :
    ValidName (chars "/x") ∧ TFTPServer.absoluteHost.lookup (chars "/x") = none ∧
    ∃ t c' srv', Relation.ReflTransGen (Step ⟨0, 0⟩ fun _ _ _ => True)
        (start ((TFTPClient.init .binary (.single [99] [1, 2, 3])).putFile {} [99] (chars "/x"))
          (.init TFTPServer.absoluteHost)) t ∧
      t.handed < 65535 ∧ t.left = .returned true c' ∧ t.right = some srv' ∧
      srv'.files.lookup (chars "/x") ≠ some [1, 2, 3] := by
  have hname : ValidName (chars "/x") := ⟨by decide, by decide, by decide⟩
  have hsrc : (FileSystem.single [99] [1, 2, 3]).lookup [99] = some [1, 2, 3] := rfl
  obtain ⟨t, c', srv', hrun, hhanded, hret, hright, hfile⟩ := second_request_empties ⟨0, 0⟩
    (.init TFTPServer.absoluteHost) (.init .binary (.single [99] [1, 2, 3])) hname hsrc rfl rfl
    (by decide) rfl
  refine ⟨hname, rfl, t, c', srv', hrun, by omega, hret, hright, ?_⟩
  rw [hfile]
  decide

end LossyPut
end Tftp
end NetworkProtocols
