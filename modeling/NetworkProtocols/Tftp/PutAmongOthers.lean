import NetworkProtocols.Tftp.OtherClients
import NetworkProtocols.Tftp.ReliablePut

/-!
# PUT while other clients are served

The session of an upload is the only one that writes its file, so what the other clients send
reaches neither the session nor the file. Another client may create the file first; the request
is then refused, unless it is for an absolute name.
-/

namespace NetworkProtocols
namespace Tftp
namespace PutAmongOthers

open Channel FileSafety OtherClients ReliablePut TFTPServer

variable {ep : Endpoint} {mode : TransferMode} {name file : Bytes}
variable {Allowed : TFTPServer → Datagram → Prop} {s t : Option TFTPServer} {k : ℕ}
variable {srv srv' : TFTPServer} {sent : List Packet}

def Final (ep : Endpoint) (name : Bytes) (srv : TFTPServer) : Prop :=
  srv.sessions ep = none → ∀ bytes, srv.files.lookup name = some bytes →
    srv.store.Sealed (srv.files.denotes name) bytes

theorem writer_of_uploading {p : Path} {content : Bytes}
    (h : srv.Uploading ep mode p k content) : srv.store.writer ep = some p := by
  obtain ⟨s, hs, -, -, -, -, hout, -⟩ := h
  have hwriter : srv.store.writer ep = (srv.sessions ep).bind Session.writes := rfl
  rw [hwriter, hs, Option.bind_some, Session.writes, hout]

theorem final_of_writer (hv : srv.store.Valid)
    (hw : srv.store.writer ep = some (srv.files.denotes name)) {d : Datagram} {o : Outcomes}
    (hgo : srv.receive (.received ep d o) = some (srv', sent)) : Final ep name srv' := by
  intro hnone bytes hfile
  refine ⟨hfile, fun remote hremote => ?_⟩
  rw [receive_naming hgo] at hremote
  have hwriter : srv'.store.writer remote = (srv'.sessions remote).bind Session.writes := rfl
  rw [hwriter] at hremote
  by_cases hep : remote = ep
  · rw [hep, hnone] at hremote
    cases hremote
  · rw [sessions_of_ne hgo (Ne.symm hep)] at hremote
    exact hep (hv.unique remote ep _ hremote hw)

/-- The server has stored `k` blocks, and no other session writes to them. -/
def Holds (ep : Endpoint) (mode : TransferMode) (name file : Bytes) (k : ℕ)
    (s : Option TFTPServer) : Prop :=
  ∃ srv, s = some srv ∧ srv.store.Valid ∧ Final ep name srv ∧
    Acknowledged ep mode name file k srv

def Ready (ep : Endpoint) (s : Option TFTPServer) : Prop :=
  ∃ srv, s = some srv ∧ srv.store.Valid ∧ srv.sessions ep = none

/-- What a service of others leaves as it is. -/
theorem serves_cases (hs : Serves ep Allowed (some srv) t) (hv : srv.store.Valid) :
    ∃ srv', t = some srv' ∧ srv'.store.Valid ∧ srv'.sessions ep = srv.sessions ep ∧
      srv'.files.toNaming = srv.files.toNaming ∧
      (∀ p, srv.store.writer ep = some p → srv'.files.content p = srv.files.content p) ∧
      (∀ p bytes, srv.store.Sealed p bytes → srv'.store.Sealed p bytes) := by
  obtain ⟨_, srv', c, packets, heq, rfl, hgo, hc⟩ := hs
  obtain rfl := Option.some.inj heq
  have hgrants := Serves.grantedNew hc
  refine ⟨srv', rfl, receive_valid hv hgo hgrants, ?_, receive_naming hgo, fun p hp => ?_,
    fun p bytes hp => receive_sealed hp hgo hgrants⟩
  · cases c with
    | failed =>
      cases hgo
      rfl
    | received remote d o => exact sessions_of_ne hgo (hc remote d o rfl).1
  · cases c with
    | failed =>
      cases hgo
      rfl
    | received remote d o => exact (upload_of_ne hgo hgrants hv (hc remote d o rfl).1 hp).2

theorem Ready.serves (h : Ready ep s) (hs : Serves ep Allowed s t) : Ready ep t := by
  obtain ⟨srv, rfl, hv, hnone⟩ := h
  obtain ⟨srv', rfl, hv', hsessions, -⟩ := serves_cases hs hv
  exact ⟨srv', rfl, hv', hsessions.trans hnone⟩

theorem Holds.serves (h : Holds ep mode name file k s) (hs : Serves ep Allowed s t) :
    Holds ep mode name file k t := by
  obtain ⟨srv, rfl, hv, hfinal, hfile, hsession⟩ := h
  obtain ⟨srv', rfl, hv', hsessions, hnaming, hwritten, hsealed⟩ := serves_cases hs hv
  refine ⟨srv', rfl, hv', ?_⟩
  by_cases hlast : k = payloads mode file
  · rw [if_pos hlast] at hsession
    have hkeep := hsealed _ _ (hfinal hsession _ hfile)
    have hfile' : srv'.files.lookup name = some (stored mode file k) := by
      rw [FileSystem.lookup, hnaming]
      exact hkeep.1
    refine ⟨fun _ bytes hbytes => ?_, hfile', ?_⟩
    · rw [hfile'] at hbytes
      rw [← Option.some.inj hbytes, hnaming]
      exact hkeep
    · rw [if_pos hlast]
      exact hsessions.trans hsession
  · rw [if_neg hlast] at hsession
    have hcontent := hwritten _ (writer_of_uploading hsession)
    obtain ⟨u, hu, hep, hact, hmode, hcount, hout, hc⟩ := hsession
    refine ⟨fun hnone => ?_, ?_, ?_⟩
    · rw [hsessions, hu] at hnone
      cases hnone
    · rw [FileSystem.lookup, hnaming, hcontent, hc]
    · rw [if_neg hlast, hnaming]
      exact ⟨u, hsessions.trans hu, hep, hact, hmode, hcount, hout, hcontent.trans hc⟩

/-- A datagram on its way to the call: the ACK of the last block sent, or an ERROR. -/
inductive ToCall (ep : Endpoint) (mode : TransferMode) (name file : Bytes) :
    Call PutFile → Option TFTPServer → Datagram → Prop
  | ack {p s k} : k ≤ payloads mode file → p.Sending mode file k →
      Holds ep mode name file k s →
      ToCall ep mode name file (.waiting p) s (ackMessage (UInt16.ofNat k))
  | error {p s d} : IsError d → ToCall ep mode name file (.waiting p) s d

/-- A datagram on its way to the server: the request, or the next block. -/
inductive ToServer (ep : Endpoint) (mode : TransferMode) (name file : Bytes) :
    Call PutFile → Option TFTPServer → Datagram → Prop
  | request {p s} : p.Sending mode file 0 → Ready ep s →
      ToServer ep mode name file (.waiting p) s (requestMessage .wrq name mode)
  | block {p s k} : k < payloads mode file → p.Sending mode file (k + 1) →
      Holds ep mode name file k s → ToServer ep mode name file (.waiting p) s
        (dataMessage (UInt16.ofNat (k + 1)) (payload mode file k))

/-- Nothing is in flight: the call waits, or it has returned success and the server has the
file. -/
def Quiet (ep : Endpoint) (mode : TransferMode) (name file : Bytes) (call : Call PutFile)
    (s : Option TFTPServer) : Prop :=
  (∃ p, call = .waiting p) ∨
    ∃ c, call = .returned true c ∧ Holds ep mode name file (payloads mode file) s

def Failed (call : Call PutFile) (_ : Option TFTPServer) : Prop := ∃ c, call = .returned false c

/-- The server may refuse a request or fail to send, but can open the file that it creates, and
grants no request for a file that exists. -/
def Meets (srv : TFTPServer) (i : Option Datagram) (o : Outcomes) : Prop :=
  o.openOk = true ∧ ∀ d ∈ i, srv.GrantsNew d o

abbrev Step (ep : Endpoint) :=
  Once (clientReaction PutFile.turn fun _ => True) (serverReaction ep Meets)

theorem Ready.receive_request (h : Ready ep s) (file : Bytes) (hname : ValidName name)
    {out : List Datagram}
    (hr : serverReaction ep Meets s (some (requestMessage .wrq name mode)) t out) :
    out = [] ∨ ∃ d, out = [d] ∧ (IsError d ∨
      Holds ep mode name file 0 t ∧ d = ackMessage (UInt16.ofNat 0)) := by
  obtain ⟨srv, rfl, hv, hnone⟩ := h
  obtain ⟨o, ⟨hopen, hgrants⟩, hgo⟩ := serverReaction_received hr
  have hreq := srv.requests_requestMessage .wrq mode hname
  by_cases hpass : TFTPSessionWrite.ChecksPass srv.files o name
  · obtain ⟨srv', hrec, hup, hfiles⟩ := (unopened_of_none hnone).receive_granted hreq hpass hopen
    obtain ⟨rfl, rfl⟩ := hgo _ _ hrec
    have hfirst : ¬ 0 = payloads mode file := (Blocks.count_pos _).ne
    have hden : srv'.files.denotes = srv.files.denotes := by rw [hfiles]; rfl
    have hholds : Holds ep mode name file 0 (some srv') := by
      rw [← hden] at hup
      refine ⟨srv', rfl, receive_valid hv hrec (hgrants _ rfl), fun hgone => ?_, ?_, ?_⟩
      · obtain ⟨u, hu, -⟩ := hup
        rw [hgone] at hu
        cases hu
      · obtain ⟨_, -, -, -, -, -, -, hc⟩ := hup
        rw [stored_zero]
        exact hc
      · rw [if_neg hfirst, stored_zero]
        exact hup
    rcases sentTo_send ep o (ackMessage 0) with hout | hout
    · exact .inl hout
    · exact .inr ⟨_, hout, .inr ⟨hholds, rfl⟩⟩
  · obtain ⟨srv', sent, hrec, -, -, herror⟩ :=
      (unopened_of_none hnone).receive_refused hreq hpass
    obtain ⟨-, rfl⟩ := hgo _ _ hrec
    rcases herror with rfl | ⟨code, rfl⟩
    · exact .inl rfl
    · exact .inr ⟨_, sentTo_singleton _ _, .inl ⟨code, rfl⟩⟩

/-- The next block is stored by whatever environment, and acknowledged when the send succeeds. -/
theorem Holds.receive_block (h : Holds ep mode name file k s) (hk : k < payloads mode file)
    {Allowed : TFTPServer → Option Datagram → Outcomes → Prop} {out : List Datagram}
    (hr : serverReaction ep Allowed s
      (some (dataMessage (UInt16.ofNat (k + 1)) (payload mode file k))) t out) :
    out = [] ∨ Holds ep mode name file (k + 1) t ∧ out = [ackMessage (UInt16.ofNat (k + 1))] := by
  obtain ⟨srv, rfl, hv, -, hack⟩ := h
  obtain ⟨o, -, hgo⟩ := serverReaction_received hr
  have hup := hack.2
  rw [if_neg hk.ne] at hup
  cases hsend : o.sendOk with
  | false =>
    obtain ⟨srv', hrec, -⟩ := hup.receive_expected (payload_length_le mode file k) o
    obtain ⟨-, rfl⟩ := hgo _ _ hrec
    rw [hsend]
    exact .inl rfl
  | true =>
    obtain ⟨srv', hrec, hack'⟩ := hack.data hk hsend
    obtain ⟨rfl, rfl⟩ := hgo _ _ hrec
    have hgrants := grantsNew_dataMessage (s := srv) (o := o) (UInt16.ofNat (k + 1))
      (payload_length_le mode file k)
    refine .inr ⟨⟨srv', rfl, receive_valid hv hrec hgrants, ?_, hack'⟩, sentTo_singleton _ _⟩
    exact final_of_writer hv (writer_of_uploading hup) hrec

/-- The call sends the next block, returns success after the last one, or gives up. -/
theorem ToCall.turn {call call' : Call PutFile} {d : Datagram} {o : ClientOutcomes}
    {p : PutFile} {out : List Datagram} (h : ToCall ep mode name file call s d)
    (hcall : call = .waiting p) (ht : p.turn o (some d) = (call', out)) :
    Failed call' s ∨ out = [] ∧ Quiet ep mode name file call' s ∨
      ∃ d', out = [d'] ∧ ToServer ep mode name file call' s d' := by
  cases h with
  | @ack p' _ k hk hp hs =>
    obtain rfl := Call.waiting.inj hcall
    rcases Nat.lt_or_eq_of_le hk with hlt | rfl
    · cases hsend : o.sendOk with
      | false =>
        obtain ⟨c, ht'⟩ := (hp.turn_next hlt).1 hsend
        rw [ht'] at ht
        obtain ⟨rfl, rfl⟩ := Prod.mk.inj ht
        exact .inl ⟨c, rfl⟩
      | true =>
        obtain ⟨p'', hp'', ht'⟩ := (hp.turn_next hlt).2 hsend
        rw [ht'] at ht
        obtain ⟨rfl, rfl⟩ := Prod.mk.inj ht
        exact .inr (.inr ⟨_, rfl, .block hlt hp'' hs⟩)
    · rw [hp.turn_last rfl] at ht
      obtain ⟨rfl, rfl⟩ := Prod.mk.inj ht
      exact .inr (.inl ⟨rfl, .inr ⟨_, rfl, hs⟩⟩)
  | error he =>
    obtain rfl := Call.waiting.inj hcall
    obtain ⟨code, rfl⟩ := he
    obtain ⟨c, ht'⟩ := PutFile.turn_error (o := o) code
    rw [ht'] at ht
    obtain ⟨rfl, rfl⟩ := Prod.mk.inj ht
    exact .inl ⟨c, rfl⟩

theorem rules (Allowed : TFTPServer → Datagram → Prop) (hname : ValidName name) :
    LockstepRules (clientReaction PutFile.turn fun _ => True)
      (serverReaction ep Meets) (Serves ep Allowed)
      (ToCall ep mode name file) (ToServer ep mode name file) (Quiet ep mode name file) Failed where
  left := by
    rintro call s d call' out hm ⟨p, o, hcall, -, ht⟩
    exact hm.turn hcall ht
  right := by
    intro call s d s' out hm hr
    cases hm with
    | request hp hready =>
      rcases hready.receive_request file hname hr with rfl | ⟨d, rfl, he | ⟨hs, rfl⟩⟩
      · exact .inl ⟨rfl, .inl ⟨_, rfl⟩⟩
      · exact .inr ⟨d, rfl, .error he⟩
      · exact .inr ⟨_, rfl, .ack (Nat.zero_le _) hp hs⟩
    | block hk hp hs =>
      rcases hs.receive_block hk hr with rfl | ⟨hs', rfl⟩
      · exact .inl ⟨rfl, .inl ⟨_, rfl⟩⟩
      · exact .inr ⟨_, rfl, .ack hk hp hs'⟩
  lostLeft := by
    rintro call s d (_ | _)
    · exact .inl ⟨_, rfl⟩
    · exact .inl ⟨_, rfl⟩
  lostRight := by
    rintro call s d (_ | _)
    · exact .inl ⟨_, rfl⟩
    · exact .inl ⟨_, rfl⟩
  leftFails := by
    rintro call s call' out - ⟨p, o, -, -, ht⟩
    cases ht
    exact ⟨_, rfl⟩
  rightFails := by
    intro s s' out hr
    have hserver := hr
    obtain ⟨srv, o, rfl, -, -⟩ := hserver
    exact serverReaction_failed hr
  overLeft := by
    rintro call s i call' out ⟨c, rfl⟩ ⟨p, o, hcall, -, -⟩
    cases hcall
  overRight := fun h _ => h
  others := by
    intro call s s' hs
    refine ⟨fun d hm => ?_, fun d hm => ?_, ?_, id⟩
    · cases hm with
      | ack hk hp hholds => exact .ack hk hp (hholds.serves hs)
      | error he => exact .error he
    · cases hm with
      | request hp hready => exact .request hp (hready.serves hs)
      | block hk hp hholds => exact .block hk hp (hholds.serves hs)
    · rintro (hwait | ⟨c, hret, hholds⟩)
      · exact .inl hwait
      · exact .inr ⟨c, hret, hholds.serves hs⟩

/-- Whatever is lost, delayed or refused and whatever other clients send in between, the server has
the decoded file from when a PUT returns success on, and the call never aborts. -/
theorem putFile_safe_among_others (ep : Endpoint) (srv : TFTPServer) (c : TFTPClient)
    (o : ClientOutcomes) (src name file : Bytes) (hname : ValidName name)
    (hsrc : c.files.lookup src = some file) (files : FileSystem) (hreach : Reachable srv files)
    (hnone : srv.sessions ep = none) (t : Net (Call PutFile) (Option TFTPServer) Datagram)
    (hrun : Relation.ReflTransGen
      (fun s t => ∃ mine, Among (Step ep) (Serves ep fun _ _ => True) s mine t)
      (start (c.putFile o src name) srv) t) :
    (∀ c', t.left ≠ .aborted c') ∧
      ∀ c', t.left = .returned true c' →
        ∃ srv', t.right = some srv' ∧
          srv'.files.lookup name = some (decode c.transferMode file) := by
  have hstart : Lockstep (ToCall ep c.transferMode name file)
      (ToServer ep c.transferMode name file) (Quiet ep c.transferMode name file) Failed
      (start (c.putFile o src name) srv) := by
    rcases c.putFile_cases o src name with ⟨c₁, hcall⟩ | ⟨file', p, hsrc', hp, hcall⟩
    · rw [hcall]
      exact .ended ⟨c₁, rfl⟩
    · rw [hsrc] at hsrc'
      obtain rfl := Option.some.inj hsrc'
      rw [hcall]
      exact .toRight (.request hp ⟨srv, rfl, Reachable.valid hreach, hnone⟩)
  rcases (hstart.invariant (rules (fun _ _ => True) hname) hrun).quiet_or_over
    (rules (fun _ _ => True) hname) with ⟨c₁, hcall⟩ | ⟨p, hcall⟩ | ⟨c₁, hcall, srv', hsrv, hholds⟩
  · rw [hcall]
    exact ⟨fun c' h => (nomatch h), fun c' h => (nomatch h)⟩
  · rw [hcall]
    exact ⟨fun c' h => (nomatch h), fun c' h => (nomatch h)⟩
  · rw [hcall]
    refine ⟨fun c' h => (nomatch h), fun c' _ => ⟨srv', hsrv, ?_⟩⟩
    rw [hholds.2.2.1, stored_all]

/-- An upload of one block: the request and the block, each with its ACK. -/
theorem put_one_block (ep : Endpoint) {p : PutFile} (n : ℕ) (hname : ValidName name)
    (hp : p.Sending mode file 0)
    (hfree : srv.files.lookup (srv.files.filePath name) = none)
    (hgrants : srv.GrantsNew (requestMessage .wrq name mode) {})
    (hlast : payloads mode file = 1) (hnone : srv.sessions ep = none) :
    ∃ t c', Relation.ReflTransGen (Step ep)
        ⟨.waiting p, some srv, [], [requestMessage .wrq name mode], n⟩ t ∧
      t.left = .returned true c' := by
  obtain ⟨srv₁, hr₁, hack₁⟩ :=
    acknowledged_request mode file hname hnone hfree granted_default
  obtain ⟨p', hp', ht₁⟩ := (hp.turn_next (o := {}) (by omega)).2 rfl
  obtain ⟨srv₂, hr₂, -⟩ := hack₁.data (o := {}) (by omega) rfl
  have ht₂ := hp'.turn_last (o := {}) (by omega)
  have h₁ : serverReaction ep Meets _ _ _ _ :=
    serverReaction_of_receive ⟨rfl, fun _ hd => Option.some.inj hd ▸ hgrants⟩ hr₁
  have h₂ : clientReaction PutFile.turn (fun _ => True) _ _ _ _ := ⟨p, {}, rfl, trivial, ht₁⟩
  have hblock : srv₁.GrantsNew (dataMessage (UInt16.ofNat (0 + 1)) (payload mode file 0)) {} :=
    grantsNew_dataMessage _ (payload_length_le mode file 0)
  have h₃ : serverReaction ep Meets _ _ _ _ :=
    serverReaction_of_receive ⟨rfl, fun _ hd => Option.some.inj hd ▸ hblock⟩ hr₂
  have h₄ : clientReaction PutFile.turn (fun _ => True) _ _ _ _ := ⟨p', {}, rfl, trivial, ht₂⟩
  rw [sentTo_singleton] at h₁ h₃
  have hrun : Relation.ReflTransGen (Step ep)
      ⟨.waiting p, some srv, [], [requestMessage .wrq name mode], n⟩ _ :=
    .tail (.tail (.tail (.single (.right_only h₁)) (.left_only h₂))
      (.right_only h₃)) (.left_only h₄)
  exact ⟨_, _, hrun, rfl⟩

theorem putFile_safe_among_others_download :
    ∃ t c' srv', Relation.ReflTransGen
        (fun s t => ∃ mine, Among (Step ⟨0, 0⟩) (Serves ⟨0, 0⟩ fun _ _ => True) s mine t)
        (start ((TFTPClient.init .binary (.single [99] [1, 2, 3])).putFile {} [99] [97])
          (.init (.single [98] [7]))) t ∧
      t.left = .returned true c' ∧ t.right = some srv' ∧
        srv'.files.lookup [97] = some [1, 2, 3] := by
  have hname : ValidName [97] := ⟨by decide, by decide, by decide⟩
  obtain ⟨p, hp, hcall⟩ := @TFTPClient.putFile_sending (.init .binary (.single [99] [1, 2, 3])) {}
    [99] [97] _ rfl rfl rfl
  obtain ⟨⟨srv, sent⟩, hreceive, hnone, hfree⟩ : ∃ r, TFTPServer.receive (.init (.single [98] [7]))
        (.received ⟨1, 1⟩ (requestMessage .rrq [98] .binary) {}) = some r ∧
      r.1.sessions ⟨0, 0⟩ = none ∧ r.1.files.lookup (r.1.files.filePath [97]) = none :=
    ⟨_, rfl, rfl, rfl⟩
  have hother : Serves ⟨0, 0⟩ (fun _ _ => True) (some (.init (.single [98] [7]))) (some srv) :=
    ⟨_, _, _, _, rfl, rfl, hreceive, fun _ _ _ h => by
      cases h
      exact ⟨by decide, grantsNew_rrq [98] .binary, trivial⟩⟩
  obtain ⟨t, c', hrun, hret⟩ := put_one_block ⟨0, 0⟩ 0 hname hp hfree
    (grantsNew_requestMessage .binary hname (by decide)) rfl hnone
  have hall : Relation.ReflTransGen
      (fun s t => ∃ mine, Among (Step ⟨0, 0⟩) (Serves ⟨0, 0⟩ fun _ _ => True) s mine t)
      (start ((TFTPClient.init .binary (.single [99] [1, 2, 3])).putFile {} [99] [97])
        (.init (.single [98] [7]))) t := by
    rw [hcall]
    exact .trans (.single ⟨false, .others hother⟩) (hrun.lift id fun _ _ h => ⟨true, .own h⟩)
  obtain ⟨srv', hsrv, hfile⟩ := (putFile_safe_among_others ⟨0, 0⟩ (.init (.single [98] [7])) _ _ _
    _ [1, 2, 3] hname rfl (.single [98] [7]) ⟨[], [], rfl, trivial⟩ rfl t hall).2 c' hret
  exact ⟨t, c', srv', hall, hret, hsrv, hfile⟩

/-- The server receives no request of another client to write the file of this name, or the one that
it looks up for this name. -/
def NotAsked (name : Bytes) (srv : TFTPServer) (d : Datagram) : Prop :=
  ∀ path ∈ [name, srv.files.filePath name],
    ¬ AsksToStore srv.files (srv.recvBuffer.fill d) (srv.files.denotes path)

/-- A stage of the run, in which nobody else writes the file. -/
def GuardedStage (ep : Endpoint) (mode : TransferMode) (name file : Bytes) (n : ℕ)
    (s : Net (Call PutFile) (Option TFTPServer) Datagram) : Prop :=
  ReliablePut.Stage ep mode name file n s ∧
    ∃ srv, s.right = some srv ∧ srv.store.Valid ∧ Final ep name srv ∧
      (2 * payloads mode file + 2 ≤ n → srv.files.lookup name = none)

theorem final_of_missing (h : srv.files.lookup name = none) : Final ep name srv := by
  intro _ bytes hbytes
  rw [h] at hbytes
  cases hbytes

theorem final_of_session {session : Session} (h : srv.sessions ep = some session) :
    Final ep name srv := by
  intro hnone
  rw [h] at hnone
  cases hnone

theorem GuardedStage.step {n : ℕ} {s t : Net (Call PutFile) (Option TFTPServer) Datagram}
    (h : GuardedStage ep mode name file (n + 1) s) (hname : ValidName name)
    (hst : ReliablePut.Step ep s t) : GuardedStage ep mode name file n t := by
  obtain ⟨hstage, srv, hsrv, hv, hfinal, hmissing⟩ := h
  refine ⟨hstage.step hname hst, ?_⟩
  generalize hm : n + 1 = m at hstage
  cases hstage with
  | @request _ srv₁ _ _ hcount hp hnone hfree =>
    obtain rfl := Option.some.inj hsrv
    obtain ⟨_, _, hr, rfl⟩ := hst.only_right
    obtain ⟨o, ho, hgo⟩ := serverReaction_received hr
    obtain ⟨srv', hrec, -, hsession⟩ := acknowledged_request mode file hname hnone hfree ho
    obtain ⟨rfl, -⟩ := hgo _ _ hrec
    have hfirst : ¬ 0 = payloads mode file := (Blocks.count_pos _).ne
    rw [if_neg hfirst] at hsession
    obtain ⟨u, hu, -⟩ := hsession
    have hgrants : srv₁.GrantsNew (requestMessage .wrq name mode) o :=
      grantsNew_of_missing hname (hmissing (by omega))
    exact ⟨srv', rfl, receive_valid hv hrec hgrants, final_of_session hu, by omega⟩
  | ack hk hcount hp hs =>
    obtain ⟨_, _, -, rfl⟩ := hst.only_left
    exact ⟨srv, hsrv, hv, hfinal, by omega⟩
  | @data _ srv₁ k _ _ hk hcount hp hs =>
    obtain rfl := Option.some.inj hsrv
    obtain ⟨_, _, hr, rfl⟩ := hst.only_right
    obtain ⟨o, ho, hgo⟩ := serverReaction_received hr
    obtain ⟨srv', hrec, -⟩ := hs.data hk ho.1
    obtain ⟨rfl, -⟩ := hgo _ _ hrec
    have hup := hs.2
    rw [if_neg hk.ne] at hup
    have hgrants := grantsNew_dataMessage (s := srv₁) (o := o) (UInt16.ofNat (k + 1))
      (payload_length_le mode file k)
    exact ⟨srv', rfl, receive_valid hv hrec hgrants,
      final_of_writer hv (writer_of_uploading hup) hrec, by omega⟩
  | last _ => omega

theorem Acknowledged.serves (hs : Serves ep Allowed (some srv) t) (hv : srv.store.Valid)
    (hfinal : Final ep name srv) (hack : Acknowledged ep mode name file k srv) :
    ∃ srv', t = some srv' ∧ srv'.store.Valid ∧ Final ep name srv' ∧
      Acknowledged ep mode name file k srv' :=
  Holds.serves ⟨srv, rfl, hv, hfinal, hack⟩ hs

theorem missing_of_serves (hs : Serves ep (NotAsked name) (some srv) t) {path : Bytes}
    (hpath : path ∈ [name, srv.files.filePath name]) (hfree : srv.files.lookup path = none) :
    ∃ srv', t = some srv' ∧ srv'.files.lookup path = none := by
  obtain ⟨_, srv', c, packets, heq, rfl, hgo, hc⟩ := hs
  obtain rfl := Option.some.inj heq
  refine ⟨srv', rfl, ?_⟩
  cases c with
  | failed =>
    cases hgo
    exact hfree
  | received remote d o =>
    obtain ⟨hnaming, hcreates⟩ := receive_creates hgo
    rw [FileSystem.lookup, hnaming]
    by_contra hsome
    exact (hc remote d o rfl).2.2 path hpath
      (hcreates _ hfree (Option.isSome_iff_ne_none.mpr hsome))

theorem GuardedStage.serves {n : ℕ} {net : Net (Call PutFile) (Option TFTPServer) Datagram}
    (h : GuardedStage ep mode name file n net) (hs : Serves ep (NotAsked name) net.right t) :
    GuardedStage ep mode name file n { net with right := t } := by
  obtain ⟨hstage, srv, hsrv, hv, hfinal, hmissing⟩ := h
  rw [hsrv] at hs
  cases hstage with
  | request hcount hp hnone hfree =>
    obtain rfl := Option.some.inj hsrv
    obtain ⟨srv', rfl, hv', hsessions, hnaming, -⟩ := serves_cases hs hv
    obtain ⟨_, heq, hfree'⟩ := missing_of_serves hs (by simp) hfree
    obtain rfl := Option.some.inj heq
    obtain ⟨_, heq, hmissing'⟩ := missing_of_serves hs (by simp) (hmissing (by omega))
    obtain rfl := Option.some.inj heq
    rw [← hnaming] at hfree'
    exact ⟨.request hcount hp (hsessions.trans hnone) hfree', srv', rfl, hv',
      final_of_missing hmissing', fun _ => hmissing'⟩
  | ack hk hcount hp hack =>
    obtain rfl := Option.some.inj hsrv
    obtain ⟨srv', rfl, hv', hfinal', hack'⟩ := Acknowledged.serves hs hv hfinal hack
    exact ⟨.ack hk hcount hp hack', srv', rfl, hv', hfinal', by omega⟩
  | data hk hcount hp hack =>
    obtain rfl := Option.some.inj hsrv
    obtain ⟨srv', rfl, hv', hfinal', hack'⟩ := Acknowledged.serves hs hv hfinal hack
    exact ⟨.data hk hcount hp hack', srv', rfl, hv', hfinal', by omega⟩
  | last hack =>
    obtain rfl := Option.some.inj hsrv
    obtain ⟨srv', rfl, hv', hfinal', hack'⟩ := Acknowledged.serves hs hv hfinal hack
    exact ⟨.last hack', srv', rfl, hv', hfinal', by omega⟩

/-- Unless another client asks to write the same file, or the one that is looked up for its name, a
PUT over a reliable network takes two steps for its request and two for every block, and then it
has returned success and the server has the decoded file. -/
theorem putFile_completes_among_others (ep : Endpoint) (srv : TFTPServer) (c : TFTPClient)
    (o : ClientOutcomes) (src name file : Bytes) (hname : ValidName name)
    (hsrc : c.files.lookup src = some file) (hmissing : srv.files.lookup name = none)
    (hfree : srv.files.lookup (srv.files.filePath name) = none)
    (files : FileSystem) (hreach : Reachable srv files) (hnone : srv.sessions ep = none)
    (hopen : o.openOk = true) (hsend : o.sendOk = true) (n : ℕ)
    (t : Net (Call PutFile) (Option TFTPServer) Datagram)
    (hrun : Transition.Counted (Among (ReliablePut.Step ep) (Serves ep (NotAsked name)))
      (start (c.putFile o src name) srv) n t) :
    n ≤ 2 * payloads c.transferMode file + 2 ∧
    (n < 2 * payloads c.transferMode file + 2 → ∃ u, ReliablePut.Step ep t u) ∧
    (n = 2 * payloads c.transferMode file + 2 → ∃ c' srv', t.left = .returned true c' ∧
      t.right = some srv' ∧ srv'.files.lookup name = some (decode c.transferMode file) ∧
      srv'.sessions ep = none ∧ t.toLeft = [] ∧ t.toRight = []) := by
  obtain ⟨p, hp, hcall⟩ := c.putFile_sending name hsrc hopen hsend
  rw [hcall] at hrun
  have hstart : GuardedStage ep c.transferMode name file
      (2 * payloads c.transferMode file + 2)
      (start (.waiting p, [requestMessage .wrq name c.transferMode]) srv) :=
    ⟨.request rfl hp hnone hfree, srv, rfl, Reachable.valid hreach, final_of_missing hmissing,
      fun _ => hmissing⟩
  have hlast : ∀ s, GuardedStage ep c.transferMode name file 0 s →
      ∃ c' srv', s.left = .returned true c' ∧ s.right = some srv' ∧
        srv'.files.lookup name = some (decode c.transferMode file) ∧ srv'.sessions ep = none ∧
        s.toLeft = [] ∧ s.toRight = [] := by
    rintro s ⟨hstage, -⟩
    generalize hm : 0 = m at hstage
    cases hstage with
    | last hs =>
      obtain ⟨hfile, hnone'⟩ := hs
      rw [stored_all] at hfile
      rw [if_pos rfl] at hnone'
      exact ⟨_, _, rfl, rfl, hfile, hnone', rfl, rfl⟩
    | request hcount => omega
    | ack hk hcount => omega
    | data hk hcount => omega
  obtain ⟨hle, hstage⟩ := Among.countdown (GuardedStage ep c.transferMode name file)
    (fun n s t hs hst => hs.step hname hst)
    (fun s t hs hst => by
      obtain ⟨_, _, -, -, -, -, hl, hr⟩ := hlast s hs
      obtain ⟨call, right, p, q, handed⟩ := s
      obtain rfl : p = [] := hl
      obtain rfl : q = [] := hr
      exact Fifo.idle hst)
    (fun n s b hs hb => hs.serves hb) hstart hrun
  refine ⟨hle, fun hlt => ?_, fun heq => ?_⟩
  · obtain ⟨m, hm⟩ : ∃ m, 2 * payloads c.transferMode file + 2 - n = m + 1 :=
      ⟨2 * payloads c.transferMode file + 1 - n, by omega⟩
    rw [hm] at hstage
    exact hstage.1.next hname
  · rw [heq, Nat.sub_self] at hstage
    exact hlast t hstage

theorem putFile_completes_among_others_download :
    ∃ t c' srv', Transition.Counted (Among (ReliablePut.Step ⟨0, 0⟩)
          (Serves ⟨0, 0⟩ (NotAsked [97])))
        (start ((TFTPClient.init .binary (.single [99] [1, 2, 3])).putFile {} [99] [97])
          (.init (.single [98] [7]))) 4 t ∧
      t.left = .returned true c' ∧ t.right = some srv' ∧
        srv'.files.lookup [97] = some [1, 2, 3] := by
  have hname : ValidName [97] := ⟨by decide, by decide, by decide⟩
  obtain ⟨⟨srv, sent⟩, hreceive⟩ : ∃ r, TFTPServer.receive (.init (.single [98] [7]))
      (.received ⟨1, 1⟩ (requestMessage .rrq [98] .binary) {}) = some r := ⟨_, rfl⟩
  have hother : Serves ⟨0, 0⟩ (NotAsked [97]) (some (.init (.single [98] [7]))) (some srv) := by
    refine ⟨_, _, _, _, rfl, rfl, hreceive, fun remote d o h => ?_⟩
    cases h
    refine ⟨by decide, grantsNew_rrq [98] .binary, fun _ _ hask => ?_⟩
    cases hask.1
  obtain ⟨p, -, hcall⟩ := @TFTPClient.putFile_sending (.init .binary (.single [99] [1, 2, 3])) {}
    [99] [97] _ rfl rfl rfl
  have hnext := putFile_completes_among_others ⟨0, 0⟩ (.init (.single [98] [7]))
    (.init .binary (.single [99] [1, 2, 3])) {} [99] [97] [1, 2, 3] hname rfl rfl rfl
    (.single [98] [7]) ⟨[], [], rfl, trivial⟩ rfl rfl rfl
  have h₀ : Transition.Counted (Among (ReliablePut.Step ⟨0, 0⟩) (Serves ⟨0, 0⟩ (NotAsked [97])))
      (start ((TFTPClient.init .binary (.single [99] [1, 2, 3])).putFile {} [99] [97])
        (.init (.single [98] [7]))) 0 _ :=
    .tail .refl (Among.others (b := some srv) (by rw [hcall]; exact hother))
  obtain ⟨t₁, h₁⟩ := (hnext 0 _ h₀).2.1 (by decide)
  obtain ⟨t₂, h₂⟩ := (hnext 1 t₁ (.tail h₀ (.own h₁))).2.1 (by decide)
  obtain ⟨t₃, h₃⟩ := (hnext 2 t₂ (.tail (.tail h₀ (.own h₁)) (.own h₂))).2.1 (by decide)
  have hthree : Transition.Counted
      (Among (ReliablePut.Step ⟨0, 0⟩) (Serves ⟨0, 0⟩ (NotAsked [97]))) _ 3 t₃ :=
    .tail (.tail (.tail h₀ (.own h₁)) (.own h₂)) (.own h₃)
  obtain ⟨t₄, h₄⟩ := (hnext 3 t₃ hthree).2.1 (by decide)
  obtain ⟨c', srv', hret, hsrv, hfile, -⟩ := (hnext 4 t₄ (.tail hthree (.own h₄))).2.2 (by decide)
  exact ⟨t₄, c', srv', .tail hthree (.own h₄), hret, hsrv, hfile⟩

end PutAmongOthers
end Tftp
end NetworkProtocols
