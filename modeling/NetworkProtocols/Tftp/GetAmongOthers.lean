import NetworkProtocols.Tftp.OtherClients
import NetworkProtocols.Tftp.ReliableGet

/-!
# GET while other clients are served

Between two datagrams of the call the server may receive anything from other endpoints. Their
requests cannot touch a file that exists, as long as the server grants none for such a file, so the
download reads the file that it has opened.
-/

namespace NetworkProtocols
namespace Tftp
namespace GetAmongOthers

open Channel FileSafety OtherClients TFTPServer

variable {ep : Endpoint} {mode : TransferMode} {name file dst : Bytes}
variable {Allowed : TFTPServer → Datagram → Prop} {s t : Option TFTPServer} {k : ℕ}

/-- The server has the file, nobody writes it, and the session of the endpoint, if there is one,
has no other file open. -/
def Guarded (ep : Endpoint) (name file : Bytes) (srv : TFTPServer) : Prop :=
  srv.store.Sealed (srv.files.denotes name) file ∧
    Owns (fun p => p = srv.files.denotes name) ep (srv.sessions ep)

theorem Guarded.receive {srv srv' : TFTPServer} {c : Completion} {sent : List Packet}
    (h : Guarded ep name file srv) (hgo : srv.receive c = some (srv', sent))
    (hgrants : GrantedNew srv c)
    (hask : ∀ d o, c = .received ep d o →
      AsksWithin (fun p => p = srv.files.denotes name) srv.files (srv.recvBuffer.fill d)) :
    Guarded ep name file srv' := by
  obtain ⟨hsealed, howns⟩ := h
  rw [Guarded, receive_naming hgo]
  refine ⟨receive_sealed hsealed hgo hgrants, ?_⟩
  cases c with
  | failed =>
    cases hgo
    exact howns
  | received remote d o =>
    by_cases hep : remote = ep
    · subst hep
      exact receive_owns howns (hask d o rfl) hgo
    · rwa [sessions_of_ne hgo hep]

theorem guarded_of_unwritten {srv : TFTPServer} (hfile : srv.files.lookup name = some file)
    (hunwritten : ∀ remote session, srv.sessions remote = some session →
      session.writes ≠ some (srv.files.denotes name))
    (hnone : srv.sessions ep = none) : Guarded ep name file srv := by
  refine ⟨⟨hfile, fun remote hw => ?_⟩, ?_⟩
  · obtain ⟨session, hs, hp⟩ := Option.bind_eq_some_iff.mp hw
    exact hunwritten remote session hs hp
  · rw [hnone]
    exact owns_none

def Ready (ep : Endpoint) (name file : Bytes) (s : Option TFTPServer) : Prop :=
  ∃ srv, s = some srv ∧ Guarded ep name file srv ∧ srv.sessions ep = none

/-- The endpoint has a download of which `k` blocks were sent. -/
def Sends (ep : Endpoint) (mode : TransferMode) (name file : Bytes) (k : ℕ)
    (s : Option TFTPServer) : Prop :=
  ∃ srv, s = some srv ∧ Guarded ep name file srv ∧ srv.Downloading ep mode file k

/-- A service of others leaves the session and what it reads as they are. -/
theorem Guarded.serves {srv : TFTPServer} (h : Guarded ep name file srv)
    (hs : Serves ep Allowed (some srv) t) :
    ∃ srv', t = some srv' ∧ Guarded ep name file srv' ∧ srv'.sessions ep = srv.sessions ep ∧
      FileSystem.AgreeOn (fun p => p = srv.files.denotes name) srv.files srv'.files := by
  obtain ⟨_, srv', c, packets, heq, rfl, hgo, hc⟩ := hs
  obtain rfl := Option.some.inj heq
  have hguard := h.receive hgo (Serves.grantedNew hc)
    fun d o hcase => absurd rfl (hc ep d o hcase).1
  refine ⟨srv', rfl, hguard, ?_, (receive_naming hgo).symm, ?_⟩
  · cases c with
    | failed =>
      cases hgo
      rfl
    | received remote d o => exact sessions_of_ne hgo (hc remote d o rfl).1
  · rintro p rfl
    have hfile := hguard.1.1
    rw [receive_naming hgo] at hfile
    exact h.1.1.trans hfile.symm

theorem Downloading.serves {srv srv' : TFTPServer} (h : srv.Downloading ep mode file k)
    (hguard : Guarded ep name file srv) (hsessions : srv'.sessions ep = srv.sessions ep)
    (hagree : FileSystem.AgreeOn (fun p => p = srv.files.denotes name) srv.files srv'.files) :
    srv'.Downloading ep mode file k := by
  obtain ⟨s, hs, hserve, hep, hact, hopen⟩ := h
  have hin := (hguard.2 _ hs).2
  exact ⟨s, hsessions.trans hs, serving_agree hagree hin hserve, hep, hact, hopen⟩

theorem Ready.serves (h : Ready ep name file s) (hs : Serves ep Allowed s t) :
    Ready ep name file t := by
  obtain ⟨srv, rfl, hguard, hnone⟩ := h
  obtain ⟨srv', rfl, hguard', hsessions, -⟩ := hguard.serves hs
  exact ⟨srv', rfl, hguard', hsessions.trans hnone⟩

theorem Sends.serves (h : Sends ep mode name file k s) (hs : Serves ep Allowed s t) :
    Sends ep mode name file k t := by
  obtain ⟨srv, rfl, hguard, hdown⟩ := h
  obtain ⟨srv', rfl, hguard', hsessions, hagree⟩ := hguard.serves hs
  exact ⟨srv', rfl, hguard', Downloading.serves hdown hguard hsessions hagree⟩

/-- A datagram on its way to the call: the next block or an ERROR. -/
inductive ToCall (ep : Endpoint) (mode : TransferMode) (name file dst : Bytes) :
    Call GetFile → Option TFTPServer → Datagram → Prop
  | block {g s k} : k < payloads mode file → g.Receiving mode file dst k →
      Sends ep mode name file (k + 1) s → ToCall ep mode name file dst (.waiting g) s
        (dataMessage (UInt16.ofNat (k + 1)) (payload mode file k))
  | error {g s d} : IsError d → ToCall ep mode name file dst (.waiting g) s d

/-- A datagram on its way to the server: the request, or the ACK of a block but the last. -/
inductive ToServer (ep : Endpoint) (mode : TransferMode) (name file dst : Bytes) :
    Call GetFile → Option TFTPServer → Datagram → Prop
  | request {g s} : g.Receiving mode file dst 0 → Ready ep name file s →
      ToServer ep mode name file dst (.waiting g) s (requestMessage .rrq name mode)
  | ack {g s k} : k < payloads mode file → g.Receiving mode file dst k →
      Sends ep mode name file k s →
      ToServer ep mode name file dst (.waiting g) s (ackMessage (UInt16.ofNat k))

def Waits (call : Call GetFile) (_ : Option TFTPServer) : Prop := ∃ g, call = .waiting g

/-- The call has returned, and with success only if it has stored the file. -/
def Returned (mode : TransferMode) (file dst : Bytes) (call : Call GetFile)
    (_ : Option TFTPServer) : Prop :=
  ∃ b c, call = .returned b c ∧ (b = true → c.files.lookup dst = some (decode mode file))

/-- The server may refuse to send or to open, and the call may fail to send. -/
abbrev Step (ep : Endpoint) :=
  Once (clientReaction GetFile.turn fun _ => True) (serverReaction ep fun _ _ _ => True)

theorem Ready.receive_request (h : Ready ep name file s) (hname : ValidName name)
    {out : List Datagram}
    (hr : serverReaction ep (fun _ _ _ => True) s (some (requestMessage .rrq name mode)) t out) :
    out = [] ∨ ∃ d, out = [d] ∧ (IsError d ∨
      Sends ep mode name file 1 t ∧ d = dataMessage (UInt16.ofNat 1) (payload mode file 0)) := by
  obtain ⟨srv, rfl, hguard, hnone⟩ := h
  obtain ⟨o, -, hgo⟩ := serverReaction_received hr
  have hreq := srv.requests_requestMessage .rrq mode hname
  have hask : AsksWithin (fun p => p = srv.files.denotes name) srv.files _ :=
    asksWithin_request srv.recvBuffer .rrq mode hname rfl
  cases hopen : o.openOk with
  | false =>
    obtain ⟨srv', hrec, -⟩ := (unserved_of_none hnone).receive_refused hreq hopen
    obtain ⟨-, rfl⟩ := hgo _ _ hrec
    rcases sentTo_send ep o (errorMessage .fileNotFound []) with hout | hout
    · exact .inl hout
    · exact .inr ⟨_, hout, .inl ⟨_, rfl⟩⟩
  | true =>
    obtain ⟨srv', hrec, hdown, -⟩ :=
      (unserved_of_none hnone).receive_granted hreq hguard.1.1 hopen
    obtain ⟨rfl, rfl⟩ := hgo _ _ hrec
    have hguard' := hguard.receive hrec (grantsNew_rrq name mode) fun d o hcase => by
      cases hcase
      exact hask
    rcases sentTo_send ep o (dataMessage (UInt16.ofNat 1) (payload mode file 0)) with hout | hout
    · exact .inl hout
    · exact .inr ⟨_, hout, .inr ⟨⟨srv', rfl, hguard', hdown⟩, rfl⟩⟩

theorem Sends.receive_ack (h : Sends ep mode name file k s) (hk : k < payloads mode file)
    {out : List Datagram}
    (hr : serverReaction ep (fun _ _ _ => True) s (some (ackMessage (UInt16.ofNat k))) t out) :
    out = [] ∨ Sends ep mode name file (k + 1) t ∧
      out = [dataMessage (UInt16.ofNat (k + 1)) (payload mode file k)] := by
  obtain ⟨srv, rfl, hguard, hdown⟩ := h
  obtain ⟨o, -, hgo⟩ := serverReaction_received hr
  obtain ⟨srv', hrec, hdown', -⟩ := hdown.ack_next hk o
  obtain ⟨rfl, rfl⟩ := hgo _ _ hrec
  have hguard' := hguard.receive hrec (grantsNew_ackMessage _) fun d o hcase => by
    cases hcase
    exact asksWithin_ack _ _ _ _
  rcases sentTo_send ep o (dataMessage (UInt16.ofNat (k + 1)) (payload mode file k))
    with hout | hout
  · exact .inl hout
  · exact .inr ⟨⟨srv', rfl, hguard', hdown'⟩, hout⟩

/-- The call stores the next block or gives up. -/
theorem ToCall.turn {call call' : Call GetFile} {d : Datagram} {o : ClientOutcomes}
    {g : GetFile} {out : List Datagram} (h : ToCall ep mode name file dst call s d)
    (hcall : call = .waiting g) (ht : g.turn o (some d) = (call', out)) :
    Returned mode file dst call' s ∨
      ∃ d', out = [d'] ∧ ToServer ep mode name file dst call' s d' := by
  cases h with
  | @block g' _ k hk hg hs =>
    obtain rfl := Call.waiting.inj hcall
    cases hsend : o.sendOk with
    | false =>
      obtain ⟨c, ht'⟩ := (hg.turn_data hk).1 hsend
      rw [ht'] at ht
      obtain ⟨rfl, rfl⟩ := Prod.mk.inj ht
      exact .inl ⟨false, c, rfl, fun h => nomatch h⟩
    | true =>
      obtain ⟨g'', hg'', ht'⟩ := (hg.turn_data hk).2 hsend
      rw [ht'] at ht
      obtain ⟨rfl, rfl⟩ := Prod.mk.inj ht
      by_cases hlast : k + 1 = payloads mode file
      · rw [if_pos hlast]
        refine .inl ⟨true, g''.client, rfl, fun _ => ?_⟩
        rw [hg''.content, hlast, stored_all]
      · rw [if_neg hlast]
        exact .inr ⟨_, rfl, .ack (by omega) hg'' hs⟩
  | error he =>
    obtain rfl := Call.waiting.inj hcall
    obtain ⟨code, rfl⟩ := he
    obtain ⟨c, ht'⟩ := GetFile.turn_error (o := o) code
    rw [ht'] at ht
    obtain ⟨rfl, rfl⟩ := Prod.mk.inj ht
    exact .inl ⟨false, c, rfl, fun h => nomatch h⟩

theorem rules (Allowed : TFTPServer → Datagram → Prop) (hname : ValidName name) :
    LockstepRules (clientReaction GetFile.turn fun _ => True)
      (serverReaction ep fun _ _ _ => True) (Serves ep Allowed)
      (ToCall ep mode name file dst) (ToServer ep mode name file dst) Waits
      (Returned mode file dst) where
  left := by
    rintro call s d call' out hm ⟨g, o, hcall, -, ht⟩
    exact (hm.turn hcall ht).imp_right .inr
  right := by
    intro call s d s' out hm hr
    cases hm with
    | request hg hready =>
      rcases hready.receive_request hname hr with rfl | ⟨d, rfl, he | ⟨hs, rfl⟩⟩
      · exact .inl ⟨rfl, _, rfl⟩
      · exact .inr ⟨d, rfl, .error he⟩
      · exact .inr ⟨_, rfl, .block (Blocks.count_pos _) hg hs⟩
    | ack hk hg hs =>
      rcases hs.receive_ack hk hr with rfl | ⟨hs', rfl⟩
      · exact .inl ⟨rfl, _, rfl⟩
      · exact .inr ⟨_, rfl, .block hk hg hs'⟩
  lostLeft := by
    rintro call s d (_ | _)
    · exact ⟨_, rfl⟩
    · exact ⟨_, rfl⟩
  lostRight := by
    rintro call s d (_ | _)
    · exact ⟨_, rfl⟩
    · exact ⟨_, rfl⟩
  leftFails := by
    rintro call s call' out - ⟨g, o, -, -, ht⟩
    cases ht
    exact ⟨false, _, rfl, fun h => nomatch h⟩
  rightFails := by
    intro s s' out hr
    have hserver := hr
    obtain ⟨srv, o, rfl, -, -⟩ := hserver
    exact serverReaction_failed hr
  overLeft := by
    rintro call s i call' out ⟨b, c, rfl, -⟩ ⟨g, o, hcall, -, -⟩
    cases hcall
  overRight := fun h _ => h
  others := by
    intro call s s' hs
    refine ⟨fun d hm => ?_, fun d hm => ?_, id, id⟩
    · cases hm with
      | block hk hg hsend => exact .block hk hg (hsend.serves hs)
      | error he => exact .error he
    · cases hm with
      | request hg hready => exact .request hg (hready.serves hs)
      | ack hk hg hsend => exact .ack hk hg (hsend.serves hs)

/-- Whatever is lost, delayed or refused and whatever other clients send in between, a GET that
returns success has stored the decoded file, and it never aborts. -/
theorem getFile_safe_among_others (ep : Endpoint) (srv : TFTPServer) (c : TFTPClient)
    (o : ClientOutcomes) (name dst file : Bytes) (hname : ValidName name)
    (hfile : srv.files.lookup name = some file)
    (hunwritten : ∀ remote session, srv.sessions remote = some session →
      session.writes ≠ some (srv.files.denotes name))
    (hnone : srv.sessions ep = none) (t : Net (Call GetFile) (Option TFTPServer) Datagram)
    (hrun : Relation.ReflTransGen
      (fun s t => ∃ mine, Among (Step ep) (Serves ep fun _ _ => True) s mine t)
      (start (c.getFile o name dst) srv) t) :
    (∀ c', t.left ≠ .aborted c') ∧
      ∀ c', t.left = .returned true c' →
        c'.files.lookup dst = some (decode c.transferMode file) := by
  have hready : Ready ep name file (some srv) :=
    ⟨srv, rfl, guarded_of_unwritten hfile hunwritten hnone, hnone⟩
  have hstart : Lockstep (ToCall ep c.transferMode name file dst)
      (ToServer ep c.transferMode name file dst) Waits (Returned c.transferMode file dst)
      (start (c.getFile o name dst) srv) := by
    rcases c.getFile_cases o name dst file with ⟨c₁, hcall⟩ | ⟨g, hg, hcall⟩
    · rw [hcall]
      exact .ended ⟨false, c₁, rfl, fun h => nomatch h⟩
    · rw [hcall]
      exact .toRight (.request hg hready)
  rcases (hstart.invariant (rules (fun _ _ => True) hname) hrun).quiet_or_over
    (rules (fun _ _ => True) hname) with ⟨b, c₁, hcall, hstored⟩ | ⟨g, hcall⟩
  · rw [hcall]
    refine ⟨fun c' h => (nomatch h), fun c' h => ?_⟩
    obtain ⟨rfl, rfl⟩ := Call.returned.inj h
    exact hstored rfl
  · rw [hcall]
    exact ⟨fun c' h => (nomatch h), fun c' h => (nomatch h)⟩

/-- A download of one block: the request, and its answer. -/
theorem get_one_block (ep : Endpoint) {srv : TFTPServer} {g : GetFile} (n : ℕ)
    (hname : ValidName name)
    (hg : g.Receiving mode file dst 0) (hfile : srv.files.lookup name = some file)
    (hlast : payloads mode file = 1) (hnone : srv.sessions ep = none) :
    ∃ t c', Relation.ReflTransGen (Step ep)
        ⟨.waiting g, some srv, [], [requestMessage .rrq name mode], n⟩ t ∧
      t.left = .returned true c' := by
  obtain ⟨srv₁, hr₁, -⟩ := (unserved_of_none hnone).receive_granted (o := {})
    (srv.requests_requestMessage .rrq mode hname) hfile rfl
  obtain ⟨g', -, ht⟩ := (hg.turn_data (o := {}) (by omega)).2 rfl
  rw [if_pos (by omega)] at ht
  rw [if_pos rfl] at hr₁
  have h₁ : serverReaction ep (fun _ _ _ => True) _ _ _ _ := serverReaction_of_receive trivial hr₁
  rw [sentTo_singleton] at h₁
  have h₂ : clientReaction GetFile.turn (fun _ => True) _ _ _ _ := ⟨g, {}, rfl, trivial, ht⟩
  have hrun : Relation.ReflTransGen (Step ep)
      ⟨.waiting g, some srv, [], [requestMessage .rrq name mode], n⟩ _ :=
    .tail (.single (.right_only h₁)) (.left_only h₂)
  exact ⟨_, _, hrun, rfl⟩

theorem getFile_safe_among_others_upload :
    ∃ t c', Relation.ReflTransGen
        (fun s t => ∃ mine, Among (Step ⟨0, 0⟩) (Serves ⟨0, 0⟩ fun _ _ => True) s mine t)
        (start ((TFTPClient.init .binary (.single [98] [])).getFile {} [97] [99])
          (.init (.single [97] [1, 2, 3]))) t ∧
      t.left = .returned true c' ∧ c'.files.lookup [99] = some [1, 2, 3] := by
  have hname : ValidName [97] := ⟨by decide, by decide, by decide⟩
  obtain ⟨g, hg, hcall⟩ := (TFTPClient.init .binary (.single [98] [])).getFile_receiving (o := {})
    [97] [99] [1, 2, 3] rfl rfl
  obtain ⟨⟨srv, sent⟩, hreceive, hnone, hfile⟩ : ∃ r,
      TFTPServer.receive (.init (.single [97] [1, 2, 3]))
        (.received ⟨1, 1⟩ (requestMessage .wrq [97] .binary) {}) = some r ∧
      r.1.sessions ⟨0, 0⟩ = none ∧ r.1.files.lookup [97] = some [1, 2, 3] := ⟨_, rfl, rfl, rfl⟩
  have hother :
      Serves ⟨0, 0⟩ (fun _ _ => True) (some (.init (.single [97] [1, 2, 3]))) (some srv) :=
    ⟨_, _, _, _, rfl, rfl, hreceive, fun _ _ _ h => by
      cases h
      exact ⟨by decide, grantsNew_requestMessage .binary hname (by decide), trivial⟩⟩
  obtain ⟨t, c', hrun, hret⟩ := get_one_block ⟨0, 0⟩ 0 hname hg hfile rfl hnone
  have hall : Relation.ReflTransGen
      (fun s t => ∃ mine, Among (Step ⟨0, 0⟩) (Serves ⟨0, 0⟩ fun _ _ => True) s mine t)
      (start ((TFTPClient.init .binary (.single [98] [])).getFile {} [97] [99])
        (.init (.single [97] [1, 2, 3]))) t := by
    rw [hcall]
    exact .trans (.single ⟨false, .others hother⟩) (hrun.lift id fun _ _ h => ⟨true, .own h⟩)
  exact ⟨t, c', hall, hret, (getFile_safe_among_others ⟨0, 0⟩ (.init (.single [97] [1, 2, 3])) _ _ _
    _ [1, 2, 3] hname rfl (fun _ _ h => nomatch h) rfl t hall).2 c' hret⟩

theorem Stage.toRight {n : ℕ} {s : Net (Call GetFile) (Option TFTPServer) Datagram}
    (h : ReliableGet.Stage ep mode name file dst n s) {d : Datagram} (hd : d ∈ s.toRight) :
    d = requestMessage .rrq name mode ∨ ∃ w, d = ackMessage w := by
  cases h with
  | request _ _ _ _ => exact .inl (List.mem_singleton.mp hd)
  | data _ _ _ _ => cases hd
  | ack _ _ _ _ => exact .inr ⟨_, List.mem_singleton.mp hd⟩
  | last _ _ => cases hd

theorem Stage.right_some {n : ℕ} {s : Net (Call GetFile) (Option TFTPServer) Datagram}
    (h : ReliableGet.Stage ep mode name file dst n s) : s.right.isSome := by
  cases h <;> rfl

/-- A stage of the run, with the server's files guarded. -/
def GuardedStage (ep : Endpoint) (mode : TransferMode) (name file dst : Bytes) (n : ℕ)
    (s : Net (Call GetFile) (Option TFTPServer) Datagram) : Prop :=
  ReliableGet.Stage ep mode name file dst n s ∧
    ∃ srv, s.right = some srv ∧ Guarded ep name file srv

theorem GuardedStage.step {n : ℕ} {s t : Net (Call GetFile) (Option TFTPServer) Datagram}
    (h : GuardedStage ep mode name file dst (n + 1) s) (hname : ValidName name)
    (hst : ReliableGet.Step ep s t) : GuardedStage ep mode name file dst n t := by
  obtain ⟨hstage, srv, hsrv, hguard⟩ := h
  have hnext := hstage.step hname hst
  have hright := Stage.right_some hnext
  refine ⟨hnext, ?_⟩
  cases hst with
  | left _ => exact ⟨srv, hsrv, hguard⟩
  | @right _ _ s' d _ _ _ _ hr =>
    obtain rfl : _ = some srv := hsrv
    obtain ⟨_, o, heq, -, hm⟩ := hr
    obtain rfl := Option.some.inj heq
    have hask : srv.GrantsNew d o ∧ AsksWithin (fun p => p = srv.files.denotes name) srv.files
        (srv.recvBuffer.fill d) := by
      rcases Stage.toRight hstage List.mem_cons_self with rfl | ⟨w, rfl⟩
      · exact ⟨grantsNew_rrq name mode,
          asksWithin_request srv.recvBuffer .rrq mode hname rfl⟩
      · exact ⟨grantsNew_ackMessage w, asksWithin_ack _ _ _ w⟩
    split at hm
    · obtain rfl := hm.1
      cases hright
    · rename_i srv' packets hgo
      obtain ⟨rfl, -⟩ := hm
      exact ⟨srv', rfl, hguard.receive hgo hask.1 fun d o hcase => by
        cases hcase
        exact hask.2⟩

theorem GuardedStage.serves {n : ℕ} {net : Net (Call GetFile) (Option TFTPServer) Datagram}
    (h : GuardedStage ep mode name file dst n net) (hs : Serves ep Allowed net.right t) :
    GuardedStage ep mode name file dst n { net with right := t } := by
  obtain ⟨hstage, srv, hsrv, hguard⟩ := h
  rw [hsrv] at hs
  obtain ⟨srv', rfl, hguard', hsessions, hagree⟩ := hguard.serves hs
  refine ⟨?_, srv', rfl, hguard'⟩
  cases hstage with
  | request hcount hg hnone _ =>
    obtain rfl := Option.some.inj hsrv
    exact .request hcount hg (hsessions.trans hnone) hguard'.1.1
  | data hk hcount hg hdown =>
    obtain rfl := Option.some.inj hsrv
    exact .data hk hcount hg (Downloading.serves hdown hguard hsessions hagree)
  | ack hk hcount hcall hdown =>
    obtain rfl := Option.some.inj hsrv
    exact .ack hk hcount hcall (Downloading.serves hdown hguard hsessions hagree)
  | last hcall hnone =>
    obtain rfl := Option.some.inj hsrv
    exact .last hcall (hsessions.trans hnone)

/-- Whatever other clients send in between, a GET over a reliable network takes one step for its
request and two for every block, and then it has returned success with the decoded file. -/
theorem getFile_completes_among_others (ep : Endpoint) (srv : TFTPServer) (c : TFTPClient)
    (o : ClientOutcomes) (name dst file : Bytes) (hname : ValidName name)
    (hfile : srv.files.lookup name = some file)
    (hunwritten : ∀ remote session, srv.sessions remote = some session →
      session.writes ≠ some (srv.files.denotes name))
    (hnone : srv.sessions ep = none) (hopen : o.openOk = true) (hsend : o.sendOk = true)
    (n : ℕ) (t : Net (Call GetFile) (Option TFTPServer) Datagram)
    (hrun : Transition.Counted (Among (ReliableGet.Step ep) (Serves ep fun _ _ => True))
      (start (c.getFile o name dst) srv) n t) :
    n ≤ 2 * payloads c.transferMode file + 1 ∧
    (n < 2 * payloads c.transferMode file + 1 → ∃ u, ReliableGet.Step ep t u) ∧
    (n = 2 * payloads c.transferMode file + 1 → ∃ c' srv', t.left = .returned true c' ∧
      t.right = some srv' ∧ c'.files.lookup dst = some (decode c.transferMode file) ∧
      srv'.sessions ep = none ∧ t.toLeft = [] ∧ t.toRight = []) := by
  obtain ⟨g, hg, hcall⟩ := c.getFile_receiving name dst file hopen hsend
  rw [hcall] at hrun
  have hguard := guarded_of_unwritten hfile hunwritten hnone
  have hstart : GuardedStage ep c.transferMode name file dst
      (2 * payloads c.transferMode file + 1)
      (start (.waiting g, [requestMessage .rrq name c.transferMode]) srv) :=
    ⟨.request rfl hg hnone hfile, srv, rfl, hguard⟩
  have hlast : ∀ s, GuardedStage ep c.transferMode name file dst 0 s →
      ∃ c' srv', s.left = .returned true c' ∧ s.right = some srv' ∧
        c'.files.lookup dst = some (decode c.transferMode file) ∧ srv'.sessions ep = none ∧
        s.toLeft = [] ∧ s.toRight = [] := by
    rintro s ⟨hstage, -⟩
    generalize hm : 0 = m at hstage
    cases hstage with
    | last hcall hnone' =>
      obtain ⟨g, hg, rfl⟩ := hcall
      refine ⟨g.client, _, by simp, rfl, ?_, hnone', rfl, rfl⟩
      rw [hg.content, stored_all]
    | request hcount => omega
    | data hk hcount => omega
    | ack hk hcount => omega
  obtain ⟨hle, hstage⟩ := Among.countdown (GuardedStage ep c.transferMode name file dst)
    (fun n s t hs hst => hs.step hname hst)
    (fun s t hs hst => by
      obtain ⟨_, _, -, -, -, -, hl, hr⟩ := hlast s hs
      obtain ⟨call, right, p, q, handed⟩ := s
      obtain rfl : p = [] := hl
      obtain rfl : q = [] := hr
      exact Fifo.idle hst)
    (fun n s b hs hb => hs.serves hb) hstart hrun
  refine ⟨hle, fun hlt => ?_, fun heq => ?_⟩
  · obtain ⟨m, hm⟩ : ∃ m, 2 * payloads c.transferMode file + 1 - n = m + 1 :=
      ⟨2 * payloads c.transferMode file - n, by omega⟩
    rw [hm] at hstage
    exact hstage.1.next hname
  · rw [heq, Nat.sub_self] at hstage
    exact hlast t hstage

theorem getFile_completes_among_others_upload :
    ∃ t c', Transition.Counted (Among (ReliableGet.Step ⟨0, 0⟩) (Serves ⟨0, 0⟩ fun _ _ => True))
        (start ((TFTPClient.init .binary (.single [98] [])).getFile {} [97] [99])
          (.init (.single [97] [1, 2, 3]))) 3 t ∧
      t.left = .returned true c' ∧ c'.files.lookup [99] = some [1, 2, 3] := by
  have hname : ValidName [97] := ⟨by decide, by decide, by decide⟩
  obtain ⟨⟨srv, sent⟩, hreceive⟩ : ∃ r, TFTPServer.receive (.init (.single [97] [1, 2, 3]))
      (.received ⟨1, 1⟩ (requestMessage .wrq [97] .binary) {}) = some r := ⟨_, rfl⟩
  have hother :
      Serves ⟨0, 0⟩ (fun _ _ => True) (some (.init (.single [97] [1, 2, 3]))) (some srv) :=
    ⟨_, _, _, _, rfl, rfl, hreceive, fun _ _ _ h => by
      cases h
      exact ⟨by decide, grantsNew_requestMessage .binary hname (by decide), trivial⟩⟩
  obtain ⟨g, -, hcall⟩ := (TFTPClient.init .binary (.single [98] [])).getFile_receiving (o := {})
    [97] [99] [1, 2, 3] rfl rfl
  have hnext := getFile_completes_among_others ⟨0, 0⟩ (.init (.single [97] [1, 2, 3]))
    (.init .binary (.single [98] [])) {} [97] [99] [1, 2, 3] hname rfl (fun _ _ h => nomatch h) rfl
    rfl rfl
  have h₀ : Transition.Counted (Among (ReliableGet.Step ⟨0, 0⟩) (Serves ⟨0, 0⟩ fun _ _ => True))
      (start ((TFTPClient.init .binary (.single [98] [])).getFile {} [97] [99])
        (.init (.single [97] [1, 2, 3]))) 0 _ :=
    .tail .refl (Among.others (b := some srv) (by rw [hcall]; exact hother))
  obtain ⟨t₁, h₁⟩ := (hnext 0 _ h₀).2.1 (by decide)
  obtain ⟨t₂, h₂⟩ := (hnext 1 t₁ (.tail h₀ (.own h₁))).2.1 (by decide)
  obtain ⟨t₃, h₃⟩ := (hnext 2 t₂ (.tail (.tail h₀ (.own h₁)) (.own h₂))).2.1 (by decide)
  have hall : Transition.Counted (Among (ReliableGet.Step ⟨0, 0⟩) (Serves ⟨0, 0⟩ fun _ _ => True))
      _ 3 t₃ := .tail (.tail (.tail h₀ (.own h₁)) (.own h₂)) (.own h₃)
  obtain ⟨c', -, hret, -, hfile, -⟩ := (hnext 3 t₃ hall).2.2 (by decide)
  exact ⟨t₃, c', hall, hret, hfile⟩

end GetAmongOthers
end Tftp
end NetworkProtocols
