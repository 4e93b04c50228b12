import NetworkProtocols.Lib.Transition
import NetworkProtocols.Tftp.Footprint
import NetworkProtocols.Tftp.OwnBytes

/-!
# Sessions of different endpoints

Datagrams of all clients go through one receive buffer and one table of sessions. What a
client sees of its session and its files is nevertheless what it would see alone, as long
as no two clients name one file and every datagram is well formed.
-/

namespace NetworkProtocols
namespace Tftp
namespace Isolation

open Bytes FileSystem OwnBytes TFTPServer Transition

def opcode (d : Datagram) : UInt16 := Bytes.word (d.getD 0 0) (d.getD 1 0)

/-- Opcode and, by it, name and mode, block number or header lie within the bytes that
arrive. -/
structure WellFormed (d : Datagram) : Prop where
  two_le : 2 ≤ d.length
  request : opcode d = MessageType.rrq.code ∨ opcode d = MessageType.wrq.code →
    (Request.parse (d.take bufferSize)).isSome
  number : opcode d = MessageType.ack.code ∨ opcode d = MessageType.data.code → 4 ≤ d.length

def Names (d : Datagram) (name : Bytes) : Prop :=
  (opcode d = MessageType.rrq.code ∨ opcode d = MessageType.wrq.code) ∧
    ∃ mode, Request.parse (d.take bufferSize) = some (.accepted name mode)

def Asked (es : List Completion) (ep : Endpoint) (name : Bytes) : Prop :=
  ∃ d o, .received ep d o ∈ es ∧ Names d name

def IsFrom (ep : Endpoint) : Completion → Bool
  | .failed => false
  | .received remoteEndpoint _ _ => decide (remoteEndpoint = ep)

def owned (es : List Completion) (fs : FileSystem) (ep : Endpoint) (p : Path) : Prop :=
  ∃ name, Asked es ep name ∧ fs.denotes name = p

section Datagram

variable {d : Datagram} {w : UInt16}

theorem opcode_eq_of_fits (hd : 2 ≤ d.length) (h : Fits (d.take bufferSize) 0 w) :
    opcode d = w := by
  have hget : ∀ i < 2, d.getD i 0 ∈ (d.take bufferSize)[i]? := by
    intro i hi
    have hlt : i < d.length := by omega
    rw [List.getElem?_take_of_lt (by rw [bufferSize]; omega), List.getElem?_eq_getElem hlt,
      List.getD_eq_getElem?_getD, List.getElem?_eq_getElem hlt]
    rfl
  exact Bytes.word_eq_iff.mpr ⟨h.1 _ (hget 0 (by omega)), h.2 _ (hget 1 (by omega))⟩

theorem fill_take (b : Buffer) (d : Datagram) : b.fill (d.take bufferSize) = b.fill d := by
  have hlen : (d.take bufferSize).length = min bufferSize d.length := List.length_take
  unfold Buffer.fill
  congr 1
  rw [List.take_take, Nat.min_self, hlen]
  congr 1
  by_cases hd : d.length ≤ bufferSize
  · rw [Nat.min_eq_right hd]
  · have hb := b.size
    rw [List.drop_eq_nil_of_le (by omega), List.drop_eq_nil_of_le (by omega)]

theorem length_take_le (d : Datagram) : (d.take bufferSize).length ≤ bufferSize :=
  List.length_take_le _ _

theorem WellFormed.selfContained (h : WellFormed d) (session : Option Session) :
    SelfContained session (d.take bufferSize) := by
  intro w hw
  have hop := opcode_eq_of_fits h.two_le hw
  refine ⟨fun hread => h.request ?_, fun k hk _ => ?_⟩
  · rw [hop]
    rcases session with _ | s | s
    · exact hread
    · exact .inl hread
    · exact .inr hread
  · have hlen : 4 ≤ d.length := by
      refine h.number ?_
      rw [hop]
      rcases session with _ | s | s
      · cases hk
      · exact .inl (awaited_read.mp hk).1
      · exact .inr (awaited_write.mp hk).1
    rw [List.length_take, bufferSize]
    omega

theorem WellFormed.opcode_eq (h : WellFormed d) (b : Buffer) : opcode d = (b.fill d).word 0 := by
  rw [← fill_take]
  exact opcode_eq_of_fits h.two_le (b.fits_word (length_take_le d) 0)

theorem WellFormed.names (h : WellFormed d) (b : Buffer)
    (hw : (b.fill d).word 0 = MessageType.rrq.code ∨ (b.fill d).word 0 = MessageType.wrq.code)
    {name : Bytes} {mode : TransferMode} (hreq : (b.fill d).request = some (.accepted name mode)) :
    Names d name := by
  rw [← h.opcode_eq] at hw
  obtain ⟨q, hq⟩ := Option.isSome_iff_exists.mp (h.request hw)
  have hsame := b.request_fill (length_take_le d) hq
  rw [fill_take, hreq] at hsame
  exact ⟨hw, mode, hq.trans hsame.symm⟩

theorem WellFormed.asksWithin (h : WellFormed d) {own : Path → Prop} {fs : FileSystem}
    (hown : ∀ name, Names d name → own (fs.denotes name)) (b : Buffer) :
    AsksWithin own fs (b.fill d) :=
  fun hw name _ hreq => hown name (h.names b hw hreq)

theorem WellFormed.handle_eq (h : WellFormed d) (session : Option Session) (fs : FileSystem)
    (ep : Endpoint) (o : Outcomes) :
    ∃ r, ∀ b : Buffer, handle session fs ep o (b.fill d) (min d.length bufferSize) = some r := by
  obtain ⟨r, hr⟩ := (h.selfContained session).determined (length_take_le d) fs ep o
  refine ⟨r, fun b => ?_⟩
  have hgo := hr b
  rwa [fill_take, List.length_take, Nat.min_comm bufferSize, Nat.min_assoc, Nat.min_self] at hgo

end Datagram

/-- What the datagram, if it is a WRQ, looks up exists if and only if it did in `files`, or it is a
file of the endpoint. -/
def Undisturbed (own : Endpoint → Path → Prop) (files : FileSystem) (t : TFTPServer) :
    Completion → Prop
  | .failed => True
  | .received ep d _ => opcode d = MessageType.wrq.code → ∀ name, Names d name →
      own ep (files.denotes (files.filePath name)) ∨
        (t.files.lookup (files.filePath name)).isSome =
          (files.lookup (files.filePath name)).isSome

theorem undisturbed_of_relative {own : Endpoint → Path → Prop} {files : FileSystem} {ep : Endpoint}
    {d : Datagram} (hown : ∀ name, Names d name → own ep (files.denotes name))
    (hrelative : ∀ name, Names d name → PathName.IsRelative name) (t : TFTPServer) (o : Outcomes) :
    Undisturbed own files t (.received ep d o) := by
  intro _ name hname
  left
  rw [Naming.filePath, files.relative name (hrelative name hname)]
  exact hown name hname

/-- The whole server beside the server that sees one endpoint only. -/
structure Beside (own : Endpoint → Path → Prop) (files₀ : FileSystem) (ep : Endpoint)
    (t t' : TFTPServer) : Prop where
  session : t.sessions ep = t'.sessions ep
  files : AgreeOn (own ep) t.files t'.files
  naming : t.files.toNaming = files₀.toNaming
  alone : AgreeOn (fun p => ¬ own ep p) t'.files files₀
  owns : ∀ ep', Owns (own ep') ep' (t.sessions ep')

variable {own : Endpoint → Path → Prop} {files₀ : FileSystem} {ep remote : Endpoint}
variable {t t' : TFTPServer} {d : Datagram}

theorem owns_update (h : ∀ ep', Owns (own ep') ep' (t.sessions ep')) {session : Option Session}
    (hs : Owns (own remote) remote session) (ep' : Endpoint) :
    Owns (own ep') ep' (Function.update t.sessions remote session ep') := by
  by_cases hep : ep' = remote
  · subst hep
    rwa [Function.update_self]
  · rw [Function.update_of_ne hep]
    exact h ep'

theorem Beside.foundAlike (h : Beside own files₀ ep t t') (hd : WellFormed d) {o : Outcomes}
    (hkept : Undisturbed own files₀ t (.received ep d o)) (b : Buffer) :
    FoundAlike t.files t'.files (b.fill d) := by
  intro hw name mode hreq
  have hname : Names d name := hd.names b (.inr hw) hreq
  have hopcode : opcode d = MessageType.wrq.code := (hd.opcode_eq b).trans hw
  have hnaming := h.alone.1
  rw [FileSystem.lookup, FileSystem.lookup, h.naming, hnaming]
  rcases hkept hopcode name hname with hown | hsame
  · rw [h.files.2 _ hown]
  · by_cases hown : own ep (files₀.denotes (files₀.filePath name))
    · rw [h.files.2 _ hown]
    · rw [FileSystem.lookup, FileSystem.lookup, h.naming] at hsame
      rw [hsame, h.alone.2 _ hown]

/-- A datagram of the endpoint has the same effect on both. -/
theorem Beside.receive_own (h : Beside own files₀ ep t t') (hd : WellFormed d)
    (hown : ∀ name, Names d name → own ep (files₀.denotes name)) {o : Outcomes}
    (hkept : Undisturbed own files₀ t (.received ep d o)) :
    ∃ u u' sent, t.receive (.received ep d o) = some (u, sent) ∧
      t'.receive (.received ep d o) = some (u', sent) ∧ Beside own files₀ ep u u' ∧
      ∀ p ∈ sent, p.1 = ep := by
  have hfound := h.foundAlike hd hkept t.recvBuffer
  have hask : AsksWithin (own ep) t.files (t.recvBuffer.fill d) :=
    hd.asksWithin (by rw [h.naming]; exact hown) t.recvBuffer
  have hask' : AsksWithin (own ep) t'.files (t.recvBuffer.fill d) :=
    hd.asksWithin (by rw [h.alone.1]; exact hown) t.recvBuffer
  obtain ⟨⟨session, f, sent⟩, hr⟩ := hd.handle_eq (t.sessions ep) t.files ep o
  obtain ⟨⟨session₁, f₁, sent₁⟩, hr₁⟩ := hd.handle_eq (t.sessions ep) t'.files ep o
  obtain ⟨f', hgo, hfiles, hframe, howns, hsent⟩ := handle_agrees h.files (h.owns ep) hask hfound
    (hr t.recvBuffer)
  obtain ⟨_, -, -, hframe', -, -⟩ := handle_agrees (.refl _ _) (h.owns ep) hask' (.refl _ _)
    (hr₁ t.recvBuffer)
  rw [hr₁ t.recvBuffer] at hgo
  cases hgo
  have hgo' := hr₁ t'.recvBuffer
  rw [h.session] at hgo'
  refine ⟨_, _, sent, receive_of_handle (hr t.recvBuffer), receive_of_handle hgo', ?_, hsent⟩
  constructor
  · simp only [Function.update_self]
  · exact hfiles
  · exact hframe.1.trans h.naming
  · exact hframe'.trans h.alone
  · exact owns_update h.owns howns

theorem Beside.receive_other (h : Beside own files₀ ep t t') (hd : WellFormed d)
    (hown : ∀ name, Names d name → own remote (files₀.denotes name))
    (hdisjoint : ∀ p, own ep p → ¬ own remote p) (hep : remote ≠ ep) (o : Outcomes) :
    ∃ u sent, t.receive (.received remote d o) = some (u, sent) ∧ Beside own files₀ ep u t' ∧
      ∀ p ∈ sent, p.1 = remote := by
  have hask : AsksWithin (own remote) t.files (t.recvBuffer.fill d) :=
    hd.asksWithin (by rw [h.naming]; exact hown) t.recvBuffer
  obtain ⟨⟨session, f, sent⟩, hr⟩ := hd.handle_eq (t.sessions remote) t.files remote o
  obtain ⟨f', -, -, hframe, howns, hsent⟩ := handle_agrees (.refl _ _) (h.owns remote) hask
    (.refl _ _) (hr t.recvBuffer)
  refine ⟨_, sent, receive_of_handle (hr t.recvBuffer), ?_, hsent⟩
  constructor
  · simp only [Function.update_of_ne hep.symm, h.session]
  · exact (hframe.mono hdisjoint).trans h.files
  · exact hframe.1.trans h.naming
  · exact h.alone
  · exact owns_update h.owns howns

/-- Whatever the other endpoints send in between, the replies to an endpoint, its session
and the files it asks for are those of the server that receives its datagrams alone, if no WRQ
looks up what another endpoint has brought into being. -/
theorem sessions_independent (srv : TFTPServer) (es : List Completion)
    (hstart : ∀ ep, srv.sessions ep = none)
    (hwf : ∀ ep d o, .received ep d o ∈ es → WellFormed d)
    (hdisjoint : ∀ ep ep' name name', ep ≠ ep' → Asked es ep name → Asked es ep' name' →
      srv.files.denotes name ≠ srv.files.denotes name')
    (hkept : Throughout receive (Undisturbed (owned es srv.files) srv.files) srv es)
    (ep : Endpoint) :
    ∃ t t' sent, run receive srv es = some (t, sent) ∧
      run receive srv (es.filter (IsFrom ep)) = some (t', sent.filter fun p => p.1 = ep) ∧
      t.sessions ep = t'.sessions ep ∧
      ∀ name, Asked es ep name → t.files.lookup name = t'.files.lookup name := by
  have hrefl : Beside (owned es srv.files) srv.files ep srv srv :=
    ⟨rfl, .refl _ _, rfl, .refl _ _, fun ep' => by rw [hstart]; exact owns_none⟩
  have hasked : ∀ {ep' d o}, .received ep' d o ∈ es → ∀ name, Names d name →
      owned es srv.files ep' (srv.files.denotes name) :=
    fun he name hname => ⟨name, ⟨_, _, he, hname⟩, rfl⟩
  have hboth := (throughout_of_forall (P := fun _ e => e ∈ es) (fun e he _ => he) srv).and hkept
  obtain ⟨t, t', sent, hrun, hrun', hbeside⟩ :=
    run_filter receive (IsFrom ep) (fun p => p.1 = ep)
      (fun s e => e ∈ es ∧ Undisturbed (owned es srv.files) srv.files s e)
      (Beside (owned es srv.files) srv.files ep)
      (by
        rintro s s' e h ⟨he, hk⟩ hm
        cases e with
        | failed => cases hm
        | received remote d o =>
          obtain rfl := of_decide_eq_true hm
          obtain ⟨u, u', sent, hu, hu', hbeside, hsent⟩ :=
            h.receive_own (hwf _ d o he) (hasked he) hk
          exact ⟨u, u', sent, hu, hu', hbeside, fun p hp => decide_eq_true (hsent p hp)⟩)
      (by
        rintro s s' e h ⟨he, -⟩ hm
        cases e with
        | failed => exact ⟨s, [], rfl, h, by simp⟩
        | received remote d o =>
          have hep : remote ≠ ep := of_decide_eq_false hm
          have hdisj : ∀ p, owned es srv.files ep p → ¬ owned es srv.files remote p := by
            rintro p ⟨name, hname, hp⟩ ⟨name', hname', hp'⟩
            exact hdisjoint ep remote name name' hep.symm hname hname' (hp.trans hp'.symm)
          obtain ⟨u, sent, hu, hbeside, hsent⟩ :=
            h.receive_other (hwf _ d o he) (hasked he) hdisj hep o
          exact ⟨u, sent, hu, hbeside, fun p hp => decide_eq_false (by rw [hsent p hp]; exact hep)⟩)
      hrefl hboth
  refine ⟨t, t', sent, hrun, hrun', hbeside.session, fun name hname => ?_⟩
  refine hbeside.files.lookup ⟨name, hname, ?_⟩
  rw [hbeside.naming]

theorem sessions_independent_two_clients :
    ∃ t t' sent, run receive (.init (.single [97] [1, 2, 3]))
        [.received ⟨0, 0⟩ (requestMessage .rrq [97] .binary) {},
          .received ⟨1, 1⟩ (requestMessage .wrq [98] .binary) {}] = some (t, sent) ∧
      run receive (.init (.single [97] [1, 2, 3]))
        [.received ⟨0, 0⟩ (requestMessage .rrq [97] .binary) {}] =
          some (t', sent.filter fun p => p.1 = ⟨0, 0⟩) ∧
      t.sessions ⟨0, 0⟩ = t'.sessions ⟨0, 0⟩ ∧
      ∀ name, Asked [.received ⟨0, 0⟩ (requestMessage .rrq [97] .binary) {},
          .received ⟨1, 1⟩ (requestMessage .wrq [98] .binary) {}] ⟨0, 0⟩ name →
        t.files.lookup name = t'.files.lookup name := by
  have hasked : ∀ ep name, Asked [.received ⟨0, 0⟩ (requestMessage .rrq [97] .binary) {},
      .received ⟨1, 1⟩ (requestMessage .wrq [98] .binary) {}] ep name →
      (ep = ⟨0, 0⟩ ∧ name = [97]) ∨ (ep = ⟨1, 1⟩ ∧ name = [98]) := by
    rintro ep name ⟨d, o, hmem, -, mode, hparse⟩
    rcases List.mem_cons.mp hmem with heq | hmem
    · cases heq
      exact .inl ⟨rfl, by cases hparse; rfl⟩
    · cases List.mem_singleton.mp hmem
      exact .inr ⟨rfl, by cases hparse; rfl⟩
  refine sessions_independent (.init (.single [97] [1, 2, 3])) _ (fun _ => rfl) ?_ ?_ ?_ ⟨0, 0⟩
  · intro ep d o hmem
    rcases List.mem_cons.mp hmem with heq | hmem
    · cases heq
      exact ⟨by decide, by decide, by decide⟩
    · cases List.mem_singleton.mp hmem
      exact ⟨by decide, by decide, by decide⟩
  · intro ep ep' name name' hne h h'
    rcases hasked ep name h with ⟨rfl, rfl⟩ | ⟨rfl, rfl⟩ <;>
      rcases hasked ep' name' h' with ⟨rfl, rfl⟩ | ⟨rfl, rfl⟩
    · exact absurd rfl hne
    · decide
    · decide
    · exact absurd rfl hne
  · refine throughout_of_forall (fun e he t => ?_) _
    cases e with
    | failed => trivial
    | received ep d o =>
      refine undisturbed_of_relative (fun name hname => ⟨name, ⟨d, o, he, hname⟩, rfl⟩)
        (fun name hname => ?_) t o
      rcases hasked ep name ⟨d, o, he, hname⟩ with ⟨-, rfl⟩ | ⟨-, rfl⟩ <;>
        exact ⟨by decide, by decide, by decide⟩

/-- One client asks to write `x` and another one `/x`, on a server that runs in `/s`. -/
def twoUploads : List Completion :=
  [.received ⟨0, 0⟩ (requestMessage .wrq (chars "x") .binary) {},
    .received ⟨1, 1⟩ (requestMessage .wrq (chars "/x") .binary) {}]

/-- The second client is answered by an ERROR, but alone by an ACK. -/
theorem absolute_name_disturbed :
    (∀ ep d o, .received ep d o ∈ twoUploads → WellFormed d) ∧
    (∀ ep ep' name name', ep ≠ ep' → Asked twoUploads ep name → Asked twoUploads ep' name' →
      absoluteHost.denotes name ≠ absoluteHost.denotes name') ∧
    ∃ t t' sent sent', run receive (.init absoluteHost) twoUploads = some (t, sent) ∧
      run receive (.init absoluteHost) (twoUploads.filter (IsFrom ⟨1, 1⟩)) = some (t', sent') ∧
      sent.filter (fun p => p.1 = ⟨1, 1⟩) ≠ sent' := by
  refine ⟨?_, ?_, _, _, _, _, rfl, rfl, by decide⟩
  · intro ep d o hmem
    rcases List.mem_cons.mp hmem with heq | hmem
    · cases heq
      exact ⟨by decide, by decide, by decide⟩
    · cases List.mem_singleton.mp hmem
      exact ⟨by decide, by decide, by decide⟩
  · have hasked : ∀ ep name, Asked twoUploads ep name →
        (ep = ⟨0, 0⟩ ∧ name = chars "x") ∨ (ep = ⟨1, 1⟩ ∧ name = chars "/x") := by
      rintro ep name ⟨d, o, hmem, -, mode, hparse⟩
      rcases List.mem_cons.mp hmem with heq | hmem
      · cases heq
        exact .inl ⟨rfl, by cases hparse; rfl⟩
      · cases List.mem_singleton.mp hmem
        exact .inr ⟨rfl, by cases hparse; rfl⟩
    intro ep ep' name name' hne h h'
    rcases hasked ep name h with ⟨rfl, rfl⟩ | ⟨rfl, rfl⟩ <;>
      rcases hasked ep' name' h' with ⟨rfl, rfl⟩ | ⟨rfl, rfl⟩
    · exact absurd rfl hne
    · decide
    · decide
    · exact absurd rfl hne

end Isolation
end Tftp
end NetworkProtocols
