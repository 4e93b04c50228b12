import NetworkProtocols.Lib.AppendStore
import NetworkProtocols.Lib.Transition
import NetworkProtocols.Tftp.Handlers
import NetworkProtocols.Tftp.Transfer

/-!
# What the server does to the files of its host

A request to write opens a file only where none exists, unless it is for an absolute name, and an
open stream refuses a second file. So the endpoints use the files as the owners of a store that
is only added to, whatever datagrams arrive in whatever order.
-/

namespace NetworkProtocols
namespace Tftp

open Relation Transition

def Session.writes : Session → Option Path
  | .read _ => none
  | .write s => s.outFile.file

namespace TFTPServer

def store (srv : TFTPServer) : AppendStore Endpoint Path Byte where
  content := srv.files.content
  writer ep := (srv.sessions ep).bind Session.writes

end TFTPServer

namespace FileSafety

open TFTPServer

def AsksToStore (fs : FileSystem) (data : Buffer) (p : Path) : Prop :=
  data.word 0 = MessageType.wrq.code ∧
    ∃ name mode, data.request = some (.accepted name mode) ∧ fs.denotes name = p

/-- What one datagram may do to the files and to the file that its sender writes. -/
inductive Effect (data : Buffer) (o : Outcomes) (fs : FileSystem) :
    Option Path → FileSystem → Option Path → Prop
  | keep {w} : Effect data o fs w fs w
  | create {p} : AsksToStore fs data p →
      (TFTPSessionWrite.GrantsNew fs o data → fs.content p = none) →
      Effect data o fs none (fs.create p) (some p)
  | append {p} (bytes : Bytes) : Effect data o fs (some p) (fs.append p bytes) (some p)
  | finish {p} (bytes : Bytes) : Effect data o fs (some p) (fs.append p bytes) none
  | release {w} : Effect data o fs w fs none

variable {fs fs' : FileSystem} {o : Outcomes} {data : Buffer} {n : ℕ} {w w' : Option Path}

theorem Effect.naming (h : Effect data o fs w fs' w') : fs'.toNaming = fs.toNaming := by
  cases h <;> rfl

theorem isSome_append (fs : FileSystem) (p q : Path) (bytes : Bytes) :
    ((fs.append p bytes).content q).isSome = (fs.content q).isSome := by
  by_cases hqp : q = p
  · subst hqp
    rw [FileSystem.append_content_self, Option.isSome_map]
  · rw [FileSystem.append_content_of_ne _ _ _ hqp]

theorem Effect.creates (h : Effect data o fs w fs' w') {p : Path} (hnone : fs.content p = none)
    (hsome : (fs'.content p).isSome) : AsksToStore fs data p := by
  cases h with
  | @create q hask _ =>
    by_cases hpq : p = q
    · exact hpq ▸ hask
    · simp [FileSystem.create_content_of_ne _ _ hpq, hnone] at hsome
  | append bytes => simp [isSome_append, hnone] at hsome
  | finish bytes => simp [isSome_append, hnone] at hsome
  | keep => simp [hnone] at hsome
  | release => simp [hnone] at hsome

theorem Effect.openFile (s : OfStream) {name : Bytes} (hask : AsksToStore fs data (fs.denotes name))
    (hnew : TFTPSessionWrite.GrantsNew fs o data → fs.lookup name = none) (granted : Bool) :
    Effect data o fs s.file (s.openFile fs name granted).2 (s.openFile fs name granted).1.file := by
  by_cases h : s.file.isSome = true ∨ granted = false
  · rw [OfStream.openFile_refused h]
    exact .keep
  · obtain ⟨hfile, hgranted⟩ := not_or.mp h
    have hnone : s.file = none := by simpa using hfile
    obtain rfl : granted = true := by simpa using hgranted
    rw [OfStream.openFile_granted name hnone, hnone]
    exact .create hask hnew

theorem storePayload_cases (fs : FileSystem) (mode : TransferMode) (s : OfStream)
    (payload : Bytes) :
    (storePayload fs mode s payload).1.file = s.file ∧
      ((storePayload fs mode s payload).2 = fs ∨ ∃ p, s.file = some p ∧
        (storePayload fs mode s payload).2 = fs.append p (decode mode payload)) := by
  by_cases h : s.fail = true ∨ s.file = none
  · obtain ⟨hfs, hfile, -⟩ := storePayload_useless fs mode s h payload
    exact ⟨hfile, .inl hfs⟩
  · obtain ⟨hfail, hfile⟩ := not_or.mp h
    obtain ⟨p, hp⟩ := Option.ne_none_iff_exists'.mp hfile
    rw [storePayload_open fs mode s (by simpa using hfail) hp]
    exact ⟨rfl, .inr ⟨p, hp, rfl⟩⟩

theorem Effect.storeAndAcknowledge (s : TFTPSessionWrite) (payload : Bytes) :
    Effect data o fs s.outFile.file (s.storeAndAcknowledge fs o payload).2.1
      (s.storeAndAcknowledge fs o payload).1.outFile.file := by
  obtain ⟨hfile, hstored⟩ := storePayload_cases fs s.transferMode s.outFile payload
  rw [TFTPSessionWrite.storeAndAcknowledge_eq]
  rcases hstored with hfs | ⟨p, hp, hfs⟩
  · rw [hfs]
    split
    · simpa using Effect.release
    · simpa [hfile] using Effect.keep
  · rw [hfs, hp]
    split
    · simpa using Effect.finish _
    · simpa [hfile, hp] using Effect.append _

theorem Effect.checkAndOpen (s : TFTPSessionWrite) {name : Bytes} {mode : TransferMode}
    (hw : data.word 0 = MessageType.wrq.code) (hreq : data.request = some (.accepted name mode)) :
    Effect data o fs s.outFile.file (s.checkAndOpen fs o name).2.1
      (s.checkAndOpen fs o name).1.outFile.file := by
  by_cases hpass : TFTPSessionWrite.ChecksPass fs o name
  · rw [TFTPSessionWrite.checkAndOpen_pass hpass]
    exact .openFile s.outFile ⟨hw, name, mode, hreq, rfl⟩
      (fun hgrants => hgrants name mode hw hreq hpass) o.openOk
  · rw [TFTPSessionWrite.checkAndOpen_refuse hpass]
    exact .keep

theorem Effect.onDataReceived_write {s : TFTPSessionWrite}
    {r : TFTPSessionWrite × FileSystem × List Packet}
    (h : s.onDataReceived fs o data n = some r) :
    Effect data o fs s.outFile.file r.2.1 r.1.outFile.file := by
  cases TFTPSessionWrite.branch_of_received h with
  | @request name mode hw hreq =>
    exact .checkAndOpen { s with state := .active, transferMode := mode } hw hreq
  | @block bytes _ _ _ =>
    exact .storeAndAcknowledge { s with blockCounter := s.blockCounter + 1 } bytes
  | malformed => exact .keep
  | mismatch _ _ => exact .keep
  | ignored => exact .keep

theorem Effect.onDataReceived {s : Session} {r : Session × FileSystem × List Packet}
    (h : s.onDataReceived fs o data n = some r) : Effect data o fs s.writes r.2.1 r.1.writes := by
  cases s with
  | read s =>
    obtain ⟨r', -, rfl⟩ := Option.map_eq_some_iff.mp h
    exact .keep
  | write s =>
    obtain ⟨r', hr, rfl⟩ := Option.map_eq_some_iff.mp h
    exact .onDataReceived_write hr

theorem Effect.steps (h : Effect data o fs w fs' w')
    (hgrants : TFTPSessionWrite.GrantsNew fs o data) {ep : Endpoint}
    {writer : Endpoint → Option Path} (hw : writer ep = w) :
    ReflTransGen (AppendStore.Step ep) ⟨fs.content, writer⟩
      ⟨fs'.content, Function.update writer ep w'⟩ := by
  cases h with
  | keep =>
    rw [← hw, Function.update_eq_self]
  | create _ hnew => exact .single (.create hw (hnew hgrants))
  | append bytes =>
    rw [← hw, Function.update_eq_self]
    exact .single (.append bytes hw)
  | finish bytes => exact .tail (.single (.append bytes hw)) .release
  | release => exact .single .release

theorem writes_newSession {ep : Endpoint} {type : UInt16} {s : Session}
    (h : newSession ep type = some s) : s.writes = none := by
  unfold newSession at h
  split at h
  · cases h
    rfl
  split at h
  · cases h
    rfl
  · cases h

/-- A datagram has its effect, and then the session may be erased with the file it writes. -/
theorem Effect.handle {session t : Option Session} {ep : Endpoint} {sent : List Packet}
    (h : handle session fs ep o data n = some (t, fs', sent)) :
    ∃ w, Effect data o fs (session.bind Session.writes) fs' w ∧
      (t.bind Session.writes = w ∨ t = none) := by
  unfold TFTPServer.handle at h
  cases session with
  | some s =>
    obtain ⟨⟨s', f', sent'⟩, hr, heq⟩ := Option.map_eq_some_iff.mp h
    cases heq
    refine ⟨s'.writes, .onDataReceived hr, ?_⟩
    split
    · exact .inr rfl
    · exact .inl rfl
  | none =>
    dsimp only at h
    split at h
    · rename_i s hnew
      obtain ⟨⟨s', f', sent'⟩, hr, heq⟩ := Option.map_eq_some_iff.mp h
      cases heq
      have heffect := Effect.onDataReceived hr
      rw [writes_newSession hnew] at heffect
      exact ⟨s'.writes, heffect, .inl rfl⟩
    · cases h
      exact ⟨none, .keep, .inl rfl⟩

theorem store_update (srv : TFTPServer) (ep : Endpoint) (session : Option Session) (b : Buffer)
    (fs : FileSystem) :
    store ⟨Function.update srv.sessions ep session, b, fs⟩ =
      ⟨fs.content, Function.update srv.store.writer ep (session.bind Session.writes)⟩ := by
  ext : 1
  · rfl
  · funext ep'
    by_cases h : ep' = ep
    · subst h
      simp [store]
    · simp [store, h]

theorem receive_effect {srv srv' : TFTPServer} {ep : Endpoint} {d : Datagram} {sent : List Packet}
    (h : srv.receive (.received ep d o) = some (srv', sent)) :
    ∃ w session, Effect (srv.recvBuffer.fill d) o srv.files (srv.store.writer ep) srv'.files w ∧
      (session.bind Session.writes = w ∨ session = none) ∧
      srv'.sessions = Function.update srv.sessions ep session := by
  rw [receive_eq_handle] at h
  obtain ⟨⟨t, f, sent'⟩, hr, heq⟩ := Option.map_eq_some_iff.mp h
  cases heq
  obtain ⟨w, heffect, hw⟩ := Effect.handle hr
  exact ⟨w, t, heffect, hw, rfl⟩

/-- Whatever is received, the server does to the files only what its sender may do as an owner of
the store, unless it grants a request for a file that exists. -/
theorem receive_steps {srv srv' : TFTPServer} {ep : Endpoint} {d : Datagram} {sent : List Packet}
    (hgrants : srv.GrantsNew d o) (h : srv.receive (.received ep d o) = some (srv', sent)) :
    ReflTransGen (AppendStore.Step ep) srv.store srv'.store := by
  obtain ⟨w, session, heffect, hw, hsessions⟩ := receive_effect h
  have hstore : srv'.store = ⟨srv'.files.content,
      Function.update srv.store.writer ep (session.bind Session.writes)⟩ := by
    rw [← store_update srv ep session srv'.recvBuffer, ← hsessions]
  have hsteps := heffect.steps hgrants (rfl : srv.store.writer ep = _)
  rw [hstore]
  rcases hw with rfl | rfl
  · exact hsteps
  · have herase := hsteps.tail .release
    rwa [Function.update_idem] at herase

theorem receive_steps_upload :
    ∃ srv sent, receive (.init (.single [97] [1, 2, 3]))
        (.received ⟨0, 0⟩ (requestMessage .wrq [98] .binary) {}) = some (srv, sent) ∧
      srv.store.content [98] = some [] ∧
      ReflTransGen (AppendStore.Step ⟨0, 0⟩)
        (store (.init (.single [97] [1, 2, 3]))) srv.store := by
  refine ⟨_, _, rfl, rfl, ?_⟩
  exact @receive_steps {} (.init (.single [97] [1, 2, 3])) _ _ (requestMessage .wrq [98] .binary)
    _ (grantsNew_requestMessage .binary ⟨by decide, by decide, by decide⟩ (by decide)) rfl

theorem receive_creates {srv srv' : TFTPServer} {ep : Endpoint} {d : Datagram} {sent : List Packet}
    (h : srv.receive (.received ep d o) = some (srv', sent)) :
    srv'.files.toNaming = srv.files.toNaming ∧
      ∀ p, srv.files.content p = none → (srv'.files.content p).isSome →
        AsksToStore srv.files (srv.recvBuffer.fill d) p := by
  obtain ⟨w, session, heffect, -, -⟩ := receive_effect h
  exact ⟨heffect.naming, fun p => heffect.creates⟩

/-- A granted WRQ asks for a file that does not exist. -/
def GrantedNew (srv : TFTPServer) : Completion → Prop
  | .failed => True
  | .received _ d o => srv.GrantsNew d o

theorem receive_evolves {srv srv' : TFTPServer} {c : Completion} {sent : List Packet}
    (hgrants : GrantedNew srv c) (h : srv.receive c = some (srv', sent)) :
    srv.store.Evolves srv'.store := by
  cases c with
  | failed =>
    cases h
    exact .refl
  | received ep d o => exact AppendStore.Evolves.of_steps (receive_steps hgrants h)

theorem run_evolves {srv srv' : TFTPServer} {es : List Completion} {sent : List Packet}
    (hgrants : Throughout receive GrantedNew srv es)
    (h : run receive srv es = some (srv', sent)) : srv.store.Evolves srv'.store := by
  induction es generalizing srv sent with
  | nil =>
    cases h
    exact .refl
  | cons c es ih =>
    obtain ⟨t, _, _, ht, hu, -⟩ := run_cons_inv h
    exact (receive_evolves hgrants.1 ht).trans (ih (hgrants.2 _ _ ht) hu)

theorem store_init_valid (files : FileSystem) : (TFTPServer.init files).store.Valid :=
  ⟨fun _ _ h => (nomatch h), fun _ _ _ h => (nomatch h)⟩

/-- The server is reached from its construction, with whatever was received so far, and has granted
no request for a file that existed. -/
def Reachable (srv : TFTPServer) (files : FileSystem) : Prop :=
  ∃ es sent, run receive (.init files) es = some (srv, sent) ∧
    Throughout receive GrantedNew (.init files) es

theorem Reachable.valid {files : FileSystem} {srv : TFTPServer} (h : Reachable srv files) :
    srv.store.Valid := by
  obtain ⟨es, sent, hrun, hgrants⟩ := h
  exact (run_evolves hgrants hrun).valid (store_init_valid files)

/-- In every run that grants no request for a file that exists, a file keeps what it holds and only
grows at its end, a file that no upload has open keeps its content for ever, and no two endpoints
have one file open for writing. -/
theorem files_append_only (files : FileSystem) (es es' : List Completion) (s t : TFTPServer)
    (sent sent' : List Packet) (hs : run receive (.init files) es = some (s, sent))
    (hsgrants : Throughout receive GrantedNew (.init files) es)
    (ht : run receive s es' = some (t, sent')) (htgrants : Throughout receive GrantedNew s es') :
    (∀ p bytes, s.files.content p = some bytes →
      ∃ more, t.files.content p = some (bytes ++ more)) ∧
    (∀ p bytes, s.files.content p = some bytes →
      (∀ ep session, s.sessions ep = some session → session.writes ≠ some p) →
        t.files.content p = some bytes) ∧
    ∀ ep ep' session session' p, t.sessions ep = some session → t.sessions ep' = some session' →
      session.writes = some p → session'.writes = some p → ep = ep' := by
  have hst := run_evolves htgrants ht
  have hvalid : t.store.Valid := hst.valid (Reachable.valid ⟨es, sent, hs, hsgrants⟩)
  refine ⟨hst.grows, fun p bytes hp hfree => ?_, fun ep ep' session session' p h h' hw hw' => ?_⟩
  · refine (hst.isSealed ⟨hp, fun ep hw => ?_⟩).1
    obtain ⟨session, hsession, hpath⟩ := Option.bind_eq_some_iff.mp hw
    exact hfree ep session hsession hpath
  · refine hvalid.unique ep ep' p ?_ ?_
    · exact Option.bind_eq_some_iff.mpr ⟨session, h, hw⟩
    · exact Option.bind_eq_some_iff.mpr ⟨session', h', hw'⟩

theorem files_append_only_upload :
    ∃ s t sent sent', run receive (.init (.single [97] [1, 2, 3]))
        [.received ⟨0, 0⟩ (requestMessage .wrq [98] .binary) {}] = some (s, sent) ∧
      run receive s [.received ⟨1, 1⟩ (requestMessage .wrq [98] .binary) {},
        .received ⟨0, 0⟩ (dataMessage 1 [4, 5]) {}] = some (t, sent') ∧
      t.files.content [97] = some [1, 2, 3] ∧ ∃ more, t.files.content [98] = some ([] ++ more) := by
  refine ⟨_, _, _, _, rfl, rfl, ?_⟩
  have hname : ValidName [98] := ⟨by decide, by decide, by decide⟩
  have hwrq : ∀ srv : TFTPServer, srv.GrantsNew (requestMessage .wrq [98] .binary) {} :=
    fun srv => grantsNew_requestMessage .binary hname (by decide)
  have hdata : ∀ srv : TFTPServer, srv.GrantsNew (dataMessage 1 [4, 5]) {} := fun srv =>
    grantsNew_of_word (srv.recvBuffer.word_zero_dataMessage (by decide)) (by decide)
  obtain ⟨hgrows, hsealed, -⟩ := files_append_only (.single [97] [1, 2, 3])
    [.received ⟨0, 0⟩ (requestMessage .wrq [98] .binary) {}]
    [.received ⟨1, 1⟩ (requestMessage .wrq [98] .binary) {},
      .received ⟨0, 0⟩ (dataMessage 1 [4, 5]) {}] _ _ _ _ rfl ⟨hwrq _, fun _ _ _ => trivial⟩ rfl
    ⟨hwrq _, fun _ _ _ => ⟨hdata _, fun _ _ _ => trivial⟩⟩
  refine ⟨hsealed [97] [1, 2, 3] rfl fun ep session h => ?_, hgrows [98] [] rfl⟩
  by_cases hep : ep = ⟨0, 0⟩
  · subst hep
    cases h
    decide
  · change Function.update (fun _ => none) (⟨0, 0⟩ : Endpoint) _ ep = some session at h
    rw [Function.update_of_ne hep] at h
    cases h

end FileSafety
end Tftp
end NetworkProtocols
