import NetworkProtocols.Lib.Channel
import NetworkProtocols.Tftp.Client
import NetworkProtocols.Tftp.Server

/-!
# A client and the server on one network

The left party is a call of `getFile` or `putFile`, the right party the server as one
endpoint sees it. The server's state is `none` once a handler has read outside its
buffer. One completion handler is one step.
-/

namespace NetworkProtocols
namespace Tftp

open Channel

def sentTo (ep : Endpoint) (packets : List Packet) : List Datagram :=
  (packets.filter fun p => p.1 = ep).map Prod.snd

@[simp] theorem sentTo_nil (ep : Endpoint) : sentTo ep [] = [] := rfl

@[simp] theorem sentTo_singleton (ep : Endpoint) (d : Datagram) : sentTo ep [(ep, d)] = [d] := by
  simp [sentTo]

theorem sentTo_send (ep : Endpoint) (o : Outcomes) (d : Datagram) :
    sentTo ep (if o.sendOk then [(ep, d)] else []) = [] ∨
      sentTo ep (if o.sendOk then [(ep, d)] else []) = [d] := by
  cases o.sendOk with
  | false => exact .inl rfl
  | true => exact .inr (sentTo_singleton ep d)

theorem eq_of_mem_sentTo {ep : Endpoint} {o : Outcomes} {d e : Datagram}
    (h : e ∈ sentTo ep (if o.sendOk then [(ep, d)] else [])) : e = d := by
  rcases sentTo_send ep o d with hout | hout
  · rw [hout] at h
    cases h
  · rw [hout] at h
    exact List.mem_singleton.mp h

def IsError (d : Datagram) : Prop := ∃ code, d = errorMessage code []

theorem AtMostError.sentTo {ep : Endpoint} {sent : List Packet} (h : AtMostError ep sent) :
    ∀ d ∈ Tftp.sentTo ep sent, IsError d := by
  rcases h with rfl | ⟨code, rfl⟩
  · simp
  · intro d hd
    rw [sentTo_singleton] at hd
    exact ⟨code, List.mem_singleton.mp hd⟩

/-- The server receives from `ep`. `Allowed` restricts what it receives in which state
and what the environment answers. -/
def serverReaction (ep : Endpoint) (Allowed : TFTPServer → Option Datagram → Outcomes → Prop) :
    Reaction (Option TFTPServer) Datagram := fun s i s' out =>
  ∃ server o, s = some server ∧ Allowed server i o ∧
    match server.receive (i.elim .failed fun d => .received ep d o) with
    | none => s' = none ∧ out = []
    | some (server', packets) => s' = some server' ∧ out = sentTo ep packets

/-- A call blocked in `recv()` takes one turn of its loop. -/
def clientReaction {L : Type} (turn : L → ClientOutcomes → Option Datagram → Call L × List Datagram)
    (Allowed : ClientOutcomes → Prop) : Reaction (Call L) Datagram := fun c i c' out =>
  ∃ locals o, c = .waiting locals ∧ Allowed o ∧ turn locals o i = (c', out)

/-- The network when the call has sent its request. -/
def start {L : Type} (call : Call L × List Datagram) (server : TFTPServer) :
    Net (Call L) (Option TFTPServer) Datagram where
  left := call.1
  right := some server
  toLeft := []
  toRight := call.2

theorem returned_forever {L B : Type} {turn : L → ClientOutcomes → Option Datagram →
    Call L × List Datagram} {Allowed : ClientOutcomes → Prop} {rb : Reaction B Datagram}
    {s t : Net (Call L) B Datagram} {b : Bool} {c : TFTPClient} (hs : s.left = .returned b c)
    (h : Relation.ReflTransGen (Lossy (clientReaction turn Allowed) rb) s t) :
    t.left = .returned b c := by
  refine Lossy.invariant (fun s => s.left = .returned b c) ?_ ?_ hs h
  · intro s i call out hs _ hr
    obtain ⟨locals, _, hcall, -⟩ := hr
    rw [hs] at hcall
    cases hcall
  · exact fun s i right out hs _ _ => hs

section

variable {ep : Endpoint} {Allowed : TFTPServer → Option Datagram → Outcomes → Prop}
variable {server : TFTPServer} {d : Datagram} {s' : Option TFTPServer} {out : List Datagram}

theorem serverReaction_failed (h : serverReaction ep Allowed (some server) none s' out) :
    s' = some server ∧ out = [] := by
  obtain ⟨_, o, hs, -, hm⟩ := h
  obtain rfl := Option.some.inj hs
  simpa [TFTPServer.receive] using hm

theorem serverReaction_received (h : serverReaction ep Allowed (some server) (some d) s' out) :
    ∃ o, Allowed server (some d) o ∧ ∀ server' packets,
      server.receive (.received ep d o) = some (server', packets) →
        s' = some server' ∧ out = sentTo ep packets := by
  obtain ⟨_, o, hs, ha, hm⟩ := h
  obtain rfl := Option.some.inj hs
  refine ⟨o, ha, fun server' packets hr => ?_⟩
  simp only [Option.elim_some] at hm
  rw [hr] at hm
  exact hm

theorem serverReaction_of_receive {server' : TFTPServer} {o : Outcomes} {packets : List Packet}
    (ho : Allowed server (some d) o)
    (h : server.receive (.received ep d o) = some (server', packets)) :
    serverReaction ep Allowed (some server) (some d) (some server') (sentTo ep packets) :=
  ⟨server, o, rfl, ho, by simp [h]⟩

end

end Tftp
end NetworkProtocols
