import NetworkProtocols.Lib.Blocks
import NetworkProtocols.Lib.Transition
import NetworkProtocols.Tftp.WriteSession

/-!
# An upload whose blocks arrive more than once

The blocks of an accepted upload arrive in order, with copies of received blocks in
between. A copy is answered by an ERROR, but it moves the block counter, so that no
later block has the awaited number.
-/

namespace NetworkProtocols
namespace Tftp
namespace DuplicateData

open Blocks TFTPSessionWrite Transition

/-- A DATA datagram on its way: the number of its block, counted from one, and what the
environment answers when it arrives. -/
abbrev Delivery := ℕ × Outcomes

/-- The datagram that carries a block of `wire`. -/
def dataOf (wire : Bytes) (d : Delivery) : Datagram :=
  dataMessage (UInt16.ofNat d.1) (block 512 wire (d.1 - 1))

/-- What may arrive once the first `k` of `L` blocks were received: the other blocks in
order, with any copies of blocks received before. -/
inductive Deliveries (L : ℕ) : ℕ → List Delivery → Prop
  | done : Deliveries L L []
  | next {k ds} (o : Outcomes) : k < L → Deliveries L (k + 1) ds →
      Deliveries L k ((k + 1, o) :: ds)
  | copy {k j ds} (o : Outcomes) : 1 ≤ j → j ≤ k → Deliveries L k ds →
      Deliveries L k ((j, o) :: ds)

/-- The blocks after `k` arrive without a copy in between, and the last ACK is sent. -/
def InOrder (L : ℕ) : ℕ → List Delivery → Prop
  | _, [] => False
  | k, d :: ds => d.1 = k + 1 ∧ if k + 1 = L then d.2.sendOk = true else InOrder L (k + 1) ds

/-- A block with another number than the awaited one leaves session and files as they
are, and in the end the file holds all blocks and the finished session is erased. -/
def Survives (ep : Endpoint) (name : Bytes) (mode : TransferMode) (wire : Bytes) :
    TFTPServer → List Delivery → Prop
  | srv, [] => srv.files.lookup name = some (decode mode wire) ∧ srv.sessions ep = none
  | srv, d :: ds => ∃ srv' sent,
      srv.receive (.received ep (dataOf wire d) d.2) = some (srv', sent) ∧
      (∀ s, srv.sessions ep = some (.write s) → UInt16.ofNat d.1 ≠ s.blockCounter + 1 →
        srv'.sessions ep = srv.sessions ep ∧ srv'.files = srv.files) ∧
      Survives ep name mode wire srv' ds

variable {ep : Endpoint} {name : Bytes} {mode : TransferMode} {wire : Bytes} {srv : TFTPServer}
variable {k : ℕ} {ds : List Delivery}

theorem block_length_le_512 (wire : Bytes) (i : ℕ) : (block 512 wire i).length ≤ 512 :=
  block_length_le _ _ _

/-- Copies that arrive after the session was erased meet no session. -/
theorem survives_finished_iff (hds : Deliveries (count 512 wire) (count 512 wire) ds)
    (hnone : srv.sessions ep = none) :
    Survives ep name mode wire srv ds ↔ srv.files.lookup name = some (decode mode wire) := by
  induction ds generalizing srv with
  | nil => exact and_iff_left hnone
  | cons d ds ih =>
    have hr := TFTPServer.receive_data_none (w := UInt16.ofNat d.1) hnone
      (block_length_le_512 wire (d.1 - 1)) d.2
    have hrest : Deliveries (count 512 wire) (count 512 wire) ds := by
      cases hds with
      | next _ hlt => omega
      | copy _ _ _ hrest => exact hrest
    have hgone : ({ srv with recvBuffer := srv.recvBuffer.fill (dataOf wire d) } :
        TFTPServer).sessions ep = none := hnone
    have hnext := ih hrest hgone
    constructor
    · rintro ⟨srv', sent, hr', -, hsurv⟩
      rw [dataOf, hr] at hr'
      obtain ⟨rfl, -⟩ := Prod.mk.inj (Option.some.inj hr')
      exact hnext.mp hsurv
    · intro hfile
      refine ⟨_, _, hr, fun s hs => ?_, hnext.mpr hfile⟩
      rw [hnone] at hs
      cases hs

/-- The endpoint has an active upload whose counter is `k`. -/
def Awaits (srv : TFTPServer) (ep : Endpoint) (k : ℕ) : Prop :=
  ∃ s : TFTPSessionWrite, srv.sessions ep = some (.write s) ∧ s.ep = ep ∧ s.state = .active ∧
    s.blockCounter = UInt16.ofNat k

theorem not_survives_unexpected (h : Awaits srv ep k) {j : ℕ}
    (hother : UInt16.ofNat j ≠ UInt16.ofNat (k + 1)) (o : Outcomes) :
    ¬ Survives ep name mode wire srv ((j, o) :: ds) := by
  rintro ⟨srv', sent, hr, hsame, -⟩
  obtain ⟨s, hs, hep, hact, hcount⟩ := h
  have hne : UInt16.ofNat j ≠ s.blockCounter + 1 := by rwa [hcount, ← Bytes.ofNat_succ]
  rw [dataOf, TFTPServer.receive_data_unexpected hs hep hact
    (block_length_le_512 wire (j - 1)) hne o] at hr
  obtain ⟨rfl, -⟩ := Prod.mk.inj (Option.some.inj hr)
  obtain ⟨hkeep, -⟩ := hsame s hs hne
  have hsession := (Function.update_self _ _ _).symm.trans (hkeep.trans hs)
  have hn := congrArg (fun s : TFTPSessionWrite => s.blockCounter.toNat)
    (Session.write.inj (Option.some.inj hsession))
  simp only [hcount, ← Bytes.ofNat_succ, UInt16.toNat_ofNat'] at hn
  omega

theorem not_survives_copy (h : Awaits srv ep k) (hk : k < 65536) {j : ℕ} (hj : 1 ≤ j) (hjk : j ≤ k)
    (o : Outcomes) : ¬ Survives ep name mode wire srv ((j, o) :: ds) := by
  refine not_survives_unexpected h (fun he => ?_) o
  have hn := congrArg UInt16.toNat he
  rw [UInt16.toNat_ofNat', UInt16.toNat_ofNat'] at hn
  omega

theorem not_survives_unfinished {L : ℕ} (h : Awaits srv ep L) (hL : L < 65536)
    (hds : Deliveries L L ds) : ¬ Survives ep name mode wire srv ds := by
  cases hds with
  | done =>
    rintro ⟨-, hnone⟩
    obtain ⟨s, hs, -⟩ := h
    rw [hnone] at hs
    cases hs
  | next _ hlt => omega
  | copy o hj hjk => exact not_survives_copy h hL hj hjk o

theorem survives_expected (h : Awaits srv ep k) {o : Outcomes} {srv' : TFTPServer}
    {sent : List Packet}
    (hr : srv.receive (.received ep (dataOf wire (k + 1, o)) o) = some (srv', sent)) :
    Survives ep name mode wire srv ((k + 1, o) :: ds) ↔ Survives ep name mode wire srv' ds := by
  constructor
  · rintro ⟨srv₁, sent₁, hr₁, -, hsurv⟩
    rw [hr] at hr₁
    obtain ⟨rfl, -⟩ := Prod.mk.inj (Option.some.inj hr₁)
    exact hsurv
  · intro hsurv
    refine ⟨srv', sent, hr, fun s hs hne => absurd ?_ hne, hsurv⟩
    obtain ⟨t, ht, -, -, hcount⟩ := h
    rw [hs] at ht
    obtain rfl := Session.write.inj (Option.some.inj ht)
    rw [hcount, Bytes.ofNat_succ]

/-- The states of an upload between its blocks: each awaited block leads to the next one, and the
last one, once its ACK is sent, to the end, where the file is as `final` says. -/
structure Stages (ep : Endpoint) (name wire : Bytes) (final : Option Bytes)
    (Stage : ℕ → TFTPServer → Prop) : Prop where
  awaits : ∀ k srv, Stage k srv → Awaits srv ep k
  next : ∀ k srv o, Stage k srv → k < count 512 wire → ∃ srv' sent,
    srv.receive (.received ep (dataOf wire (k + 1, o)) o) = some (srv', sent) ∧
      if o.sendOk = true ∧ k + 1 = count 512 wire then
        srv'.sessions ep = none ∧ srv'.files.lookup name = final
      else Stage (k + 1) srv'

/-- The rest of an upload survives exactly when no copy comes before its last block and the file
is right at the end. -/
theorem Stages.survives_iff {final : Option Bytes} {Stage : ℕ → TFTPServer → Prop}
    (hstages : Stages ep name wire final Stage) (hL : count 512 wire < 65536) (h : Stage k srv)
    (hk : k < count 512 wire) (hds : Deliveries (count 512 wire) k ds) :
    Survives ep name mode wire srv ds ↔
      InOrder (count 512 wire) k ds ∧ final = some (decode mode wire) := by
  induction ds generalizing srv k with
  | nil =>
    cases hds with
    | done => omega
  | cons d ds ih =>
    cases hds with
    | @copy _ j _ o hj hjk _ =>
      refine iff_of_false (not_survives_copy (hstages.awaits k srv h) (by omega) hj hjk o) ?_
      rintro ⟨⟨hnum, -⟩, -⟩
      have hjs : j = k + 1 := hnum
      omega
    | next o _ hrest =>
      obtain ⟨srv', sent, hr, hnext⟩ := hstages.next k srv o h hk
      rw [survives_expected (hstages.awaits k srv h) hr]
      by_cases hlast : k + 1 = count 512 wire
      · cases hsend : o.sendOk with
        | true =>
          rw [if_pos ⟨hsend, hlast⟩] at hnext
          rw [survives_finished_iff (hlast ▸ hrest) hnext.1, hnext.2]
          simp [InOrder, hlast, hsend]
        | false =>
          rw [if_neg (by simp [hsend])] at hnext
          have hawaits := hstages.awaits _ _ hnext
          refine iff_of_false (not_survives_unfinished hawaits (by omega)
            (by rwa [hlast] at hrest ⊢)) ?_
          rintro ⟨⟨-, hin⟩, -⟩
          rw [if_pos hlast] at hin
          exact absurd hin (by simp [hsend])
      · rw [if_neg fun hdone => hlast hdone.2] at hnext
        rw [ih hnext (by omega) hrest]
        simp [InOrder, hlast]

/-- The stages of an upload that has its file open. -/
theorem stages_uploading (ep : Endpoint) (name : Bytes) (mode : TransferMode) (wire : Bytes) :
    Stages ep name wire (some (decode mode wire)) fun k srv =>
      srv.Uploading ep mode (srv.files.denotes name) k (decode mode (wire.take (512 * k))) where
  awaits := by
    rintro k srv ⟨s, hs, hep, hact, -, hcount, -, -⟩
    exact ⟨s, hs, hep, hact, hcount⟩
  next := by
    intro k srv o h hk
    obtain ⟨srv', hr, hfiles, hcontent, hnext⟩ :=
      h.receive_expected (block_length_le_512 wire k) o
    rw [← decode_append, ← take_succ] at hcontent hnext
    have hden : srv'.files.denotes = srv.files.denotes := by rw [hfiles]; rfl
    simp only [block_short_iff wire (by decide : 0 < 512) hk] at hnext
    refine ⟨srv', _, hr, ?_⟩
    by_cases hdone : o.sendOk = true ∧ k + 1 = count 512 wire
    · rw [if_pos hdone] at hnext ⊢
      rw [hdone.2, take_count _ (by decide)] at hcontent
      exact ⟨hnext, by rw [FileSystem.lookup, hden, hcontent]⟩
    · rw [if_neg hdone] at hnext ⊢
      rwa [hden]

theorem stages_stuck (ep : Endpoint) (name wire : Bytes) (final : Option Bytes) :
    Stages ep name wire final fun k srv => srv.Stuck ep k ∧ srv.files.lookup name = final where
  awaits := by
    rintro k srv ⟨⟨s, hs, hep, hact, hcount, -⟩, -⟩
    exact ⟨s, hs, hep, hact, hcount⟩
  next := by
    rintro k srv o ⟨h, hfile⟩ hk
    obtain ⟨srv', hr, hfiles, hnext⟩ := h.receive_expected (block_length_le_512 wire k) o
    simp only [block_short_iff wire (by decide : 0 < 512) hk] at hnext
    rw [← hfiles] at hfile
    refine ⟨srv', _, hr, ?_⟩
    by_cases hdone : o.sendOk = true ∧ k + 1 = count 512 wire
    · rw [if_pos hdone] at hnext ⊢
      exact ⟨hnext, hfile⟩
    · rw [if_neg hdone] at hnext ⊢
      exact ⟨hnext, hfile⟩

theorem counter_of_survives (h : Awaits srv ep k) (hds : Deliveries (count 512 wire) 0 ds)
    (hsurv : Survives ep name mode wire srv ds) : UInt16.ofNat k = 0 := by
  by_contra hzero
  cases hds with
  | copy _ hj hjk => omega
  | next o _ _ =>
    refine not_survives_unexpected h (fun he => hzero ?_) o hsurv
    rw [Bytes.ofNat_succ, Bytes.ofNat_succ] at he
    exact ((UInt16.add_left_inj 1).mp he).symm

/-- An accepted upload survives exactly when its session has not counted a block before, no copy
of a block comes before the last block, the ACK of the last block can be sent, and the session
opens the file, or the file is there with this content. -/
theorem upload_survives_iff (ep : Endpoint) (srv : TFTPServer) (s : TFTPSessionWrite)
    (request : Datagram) (name : Bytes) (mode : TransferMode) (o : Outcomes) (wire : Bytes)
    (ds : List Delivery) (hs : srv.writeSession ep s) (hep : s.ep = ep)
    (hd : srv.Requests .wrq request name mode) (hpass : ChecksPass srv.files o name)
    (hL : count 512 wire < 65536) (hds : Deliveries (count 512 wire) 0 ds) :
    (∃ srv' sent, srv.receive (.received ep request o) = some (srv', sent) ∧
        Survives ep name mode wire srv' ds) ↔
      s.blockCounter = 0 ∧ InOrder (count 512 wire) 0 ds ∧
        (s.outFile.file = none ∧ o.openOk = true ∨
          srv.files.lookup name = some (decode mode wire)) := by
  have hcount : s.blockCounter = UInt16.ofNat s.blockCounter.toNat := by simp
  have hgo : ∀ srv₁ sent₁, srv.receive (.received ep request o) = some (srv₁, sent₁) →
      ((∃ srv' sent, srv.receive (.received ep request o) = some (srv', sent) ∧
        Survives ep name mode wire srv' ds) ↔ Survives ep name mode wire srv₁ ds) := by
    intro srv₁ sent₁ hr
    refine ⟨?_, fun h => ⟨srv₁, _, hr, h⟩⟩
    rintro ⟨srv', sent, hr', hsurv⟩
    rw [hr] at hr'
    obtain ⟨rfl, -⟩ := Prod.mk.inj (Option.some.inj hr')
    exact hsurv
  by_cases hopen : s.outFile.file = none ∧ o.openOk = true
  · obtain ⟨srv₁, hr, hup, hfiles⟩ :=
      TFTPServer.receive_wrq_granted hs hep hopen.1 hd hpass hopen.2 _ hcount
    have hden : srv₁.files.denotes = srv.files.denotes := by rw [hfiles]; rfl
    rw [← hden] at hup
    rw [hgo _ _ hr]
    by_cases hzero : s.blockCounter = 0
    · have hempty : [] = decode mode (wire.take (512 * 0)) := by simp
      rw [hzero, hempty] at hup
      rw [(stages_uploading ep name mode wire).survives_iff hL hup (count_pos wire) hds]
      simp [hzero, hopen]
    · obtain ⟨t, ht, htep, hact, -, htcount, -, -⟩ := hup
      refine iff_of_false (fun hsurv => hzero ?_) fun h => hzero h.1
      rw [hcount]
      exact counter_of_survives ⟨t, ht, htep, hact, htcount⟩ hds hsurv
  · have hclosed : s.outFile.file.isSome = true ∨ o.openOk = false := by
      cases hout : s.outFile.file with
      | some p => exact .inl rfl
      | none => exact .inr (Bool.eq_false_iff.mpr fun ho => hopen ⟨hout, ho⟩)
    obtain ⟨srv₁, hr, hstuck, hfiles⟩ :=
      TFTPServer.receive_wrq_unopenable hs hep hd hpass hclosed _ hcount
    rw [hgo _ _ hr]
    by_cases hzero : s.blockCounter = 0
    · rw [hzero] at hstuck
      rw [(stages_stuck ep name wire (srv.files.lookup name)).survives_iff hL
        ⟨hstuck, by rw [hfiles]⟩ (count_pos wire) hds]
      simp [hzero, hopen]
    · obtain ⟨t, ht, htep, hact, htcount, -⟩ := hstuck
      refine iff_of_false (fun hsurv => hzero ?_) fun h => hzero h.1
      rw [hcount]
      exact counter_of_survives ⟨t, ht, htep, hact, htcount⟩ hds hsurv

theorem upload_survives_iff_one_block :
    (∃ srv' sent, (TFTPServer.init (.single [98] [])).receive
          (.received ⟨0, 0⟩ (requestMessage .wrq [97] .binary) {}) = some (srv', sent) ∧
        Survives ⟨0, 0⟩ [97] .binary [5] srv' [(1, {}), (1, {})]) ↔
      (0 : UInt16) = 0 ∧ InOrder 1 0 [(1, {}), (1, {})] ∧
        ((none : Option Path) = none ∧ true = true ∨
          (FileSystem.single [98] []).lookup [97] = some [5]) :=
  upload_survives_iff ⟨0, 0⟩ (.init (.single [98] [])) { ep := ⟨0, 0⟩ } _ [97] .binary {} [5]
    [(1, {}), (1, {})] (.inr ⟨rfl, rfl⟩) rfl
    (TFTPServer.requests_requestMessage _ .wrq .binary ⟨by decide, by decide, by decide⟩)
    (by decide) (by decide) (.next {} (by decide) (.copy {} le_rfl le_rfl .done))

/-- After a copy of block one the second block is not stored. -/
theorem copy_loses_second (ep : Endpoint) (srv : TFTPServer) (hnone : srv.sessions ep = none)
    {request : Datagram} (hd : srv.Requests .wrq request name mode)
    (hpass : ChecksPass srv.files {} name) (hwire : 512 ≤ wire.length) :
    ∃ srv' sent, run TFTPServer.receive srv (.received ep request {} ::
          [1, 1, 2].map fun i => .received ep (dataOf wire (i, {})) {}) = some (srv', sent) ∧
      srv'.files.lookup name = some (decode mode (wire.take 512)) ∧
      (srv'.sessions ep).isSome = true := by
  have hfirst := block_length_le_512 wire 0
  have hsecond := block_length_le_512 wire 1
  have hfull : ¬ (({} : Outcomes).sendOk = true ∧ (block 512 wire 0).length < 512) := by
    rintro ⟨-, hshort⟩
    rw [block_length] at hshort
    omega
  obtain ⟨srv₀, h₀, hup₀, hfiles₀⟩ :=
    (TFTPServer.unopened_of_none hnone).receive_granted hd hpass rfl
  obtain ⟨srv₁, h₁, hfiles₁, -, hup₁⟩ := hup₀.receive_expected hfirst {}
  rw [if_neg hfull] at hup₁
  obtain ⟨srv₂, h₂, hup₂, hfiles₂⟩ :=
    hup₁.receive_unexpected (w := UInt16.ofNat 1) hfirst (by decide) {}
  obtain ⟨srv₃, h₃, hup₃, hfiles₃⟩ :=
    hup₂.receive_unexpected (w := UInt16.ofNat 2) hsecond (by decide) {}
  obtain ⟨s, hs, -, -, -, -, -, hcontent⟩ := hup₃
  refine ⟨srv₃, _, run_cons h₀ (run_cons h₁ (run_cons h₂ (run_cons h₃ (run_nil srv₃)))), ?_, ?_⟩
  · have hden : srv₃.files.denotes = srv.files.denotes := by
      rw [hfiles₃, hfiles₂, hfiles₁, FileSystem.append_toNaming, hfiles₀,
        FileSystem.create_toNaming]
    rw [FileSystem.lookup, hden, hcontent]
    rfl
  · rw [hs]
    rfl

theorem upload_loses_block :
    Deliveries (count 512 (List.replicate 513 (7 : Byte))) 0 [(1, {}), (1, {}), (2, {})] ∧
    ∃ srv' sent, run TFTPServer.receive (.init (.single [98] []))
        (.received ⟨0, 0⟩ (requestMessage .wrq [97] .binary) {} ::
          [1, 1, 2].map fun i => .received ⟨0, 0⟩ (dataOf (List.replicate 513 7) (i, {})) {}) =
        some (srv', sent) ∧
      srv'.files.lookup [97] ≠ some (List.replicate 513 7) ∧ srv'.sessions ⟨0, 0⟩ ≠ none := by
  have hcount : count 512 (List.replicate 513 (7 : Byte)) = 2 := by
    rw [count, List.length_replicate]
  refine ⟨?_, ?_⟩
  · rw [hcount]
    exact .next {} (by decide) (.copy {} le_rfl le_rfl (.next {} (by decide) .done))
  have hname : ValidName [97] := ⟨by decide, by decide, by decide⟩
  have hwire : 512 ≤ (List.replicate 513 (7 : Byte)).length := by
    rw [List.length_replicate]
    decide
  obtain ⟨srv', sent, hrun, hfile, hsession⟩ := copy_loses_second ⟨0, 0⟩ (.init (.single [98] []))
    rfl (TFTPServer.requests_requestMessage _ .wrq .binary hname) (by decide) hwire
  refine ⟨srv', sent, hrun, ?_, Option.isSome_iff_ne_none.mp hsession⟩
  rw [hfile]
  intro h
  have hlen := congrArg List.length (Option.some.inj h)
  rw [decode, List.length_take, List.length_replicate] at hlen
  omega

end DuplicateData
end Tftp
end NetworkProtocols
