/-
Lpc1768/LinkDaemon.lean

The loop of `vEthernetDaemon`: it polls the PHY, and when the status has changed
it programs the speed and the duplex mode of the controller and has the TCP/IP
thread set the link of the interface, by a message in the mailbox of that thread.
The message may not be had; the daemon does not look.

Other tasks use the mailbox too, `vPacketReceiveTask` switches the receiver off
and on in the same `Command` register, and the TCP/IP thread works at any time:
each moves between the daemon's poll and its post.  The poll and what follows it
up to the post are one step: the receive task has a higher priority than the
daemon, so that its writes to `Command` are never cut in two by the daemon's.

`mac_agrees_with_phy` is about the controller, which the daemon programs itself.
`link_follows_iff` is about the interface: its link follows the PHY exactly if no
message is missing at an update that changes it.
-/
import Lpc1768.PhyStatus
import Lpc1768.RxRing
import Lpc1768.Transition

namespace Lpc1768

/-! ### The controller -/

def emacMac2FullDup : BitVec 32 := 0x00000001
def emacMac2CrcEn : BitVec 32 := 0x00000010
def emacMac2PadEn : BitVec 32 := 0x00000020
def emacCrTxEn : BitVec 32 := 0x00000002
def emacCrPassRxFilt : BitVec 32 := 0x00000080
def emacCrRmii : BitVec 32 := 0x00000200
def emacCrFullDup : BitVec 32 := 0x00000400
def emacIpgtFullDup : BitVec 32 := 0x15
def emacIpgtHalfDup : BitVec 32 := 0x12
def emacSuppSpeed : BitVec 32 := 0x00000100

/-- The registers with the speed and the duplex mode. -/
@[ext] structure MacMode where
  supp : BitVec 32
  mac2 : BitVec 32
  command : BitVec 32
  ipgt : BitVec 32
  deriving DecidableEq, Repr

/-- `lpc_emac_set_duplex(full_duplex)`. -/
def lpcEmacSetDuplex (fullDuplex : Bool) (m : MacMode) : MacMode :=
  if fullDuplex then
    { m with
      ipgt := emacIpgtFullDup
      mac2 := m.mac2 ||| emacMac2FullDup
      command := m.command ||| emacCrFullDup }
  else
    { m with
      ipgt := emacIpgtHalfDup
      mac2 := m.mac2 &&& ~~~emacMac2FullDup
      command := m.command &&& ~~~emacCrFullDup }

/-- `lpc_emac_set_speed(mbs_100)`. -/
def lpcEmacSetSpeed (mbs100 : Bool) (m : MacMode) : MacMode :=
  if mbs100 then { m with supp := emacSuppSpeed } else { m with supp := 0 }

/-- `lpc_low_level_input` switches the receiver on or off. -/
def MacMode.receiver (m : MacMode) (on : Bool) : MacMode :=
  { m with command := if on then m.command ||| emacCrRxEn else m.command &&& ~~~emacCrRxEn }

/-- What `low_level_init` makes of these registers. -/
def lowLevelInitMode (r : Bringup) (m : MacMode) : MacMode :=
  if r.lpcPhyInit = false then m
  else
    let m : MacMode :=
      { supp := emacSuppSpeed
        mac2 := emacMac2FullDup ||| emacMac2CrcEn ||| emacMac2PadEn
        command := emacCrFullDup ||| emacCrRmii
        ipgt := emacIpgtFullDup }
    if r.lpcTxSetup ≠ errOk then m
    else if r.lpcRxSetup ≠ errOk then m
    else { m with command := m.command &&& ~~~emacCrPassRxFilt ||| (emacCrTxEn ||| emacCrRxEn) }

/-! ### The interface and the mailbox -/

/-- `NETIF_FLAG_LINK_UP`. -/
def netifFlagLinkUp : ℕ := 0x04

/-- `netif_is_link_up(netif)`. -/
def Netif.isLinkUp (n : Netif) : Bool := n.flags &&& netifFlagLinkUp ≠ 0

/-- `netif_set_link_up(netif)`. -/
def Netif.setLinkUp (n : Netif) : Netif :=
  if n.flags &&& netifFlagLinkUp = 0 then { n with flags := n.flags ||| netifFlagLinkUp } else n

/-- `netif_set_link_down(netif)`. -/
def Netif.setLinkDown (n : Netif) : Netif :=
  if n.flags &&& netifFlagLinkUp ≠ 0 then
    { n with flags := n.flags &&& (0xFF - netifFlagLinkUp) }
  else n

/-- A message to the TCP/IP thread: one of the daemon's two callbacks, or one
that does not concern the link. -/
inductive TcpipMsg
  | callback (up : Bool)
  | other
  deriving DecidableEq, Repr

/-- `tcpip_thread_handle_msg(msg)`. -/
def TcpipMsg.handle (n : Netif) : TcpipMsg → Netif
  | .callback true => n.setLinkUp
  | .callback false => n.setLinkDown
  | .other => n

/-- `TCPIP_MBOX_SIZE`. -/
def tcpipMboxSize : ℕ := 4 + 4 + 4

/-! ### The system -/

/-- The daemon is at the top of its loop, or in `sys_mbox_post`. -/
inductive DaemonPc
  | top
  | post (up : Bool)
  deriving DecidableEq, Repr

/-- `physts` is the variable of the daemon: what the last poll returned. -/
structure LinkSys where
  phy : PhyDriver
  mac : MacMode
  physts : Option (BitVec 32)
  pc : DaemonPc
  mbox : List TcpipMsg
  netif : Netif

inductive LinkAct
  /-- the daemon polls, and gets a message if it asks for one -/
  | poll (mrdd : Option (BitVec 32)) (msg : Bool)
  /-- the daemon's message is in the mailbox -/
  | post
  /-- another task's message is in the mailbox -/
  | otherPost
  /-- the TCP/IP thread handles a message -/
  | tcpip
  /-- `lpc_low_level_input` switches the receiver off or on -/
  | receiver (on : Bool)

/-- `netif_add` has returned, on any path through `lpc_enetif_init`. -/
def LinkSys.start (phy : PhyDriver) (mac : MacMode) (sa : StationAddress) (written : Bool)
    (bmcr : ℕ → Option (BitVec 32)) (r : Bringup) : LinkSys :=
  let init := lpcPhyInit written bmcr phy
  let r := { r with lpcPhyInit := init.2 }
  { phy := init.1
    mac := lowLevelInitMode r mac
    physts := none
    pc := .top
    mbox := []
    netif := (lpcEnetifInit r sa).1 }

/-- `tcpip_callback` up to the post; without a message it returns `ERR_MEM`, and
the daemon goes on. -/
def LinkSys.tcpipCallback (s : LinkSys) (up msg : Bool) : LinkSys :=
  if msg then { s with pc := .post up } else s

/-- The body of the loop of `vEthernetDaemon`. -/
def vEthernetDaemon (s : LinkSys) (mrdd : Option (BitVec 32)) (msg : Bool) : LinkSys :=
  let (phy, physts) := lpcPHYStsPoll mrdd s.phy
  let s := { s with phy := phy, physts := some physts }
  if physts &&& phyLinkChanged ≠ 0 then
    if physts &&& phyLinkConnected ≠ 0 then
      let mac := lpcEmacSetSpeed (physts &&& phyLinkSpeed100 ≠ 0) s.mac
      let mac := lpcEmacSetDuplex (physts &&& phyLinkFullduplx ≠ 0) mac
      { s with mac := mac }.tcpipCallback true msg
    else s.tcpipCallback false msg
  else s

def linkStep (s : LinkSys) : LinkAct → Option LinkSys
  | .poll mrdd msg => if s.pc = .top then some (vEthernetDaemon s mrdd msg) else none
  | .post =>
      match s.pc with
      | .top => none
      | .post up =>
          if s.mbox.length < tcpipMboxSize then
            some { s with pc := .top, mbox := s.mbox ++ [.callback up] }
          else none
  | .otherPost =>
      if s.mbox.length < tcpipMboxSize then some { s with mbox := s.mbox ++ [.other] } else none
  | .tcpip =>
      match s.mbox with
      | [] => none
      | m :: ms => some { s with mbox := ms, netif := m.handle s.netif }
  | .receiver on => some { s with mac := s.mac.receiver on }

/-! ### The two properties -/

/-- The controller is set for the speed and the duplex mode in `physts`. -/
structure MacAgrees (m : MacMode) (physts : BitVec 32) : Prop where
  speed : m.supp &&& emacSuppSpeed ≠ 0 ↔ physts &&& phyLinkSpeed100 ≠ 0
  mac2 : m.mac2 &&& emacMac2FullDup ≠ 0 ↔ physts &&& phyLinkFullduplx ≠ 0
  command : m.command &&& emacCrFullDup ≠ 0 ↔ physts &&& phyLinkFullduplx ≠ 0
  ipgt : m.ipgt = if physts &&& phyLinkFullduplx ≠ 0 then emacIpgtFullDup else emacIpgtHalfDup

/-- The daemon is at the top of its loop, and every callback has been executed. -/
def LinkSys.Quiet (s : LinkSys) : Prop := s.pc = .top ∧ ∀ m ∈ s.mbox, m = .other

/-- The interface's link is the one of the last update. -/
def LinkSys.LinkAgrees (s : LinkSys) : Prop :=
  s.netif.isLinkUp = true ↔ s.phy.physts &&& phyLinkConnected ≠ 0

/-- The links agree in this state once the TCP/IP thread has executed the
callbacks that are in the mailbox. -/
def LinkSys.Follows (s : LinkSys) : Prop :=
  ∀ acts t, (∀ a ∈ acts, a = .tcpip) → Run linkStep s acts t → t.Quiet → t.LinkAgrees

/-- A poll that completes an update and finds no message leaves `connected` as it
was. -/
def LinkSys.Delivers (s : LinkSys) : LinkAct → Prop
  | .poll _ false =>
      s.phy.phyustate = 2 →
        (s.phy.sts.setWidth 16 &&& emacPhyBmsrLinkEstablished ≠ 0 ↔
          s.phy.physts &&& phyLinkConnected ≠ 0)
  | _ => True

/-! ### The receive task's writes -/

/-- What a restart of the receive side does to `Command` is the receiver switched
off and on. -/
theorem rxRestart_receiver (d : RxDrv) (heap : ℕ → Option (ℕ × ℕ)) {s : LinkSys}
    (h : s.mac.command = d.command) : ∃ t,
    Run linkStep s [.receiver false, .receiver true] t ∧
      t = { s with mac := { s.mac with command := (rxRestart d heap).command } } := by
  refine ⟨_, .cons rfl (.cons rfl (.nil _)), ?_⟩
  rw [(rxRestart_control d heap).2.1, ← h]
  rfl

/-! ### The steps -/

/-- What a step can do. -/
theorem linkStep_cases {s t : LinkSys} {a : LinkAct} (h : linkStep s a = some t) :
    (∃ mrdd msg, a = .poll mrdd msg ∧ s.pc = .top ∧ t = vEthernetDaemon s mrdd msg) ∨
    (∃ up, a = .post ∧ s.pc = .post up ∧ s.mbox.length < tcpipMboxSize ∧
      t = { s with pc := .top, mbox := s.mbox ++ [.callback up] }) ∨
    (a = .otherPost ∧ s.mbox.length < tcpipMboxSize ∧
      t = { s with mbox := s.mbox ++ [.other] }) ∨
    (∃ m ms, a = .tcpip ∧ s.mbox = m :: ms ∧
      t = { s with mbox := ms, netif := m.handle s.netif }) ∨
    (∃ on, a = .receiver on ∧ t = { s with mac := s.mac.receiver on }) := by
  cases a with
  | poll mrdd msg =>
      obtain ⟨htop, ht⟩ := of_guard h
      exact .inl ⟨mrdd, msg, rfl, htop, ht⟩
  | post =>
      simp only [linkStep] at h
      split at h
      · contradiction
      · next up hpc =>
        obtain ⟨hroom, ht⟩ := of_guard h
        exact .inr (.inl ⟨up, rfl, hpc, hroom, ht⟩)
  | otherPost =>
      obtain ⟨hroom, ht⟩ := of_guard h
      exact .inr (.inr (.inl ⟨rfl, hroom, ht⟩))
  | tcpip =>
      simp only [linkStep] at h
      split at h
      · contradiction
      · next m ms hmbox =>
        exact .inr (.inr (.inr (.inl ⟨m, ms, rfl, hmbox, (Option.some.inj h).symm⟩)))
  | receiver on =>
      exact .inr (.inr (.inr (.inr ⟨on, rfl, (Option.some.inj h).symm⟩)))

/-! ### A round of the daemon -/

/-- What the daemon programs for a status. -/
def MacMode.program (m : MacMode) (physts : BitVec 32) : MacMode :=
  lpcEmacSetDuplex (physts &&& phyLinkFullduplx ≠ 0)
    (lpcEmacSetSpeed (physts &&& phyLinkSpeed100 ≠ 0) m)

/-- A round in one equation: a change programs the controller if the link is
connected, and leads to a post if there is a message. -/
theorem vEthernetDaemon_eq (s : LinkSys) (mrdd : Option (BitVec 32)) (msg : Bool) :
    let phy := (lpcPHYStsPoll mrdd s.phy).1
    let up := (linkOf phy.physts).connected
    vEthernetDaemon s mrdd msg =
      { s with
        phy := phy
        physts := some phy.physts
        mac := if Changed phy.physts ∧ up = true then s.mac.program phy.physts else s.mac
        pc := if Changed phy.physts ∧ msg = true then .post up else s.pc } := by
  obtain ⟨phy, hpoll⟩ : ∃ phy, lpcPHYStsPoll mrdd s.phy = (phy, phy.physts) := ⟨_, rfl⟩
  unfold vEthernetDaemon
  rw [hpoll]
  dsimp only
  by_cases hch : Changed phy.physts
  · rw [if_pos (show phy.physts &&& phyLinkChanged ≠ 0 from hch)]
    by_cases hup : phy.physts &&& phyLinkConnected ≠ 0
    · have hlink : (linkOf phy.physts).connected = true := decide_eq_true hup
      rw [if_pos hup, hlink]
      cases msg <;> simp [LinkSys.tcpipCallback, hch, MacMode.program]
    · have hlink : (linkOf phy.physts).connected = false := decide_eq_false hup
      rw [if_neg hup, hlink]
      cases msg <;> simp [LinkSys.tcpipCallback, hch]
  · rw [if_neg (show ¬ phy.physts &&& phyLinkChanged ≠ 0 from hch)]
    simp [hch]

/-! ### The controller follows the PHY -/

theorem lpcEmacSetSpeed_supp (mbs100 : Bool) (m : MacMode) :
    (lpcEmacSetSpeed mbs100 m).supp &&& emacSuppSpeed ≠ 0 ↔ mbs100 = true := by
  cases mbs100
  · exact iff_of_false (fun h => h (BitVec.zero_and)) Bool.false_ne_true
  · exact iff_of_true (show emacSuppSpeed &&& emacSuppSpeed ≠ 0 by decide) rfl

/-- Setting or clearing one bit, seen by a test of it. -/
theorem and_ite_ne_zero (b : Bool) (x : BitVec 32) {i : ℕ} (hi : i < 32) :
    (if b then x ||| BitVec.twoPow 32 i else x &&& ~~~BitVec.twoPow 32 i) &&&
        BitVec.twoPow 32 i ≠ 0 ↔ b = true := by
  rw [and_twoPow_ne_zero _ hi]
  cases b <;> simp

theorem lpcEmacSetDuplex_spec (fullDuplex : Bool) (m : MacMode) :
    let t := lpcEmacSetDuplex fullDuplex m
    t.supp = m.supp ∧
      (t.mac2 &&& emacMac2FullDup ≠ 0 ↔ fullDuplex = true) ∧
      (t.command &&& emacCrFullDup ≠ 0 ↔ fullDuplex = true) ∧
      t.ipgt = if fullDuplex then emacIpgtFullDup else emacIpgtHalfDup := by
  have hmac2 := and_ite_ne_zero fullDuplex m.mac2 (show 0 < 32 by decide)
  have hcommand := and_ite_ne_zero fullDuplex m.command (show 10 < 32 by decide)
  cases fullDuplex
  · exact ⟨rfl, hmac2, hcommand, rfl⟩
  · exact ⟨rfl, hmac2, hcommand, rfl⟩

theorem MacMode.program_agrees (m : MacMode) (physts : BitVec 32) :
    MacAgrees (m.program physts) physts := by
  obtain ⟨hsupp, hmac2, hcommand, hipgt⟩ := lpcEmacSetDuplex_spec
    (physts &&& phyLinkFullduplx ≠ 0) (lpcEmacSetSpeed (physts &&& phyLinkSpeed100 ≠ 0) m)
  have hspeed := lpcEmacSetSpeed_supp (physts &&& phyLinkSpeed100 ≠ 0) m
  rw [← hsupp] at hspeed
  refine ⟨hspeed.trans (decide_eq_true_iff), hmac2.trans decide_eq_true_iff,
    hcommand.trans decide_eq_true_iff, hipgt.trans ?_⟩
  exact if_congr decide_eq_true_iff rfl rfl

/-- Only the speed and the duplex mode of the status matter. -/
theorem MacAgrees.congr {m : MacMode} {p q : BitVec 32} (h : MacAgrees m p)
    (hlink : linkOf q = linkOf p) : MacAgrees m q := by
  have h100 : q &&& phyLinkSpeed100 ≠ 0 ↔ p &&& phyLinkSpeed100 ≠ 0 :=
    decide_eq_decide.mp (congrArg Link.speed100 hlink)
  have hfull : q &&& phyLinkFullduplx ≠ 0 ↔ p &&& phyLinkFullduplx ≠ 0 :=
    decide_eq_decide.mp (congrArg Link.fullDuplex hlink)
  refine ⟨h.speed.trans h100.symm, h.mac2.trans hfull.symm, h.command.trans hfull.symm, ?_⟩
  rw [h.ipgt]
  exact if_congr hfull.symm rfl rfl

/-- The duplex bit of `Command` and the receiver's bit are different ones. -/
theorem MacAgrees.receiver {m : MacMode} {p : BitVec 32} (h : MacAgrees m p) (on : Bool) :
    MacAgrees (m.receiver on) p := by
  refine ⟨h.speed, h.mac2, ?_, h.ipgt⟩
  rw [← h.command]
  have hset : emacCrRxEn &&& emacCrFullDup = 0 := by decide
  have hclear : ~~~emacCrRxEn &&& emacCrFullDup = emacCrFullDup := by decide
  cases on
  · show (m.command &&& ~~~emacCrRxEn) &&& emacCrFullDup ≠ 0 ↔ _
    rw [BitVec.and_assoc, hclear]
  · show (m.command ||| emacCrRxEn) &&& emacCrFullDup ≠ 0 ↔ _
    rw [BitVec.and_or_distrib_right, hset]
    simp

/-- What the daemon's rounds keep of the driver and the controller. -/
structure MacInv (s : LinkSys) : Prop where
  synced : s.phy.Synced
  reported : ∀ p, s.physts = some p → p = s.phy.physts
  programmed : s.phy.physts &&& phyLinkConnected ≠ 0 → MacAgrees s.mac s.phy.physts

theorem macInv_start (phy : PhyDriver) (mac : MacMode) (sa : StationAddress) (written : Bool)
    (bmcr : ℕ → Option (BitVec 32)) (r : Bringup) :
    MacInv (.start phy mac sa written bmcr r) where
  synced := (lpcPhyInit_synced written bmcr phy).1
  reported := by rintro p ⟨⟩
  programmed := fun h => absurd (show (0 : BitVec 32) &&& phyLinkConnected = 0 by decide) h

theorem MacInv.poll {s : LinkSys} (h : MacInv s) (mrdd : Option (BitVec 32)) (msg : Bool) :
    MacInv (vEthernetDaemon s mrdd msg) := by
  obtain ⟨hsync, hlink⟩ := lpcPHYStsPoll_synced h.synced mrdd
  rw [vEthernetDaemon_eq]
  refine ⟨hsync, ?_, ?_⟩
  · rintro p ⟨⟩
    rfl
  · intro hup
    have hup' : (linkOf (lpcPHYStsPoll mrdd s.phy).1.physts).connected = true := decide_eq_true hup
    dsimp only
    by_cases hch : Changed (lpcPHYStsPoll mrdd s.phy).1.physts
    · rw [if_pos ⟨hch, hup'⟩]
      exact MacMode.program_agrees _ _
    · rw [if_neg fun hboth => hch hboth.1]
      -- nothing is reported, so the link is the one the controller was set for
      have hsame := hlink.resolve_right hch
      rw [hsame] at hup'
      exact (h.programmed (of_decide_eq_true hup')).congr hsame

theorem MacInv.step {s t : LinkSys} {a : LinkAct} (h : MacInv s) (hstep : linkStep s a = some t) :
    MacInv t := by
  obtain ⟨mrdd, msg, -, -, rfl⟩ | ⟨up, -, -, -, rfl⟩ | ⟨-, -, rfl⟩ | ⟨m, ms, -, -, rfl⟩ |
    ⟨on, -, rfl⟩ := linkStep_cases hstep
  · exact h.poll mrdd msg
  · exact ⟨h.synced, h.reported, h.programmed⟩
  · exact ⟨h.synced, h.reported, h.programmed⟩
  · exact ⟨h.synced, h.reported, h.programmed⟩
  · exact ⟨h.synced, h.reported, fun hup => (h.programmed hup).receiver on⟩

/-- **Between two rounds of the daemon, and while it posts: if the last status
that it got has the link connected, the controller is set for the speed and the
duplex mode of that status.** -/
theorem mac_agrees_with_phy {phy : PhyDriver} {mac : MacMode} {sa : StationAddress}
    {written : Bool} {bmcr : ℕ → Option (BitVec 32)} {r : Bringup} {acts : List LinkAct}
    {s : LinkSys} (hrun : Run linkStep (.start phy mac sa written bmcr r) acts s)
    {p : BitVec 32} (hp : s.physts = some p) (hup : p &&& phyLinkConnected ≠ 0) :
    MacAgrees s.mac p := by
  have h : MacInv s := hrun.invariant (fun _ _ _ h => h.step) (macInv_start phy mac sa written bmcr r)
  obtain rfl := h.reported p hp
  exact h.programmed hup

/-- The start with everything cleared and every call of the bring-up a success. -/
def LinkSys.coldStart : LinkSys :=
  .start ⟨0, 0, 0, 0, 0⟩ ⟨0, 0, 0, 0⟩ ⟨0, 0, 0⟩ true (fun _ => some 0) bringupOk

/-- The link comes up with 10 Mbit/s and half duplex. -/
theorem mac_agrees_half_duplex : ∃ s,
    Run linkStep .coldStart [.poll (some 4) true, .poll (some 2) true, .poll none true] s ∧
      s.mac.supp = 0 ∧ MacAgrees s.mac (phyLinkChanged ||| phyLinkConnected) := by
  have hrun : Run linkStep .coldStart [.poll (some 4) true, .poll (some 2) true, .poll none true] _ :=
    .cons rfl (.cons rfl (.cons rfl (.nil _)))
  exact ⟨_, hrun, rfl, mac_agrees_with_phy hrun rfl (by decide)⟩

/-! ### The interface follows the PHY -/

@[simp] theorem Netif.isLinkUp_setLinkUp (n : Netif) : n.setLinkUp.isLinkUp = true := by
  unfold Netif.setLinkUp
  split
  · apply decide_eq_true
    show (n.flags ||| netifFlagLinkUp) &&& netifFlagLinkUp ≠ 0
    rw [Nat.and_or_distrib_right, Nat.and_self]
    exact Nat.ne_of_gt (Nat.lt_of_lt_of_le (by decide) Nat.right_le_or)
  · next h => exact decide_eq_true h

@[simp] theorem Netif.isLinkUp_setLinkDown (n : Netif) : n.setLinkDown.isLinkUp = false := by
  unfold Netif.setLinkDown
  split
  · apply decide_eq_false
    show ¬ (n.flags &&& (0xFF - netifFlagLinkUp)) &&& netifFlagLinkUp ≠ 0
    rw [Nat.and_assoc, show (0xFF - netifFlagLinkUp) &&& netifFlagLinkUp = 0 by decide, Nat.and_zero]
    exact not_not.mpr rfl
  · next h => exact decide_eq_false h

@[simp] theorem TcpipMsg.isLinkUp_handle_callback (n : Netif) (up : Bool) :
    (TcpipMsg.handle n (.callback up)).isLinkUp = up := by
  cases up
  · exact n.isLinkUp_setLinkDown
  · exact n.isLinkUp_setLinkUp

/-- The interface once the TCP/IP thread has worked off the mailbox. -/
def LinkSys.drained (s : LinkSys) : Netif := s.mbox.foldl TcpipMsg.handle s.netif

/-- At the top of the loop the drained link is that of the last update; a message
about to be posted carries it. -/
def LinkSys.Settled (s : LinkSys) : Prop :=
  match s.pc with
  | .top => s.drained.isLinkUp = (linkOf s.phy.physts).connected
  | .post up => up = (linkOf s.phy.physts).connected

theorem foldl_handle_other {ms : List TcpipMsg} (h : ∀ m ∈ ms, m = .other) (n : Netif) :
    ms.foldl TcpipMsg.handle n = n := by
  induction ms generalizing n with
  | nil => rfl
  | cons m ms ih =>
      obtain ⟨rfl, hms⟩ := List.forall_mem_cons.mp h
      exact ih hms n

/-- The TCP/IP thread alone. -/
theorem Run.tcpip {acts : List LinkAct} {s t : LinkSys} (h : ∀ a ∈ acts, a = .tcpip)
    (hrun : Run linkStep s acts t) :
    t.pc = s.pc ∧ t.phy = s.phy ∧ t.drained = s.drained := by
  induction hrun with
  | nil s => exact ⟨rfl, rfl, rfl⟩
  | @cons s u t a acts hstep _ ih =>
      obtain ⟨rfl, hacts⟩ := List.forall_mem_cons.mp h
      obtain ⟨hpc, hphy, hnet⟩ := ih hacts
      obtain ⟨_, _, ⟨⟩, -⟩ | ⟨_, ⟨⟩, -⟩ | ⟨⟨⟩, -⟩ | ⟨m, ms, -, hmbox, rfl⟩ | ⟨_, ⟨⟩, -⟩ :=
        linkStep_cases hstep
      refine ⟨hpc, hphy, hnet.trans ?_⟩
      show ms.foldl TcpipMsg.handle _ = s.mbox.foldl TcpipMsg.handle s.netif
      rw [hmbox, List.foldl_cons]

/-- The TCP/IP thread can empty the mailbox. -/
theorem exists_run_tcpip (s : LinkSys) : ∃ acts t, (∀ a ∈ acts, a = .tcpip) ∧
    Run linkStep s acts t ∧ t.mbox = [] := by
  obtain ⟨phy, mac, physts, pc, mbox, netif⟩ := s
  induction mbox generalizing netif with
  | nil => exact ⟨[], _, by simp, .nil _, rfl⟩
  | cons m ms ih =>
      obtain ⟨acts, t, hacts, hrun, hempty⟩ := ih (m.handle netif)
      exact ⟨.tcpip :: acts, t, List.forall_mem_cons.mpr ⟨rfl, hacts⟩, .cons rfl hrun, hempty⟩

theorem linkAgrees_iff (s : LinkSys) :
    s.LinkAgrees ↔ s.netif.isLinkUp = (linkOf s.phy.physts).connected := by
  rw [Bool.eq_iff_iff]
  exact iff_congr Iff.rfl decide_eq_true_iff.symm

/-- The links agree after the callbacks iff they agree in the drained state. -/
theorem follows_iff (s : LinkSys) :
    s.Follows ↔ (s.pc = .top → s.drained.isLinkUp = (linkOf s.phy.physts).connected) := by
  constructor
  · intro h htop
    obtain ⟨acts, t, hacts, hrun, hempty⟩ := exists_run_tcpip s
    obtain ⟨hpc, hphy, hnet⟩ := hrun.tcpip hacts
    have hagree := h acts t hacts hrun ⟨hpc.trans htop, by rw [hempty]; simp⟩
    rw [linkAgrees_iff, hphy] at hagree
    rw [← hnet, ← hagree]
    unfold LinkSys.drained
    rw [hempty]
    rfl
  · rintro h acts t hacts hrun ⟨htop, hother⟩
    obtain ⟨hpc, hphy, hnet⟩ := hrun.tcpip hacts
    rw [linkAgrees_iff, hphy, ← h (hpc.symm.trans htop), ← hnet]
    unfold LinkSys.drained
    rw [foldl_handle_other hother]

/-- What the steps keep as long as no message is missing at a change. -/
structure LinkInv (s : LinkSys) : Prop where
  synced : s.phy.Synced
  settled : s.Settled

theorem LinkInv.follows {s : LinkSys} (h : LinkInv s) : s.Follows := by
  rw [follows_iff]
  intro htop
  have hs := h.settled
  unfold LinkSys.Settled at hs
  rw [htop] at hs
  exact hs

theorem linkInv_start (phy : PhyDriver) (mac : MacMode) (sa : StationAddress) (written : Bool)
    (bmcr : ℕ → Option (BitVec 32)) (r : Bringup) :
    LinkInv (.start phy mac sa written bmcr r) where
  synced := (lpcPhyInit_synced written bmcr phy).1
  settled := by
    have hlink := congrArg Link.connected (lpcPhyInit_synced written bmcr phy).2
    refine Eq.trans ?_ hlink.symm
    show decide ((0x08 ||| 0x01 ||| 0x20) &&& netifFlagLinkUp ≠ 0) = false
    decide

/-- What `Delivers` says of a round without a message. -/
theorem delivers_poll_iff (s : LinkSys) (mrdd : Option (BitVec 32)) :
    s.Delivers (.poll mrdd false) ↔
      (linkOf (lpcPHYStsPoll mrdd s.phy).1.physts).connected = (linkOf s.phy.physts).connected := by
  by_cases h2 : s.phy.phyustate = 2
  · obtain ⟨hlink, -⟩ := lpcPHYStsPoll_update h2 mrdd
    rw [hlink]
    exact (imp_iff_right h2).trans decide_eq_decide.symm
  · obtain ⟨hlink, -⟩ := lpcPHYStsPoll_idle h2 mrdd
    rw [hlink]
    exact iff_of_true (fun h => absurd h h2) rfl

/-- At the top of the loop. -/
theorem LinkSys.settled_of_top {s : LinkSys} (h : s.pc = .top) :
    s.Settled ↔ s.drained.isLinkUp = (linkOf s.phy.physts).connected := by
  unfold LinkSys.Settled
  rw [h]

/-- **A round from a settled state**: the interface follows afterwards iff the
round delivers what it has to, and then the state is settled again. -/
theorem LinkInv.poll {s : LinkSys} (h : LinkInv s) (htop : s.pc = .top)
    (mrdd : Option (BitVec 32)) (msg : Bool) :
    let t := vEthernetDaemon s mrdd msg
    t.phy.Synced ∧ (t.Follows ↔ s.Delivers (.poll mrdd msg)) ∧
      (s.Delivers (.poll mrdd msg) → t.Settled) := by
  intro t
  obtain ⟨hsync, hlink⟩ := lpcPHYStsPoll_synced h.synced mrdd
  have hs := (LinkSys.settled_of_top htop).mp h.settled
  have ht : t = _ := vEthernetDaemon_eq s mrdd msg
  have hphy : t.phy = (lpcPHYStsPoll mrdd s.phy).1 := by rw [ht]
  have hnet : t.drained = s.drained := by rw [ht]; rfl
  have hpc : t.pc = if Changed t.phy.physts ∧ msg = true then .post (linkOf t.phy.physts).connected
      else s.pc := by rw [ht]
  rw [← hphy] at hsync hlink
  refine ⟨hsync, ?_⟩
  rw [follows_iff, hnet, hs]
  by_cases hpost : Changed t.phy.physts ∧ msg = true
  · -- the message is had, and carries the new link
    rw [if_pos hpost] at hpc
    obtain ⟨-, rfl⟩ := hpost
    refine ⟨iff_of_true (fun htop' => ?_) trivial, fun _ => ?_⟩
    · rw [hpc] at htop'
      cases htop'
    · unfold LinkSys.Settled
      rw [hpc]
  · rw [if_neg hpost, htop] at hpc
    rw [LinkSys.settled_of_top hpc, hnet, hs, imp_iff_right hpc]
    cases msg with
    | false =>
        rw [delivers_poll_iff s mrdd, ← hphy]
        exact ⟨eq_comm, Eq.symm⟩
    | true =>
        -- there is no change to report
        have hsame := hlink.resolve_right fun hch => hpost ⟨hch, rfl⟩
        rw [hsame]
        exact ⟨iff_of_true rfl trivial, fun _ => rfl⟩

/-- The other steps leave the drained link alone, or bring it to where the
daemon's message has it. -/
theorem LinkInv.step {s t : LinkSys} {a : LinkAct} (h : LinkInv s)
    (hstep : linkStep s a = some t) :
    (t.Follows ↔ s.Delivers a) ∧ (s.Delivers a → LinkInv t) := by
  -- where nothing can be missing it is enough that the invariant is kept
  have hkept : LinkInv t → s.Delivers a → (t.Follows ↔ s.Delivers a) ∧ (s.Delivers a → LinkInv t) :=
    fun ht hd => ⟨iff_of_true ht.follows hd, fun _ => ht⟩
  have hset := h.settled
  unfold LinkSys.Settled LinkSys.drained at hset
  obtain ⟨mrdd, msg, rfl, htop, rfl⟩ | ⟨up, rfl, hpc, -, rfl⟩ | ⟨rfl, -, rfl⟩ |
    ⟨m, ms, rfl, hmbox, rfl⟩ | ⟨on, rfl, rfl⟩ := linkStep_cases hstep
  · obtain ⟨hsync, hiff, hsettled⟩ := h.poll htop mrdd msg
    exact ⟨hiff, fun hd => ⟨hsync, hsettled hd⟩⟩
  · -- the message carries the link of the last update
    rw [hpc] at hset
    refine hkept ⟨h.synced, ?_⟩ trivial
    show ((s.mbox ++ [TcpipMsg.callback up]).foldl TcpipMsg.handle s.netif).isLinkUp = _
    rw [List.foldl_append]
    exact (TcpipMsg.isLinkUp_handle_callback _ up).trans hset
  · refine hkept ⟨h.synced, ?_⟩ trivial
    unfold LinkSys.Settled LinkSys.drained
    rw [List.foldl_append]
    exact hset
  · rw [hmbox] at hset
    exact hkept ⟨h.synced, hset⟩ trivial
  · exact hkept ⟨h.synced, h.settled⟩ trivial

/-- A state that the interface follows in, without waiting for the TCP/IP thread. -/
theorem LinkSys.Follows.agrees {s : LinkSys} (h : s.Follows) (hquiet : s.Quiet) : s.LinkAgrees :=
  h [] s (by rintro a ⟨⟩) (.nil s) hquiet

/-- **In every state of a run the interface's link is the one of the last update,
once the callbacks have been executed, iff no round that changes it completes
its update without a message for the TCP/IP thread**; and in such a run no link
change is lost. -/
theorem link_follows_iff (phy : PhyDriver) (mac : MacMode) (sa : StationAddress) (written : Bool)
    (bmcr : ℕ → Option (BitVec 32)) (r : Bringup) (acts : List LinkAct) :
    (Along linkStep (fun _ _ t => t.Follows) (.start phy mac sa written bmcr r) acts ↔
        Along linkStep (fun s a _ => s.Delivers a) (.start phy mac sa written bmcr r) acts) ∧
      (Along linkStep (fun s a _ => s.Delivers a) (.start phy mac sa written bmcr r) acts →
        Along linkStep (fun _ _ t => t.Quiet → t.LinkAgrees)
          (.start phy mac sa written bmcr r) acts) := by
  have hstart := linkInv_start phy mac sa written bmcr r
  refine ⟨along_iff ?_ ?_ hstart, Along.of_invariant ?_ hstart⟩
  · intro s a t h hstep
    exact (h.step hstep).1
  · intro s a t h hstep
    exact (h.step hstep).2
  · intro s a t h hstep hd
    have ht := (h.step hstep).2 hd
    exact ⟨ht.follows.agrees, ht⟩

/-- The first link-up finds no message: the interface stays down. -/
theorem link_up_lost : ∃ s,
    Run linkStep .coldStart [.poll (some 4) true, .poll (some 4) true, .poll none false] s ∧
      s.Quiet ∧ ¬ s.LinkAgrees := by
  refine ⟨_, .cons rfl (.cons rfl (.cons rfl (.nil _))), ⟨rfl, ?_⟩, ?_⟩
  · rintro m ⟨⟩
  · unfold LinkSys.LinkAgrees
    decide +kernel

end Lpc1768
