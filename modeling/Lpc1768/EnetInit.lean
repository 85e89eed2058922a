/-
Lpc1768/EnetInit.lean

`lpc_enetif_init` with all that it sets up: the registers of the board and of
the controller, the PHY, the two rings, the filters and the interrupts, and the
handles of the tasks.

Success and failure are a `Status` in `lpc_phy_init`, and an `err_t` in
`low_level_init` and in `lpc_enetif_init`.  `low_level_init` hands the failure of
the PHY on as `false`, which is `ERR_OK`.  So `ERR_OK` means that the interface
works iff the PHY responds or a later failure hides that it did not
(`init_truthful_iff`).

The registers are here together; what other modules have of them is the same
(`lowLevelInit_bringup`, `lpcEnetifInit_bringup`).
-/
import Lpc1768.EnetSys
import Lpc1768.LinkDaemon
import Lpc1768.RxDelivery

namespace Lpc1768

/-! ### Constants -/

def emacMac1PassAll : BitVec 32 := 0x00000002
def emacMcfgResMii : BitVec 32 := 0x00008000
def emacMcfgMiiMaxclk : ℕ := 2500000
def emacIpgrP2Def : BitVec 32 := 0x12 &&& 0x7F
def emacIpgrP1Def : BitVec 32 := (0x0C &&& 0x7F) <<< 8
def emacClrtDef : BitVec 32 := (0x0F &&& 0x0F) ||| ((0x37 &&& 0x3F) <<< 8)
def emacRfcUcastEn : BitVec 32 := 0x00000001
def emacRfcMcastEn : BitVec 32 := 0x00000004
def emacRfcPerfectEn : BitVec 32 := 0x00000020

/-- `configLIBRARY_MAX_SYSCALL_INTERRUPT_PRIORITY`. -/
def libraryMaxSyscallInterruptPriority : ℕ := 10

def ethclkdiv : List ℕ := [4, 6, 8, 10, 14, 20, 28, 36, 40, 44, 48, 52, 56, 60, 64]

/-! ### The hardware and the calls -/

/-- The registers written, with the drivers of the PHY and of the two rings; the
receive side has `MAC1` and `Command`.  `enetIRQ` is the priority of `ENET_IRQn`
once it is enabled. -/
structure EnetHw where
  pconp : BitVec 32
  pinsel2 : BitVec 32
  pinsel3 : BitVec 32
  intEnable : BitVec 32
  intStatus : BitVec 32
  mcfg : BitVec 32
  mac2 : BitVec 32
  ipgt : BitVec 32
  ipgr : BitVec 32
  supp : BitVec 32
  maxf : BitVec 32
  clrt : BitVec 32
  rxFilterCtrl : BitVec 32
  sa : StationAddress
  enetIRQ : Option ℕ
  phy : PhyDriver
  rx : RxDrv
  tx : TxDrv
  /-- `xtx_count_sem` exists -/
  xtxCountSem : Bool

/-- `SystemCoreClock`, and what the calls made on the way return: the MDIO
accesses of `lpc_phy_init` (the first write, and the reads of `BMCR` by the number
of those left), `pbuf_alloc`, and the creation of semaphores, mutexes and
threads. -/
structure InitCalls where
  systemCoreClock : ℕ
  written : Bool
  bmcr : ℕ → Option (BitVec 32)
  heap : ℕ → Option (ℕ × ℕ)
  xtxCountSem : Bool
  txLockMutex : ℤ
  rxLockMutex : ℤ
  rxSem : ℤ
  rxThread : Bool
  txCleanSem : ℤ
  txThread : Bool

/-! ### `low_level_init` -/

/-- The part of `low_level_init` before `lpc_phy_init`. -/
def EnetHw.powerUp (systemCoreClock : ℕ) (hw : EnetHw) : EnetHw :=
  let tmp := systemCoreClock / emacMcfgMiiMaxclk
  let tout := ethclkdiv.findIdx fun div => div ≥ tmp
  let mcfg := (BitVec.ofNat 32 tout &&& 0x0F) <<< 2 ||| emacMcfgResMii
  { hw with
    intEnable := 0
    pconp := hw.pconp ||| 1 <<< 30
    pinsel2 := 0x50150105
    pinsel3 := hw.pinsel3 &&& ~~~0x0000000F ||| 0x00000005
    mcfg := mcfg &&& ~~~emacMcfgResMii }

/-- The configuration of the controller; the resets before it are overwritten. -/
def EnetHw.configure (hwaddr : List UInt8) (hw : EnetHw) : EnetHw :=
  { hw with
    mac2 := emacMac2FullDup ||| emacMac2CrcEn ||| emacMac2PadEn
    ipgt := emacIpgtFullDup
    supp := emacSuppSpeed
    ipgr := emacIpgrP2Def ||| emacIpgrP1Def
    maxf := BitVec.ofNat 32 emacEthMaxFlen
    clrt := emacClrtDef
    sa := stationAddress hwaddr
    rx :=
      { hw.rx with
        mac1 := emacMac1PassAll
        command := emacCrFullDup ||| emacCrRmii } }

/-- The part of `low_level_init` after the rings are set up. -/
def EnetHw.enable (hw : EnetHw) : EnetHw :=
  { hw with
    rxFilterCtrl := emacRfcPerfectEn ||| emacRfcUcastEn ||| emacRfcMcastEn
    enetIRQ := some (libraryMaxSyscallInterruptPriority + 1)
    intStatus := hw.intStatus &&& ~~~0xffff
    intEnable := emacIntTxUnderrun ||| emacIntTxErr ||| emacIntTxDone |||
      (emacIntRxOverrun ||| emacIntRxErr ||| emacIntRxDone)
    rx :=
      { hw.rx with
        mac1 := hw.rx.mac1 ||| emacMac1RecEn
        command := hw.rx.command &&& ~~~emacCrPassRxFilt ||| (emacCrTxEn ||| emacCrRxEn) } }

/-- `low_level_init(netif)`. -/
def EnetHw.lowLevelInit (r : InitCalls) (netif : Netif) (hw : EnetHw) : EnetHw × ℤ :=
  let hw := hw.powerUp r.systemCoreClock
  let phy := lpcPhyInit r.written r.bmcr hw.phy
  let hw := { hw with phy := phy.1 }
  -- `return (false)`
  if phy.2 = false then (hw, 0)
  else
    let hw := hw.configure netif.hwaddr
    -- `lpc_tx_setup` cannot fail
    let hw := { hw with tx := lpcTxSetup hw.tx }
    let rx := lpcRxSetup hw.rx r.heap
    let hw := { hw with rx := rx.1 }
    if rx.2 ≠ .ok then (hw, errBuf)
    else (hw.enable, errOk)

/-- The part of `lpc_enetif_init` after `low_level_init`. -/
def InitCalls.create (r : InitCalls) : ℤ :=
  if r.txLockMutex ≠ errOk then errMem
  else if r.rxLockMutex ≠ errOk then errMem
  else if r.rxSem ≠ errOk then errMem
  else if r.rxThread = false then errMem
  else if r.txCleanSem ≠ errOk then errMem
  else if r.txThread = false then errMem
  else errOk

/-- What `lpc_enetif_init` makes of `netif`. -/
def initNetif : Netif where
  hwaddrLen := etharpHwaddrLen
  hwaddr := hwaddrOf macAddrText
  mtu := 1536 - 36
  hostname := chars "LPC1768"
  name := (0x65, 0x6E)
  flags := 0x08 ||| 0x01 ||| 0x20

/-- `lpc_enetif_init(netif)`. -/
def EnetHw.lpcEnetifInit (r : InitCalls) (hw : EnetHw) : Netif × EnetHw × ℤ :=
  let init := hw.lowLevelInit r initNetif
  if init.2 ≠ errOk then (initNetif, init.1, init.2)
  else
    -- `LWIP_ASSERT` is empty, so this handle is not checked
    let hw :=
      { init.1 with
        xtxCountSem := r.xtxCountSem
        tx := { init.1.tx with xtxCountSem := emacNumTxFrag } }
    (initNetif, hw, r.create)

/-! ### The property and the condition -/

/-- The transmit ring is set up. -/
structure TxRingSet (d : TxDrv) : Prop where
  number : d.txDescriptorNumber = emacNumTxFrag - 1
  last : d.lasttxidx = 0
  descriptors : ∀ k < emacNumTxFrag, (d.ptxd k).ctrl = 0 ∧ d.ptxs k = 0xffffffff

/-- The receive ring is set up, with a buffer in every slot. -/
structure RxRingSet (d : RxDrv) : Prop where
  number : d.rxDescriptorNumber = emacNumRxFrag - 1
  free : d.rxdescfree = 0
  slots : ∀ k < emacNumRxFrag, ∃ b, d.rxb k = some b ∧ (d.prxd k).packet = b.payload

/-- The controller is configured for `netif`. -/
structure MacConfigured (netif : Netif) (hw : EnetHw) : Prop where
  mac1 : hw.rx.mac1 = emacMac1PassAll ||| emacMac1RecEn
  mac2 : hw.mac2 = emacMac2FullDup ||| emacMac2CrcEn ||| emacMac2PadEn
  command : hw.rx.command = emacCrFullDup ||| emacCrRmii ||| (emacCrTxEn ||| emacCrRxEn)
  timing : hw.ipgt = emacIpgtFullDup ∧ hw.ipgr = emacIpgrP2Def ||| emacIpgrP1Def ∧
    hw.clrt = emacClrtDef
  speed : hw.supp = emacSuppSpeed
  maxf : hw.maxf = BitVec.ofNat 32 emacEthMaxFlen
  address : hw.sa = stationAddress netif.hwaddr
  filter : hw.rxFilterCtrl = emacRfcPerfectEn ||| emacRfcUcastEn ||| emacRfcMcastEn

/-- `low_level_init` ran to its end: the rings are set up, the controller is
configured, its interrupts are enabled, and so are receiver and transmitter. -/
structure Works (netif : Netif) (hw : EnetHw) : Prop where
  tx : TxRingSet hw.tx
  rx : RxRingSet hw.rx
  mac : MacConfigured netif hw
  interrupts : hw.enetIRQ.isSome ∧ hw.intEnable = txGroup ||| rxGroup
  rxEn : hw.rx.command &&& emacCrRxEn ≠ 0
  txEn : hw.rx.command &&& emacCrTxEn ≠ 0
  recEn : hw.rx.mac1 &&& emacMac1RecEn ≠ 0

/-- `ERR_OK` is returned for an interface that works only. -/
def Truthful (init : Netif × EnetHw × ℤ) : Prop := init.2.2 = errOk → Works init.1 init.2.1

/-- The PHY comes out of its reset: the first write goes through, one of the 400
reads of `BMCR` shows the reset done, and none before it times out. -/
def InitCalls.PhyResponds (r : InitCalls) : Prop :=
  r.written = true ∧ ∃ i < 400,
    readphy (r.bmcr i) &&& (emacPhyBmcrReset ||| emacPhyBmcrPowerdown) = 0 ∧
    ∀ j, i ≤ j → j < 400 → readphy (r.bmcr j) ≠ BitVec.ofInt 32 errMem

/-- A mutex, a semaphore or a thread that `lpc_enetif_init` looks at is not
created. -/
def InitCalls.CreationFails (r : InitCalls) : Prop :=
  r.txLockMutex ≠ errOk ∨ r.rxLockMutex ≠ errOk ∨ r.rxSem ≠ errOk ∨ r.rxThread = false ∨
    r.txCleanSem ≠ errOk ∨ r.txThread = false

/-! ### The PHY and the receive ring -/

theorem waitReset_iff (bmcr : ℕ → Option (BitVec 32)) (n : ℕ) :
    waitReset bmcr n = true ↔ ∃ i < n,
      readphy (bmcr i) &&& (emacPhyBmcrReset ||| emacPhyBmcrPowerdown) = 0 ∧
      ∀ j, i ≤ j → j < n → readphy (bmcr j) ≠ BitVec.ofInt 32 errMem := by
  induction n with
  | zero => exact iff_of_false Bool.false_ne_true fun ⟨i, hi, _⟩ => absurd hi (Nat.not_lt_zero i)
  | succ n ih =>
      rw [waitReset]
      by_cases herr : readphy (bmcr n) = BitVec.ofInt 32 errMem
      · rw [if_pos herr]
        refine iff_of_false Bool.false_ne_true ?_
        rintro ⟨i, hi, -, hno⟩
        exact hno n (by omega) (Nat.lt_succ_self n) herr
      by_cases hdone : readphy (bmcr n) &&& (emacPhyBmcrReset ||| emacPhyBmcrPowerdown) = 0
      · rw [if_neg herr, if_pos hdone]
        refine iff_of_true rfl ⟨n, Nat.lt_succ_self n, hdone, fun j hn hj => ?_⟩
        obtain rfl : j = n := by omega
        exact herr
      · rw [if_neg herr, if_neg hdone, ih]
        constructor
        · rintro ⟨i, hi, hbits, hno⟩
          refine ⟨i, by omega, hbits, fun j hij hj => ?_⟩
          rcases Nat.lt_or_ge j n with hlt | hge
          · exact hno j hij hlt
          · obtain rfl : j = n := by omega
            exact herr
        · rintro ⟨i, hi, hbits, hno⟩
          rcases Nat.lt_or_ge i n with hlt | hge
          · exact ⟨i, hlt, hbits, fun j hij hj => hno j hij (by omega)⟩
          · obtain rfl : i = n := by omega
            exact absurd hbits hdone

theorem lpcPhyInit_iff (r : InitCalls) (s : PhyDriver) :
    (lpcPhyInit r.written r.bmcr s).2 = true ↔ r.PhyResponds := by
  rw [lpcPhyInit, Bool.and_eq_true, waitReset_iff]
  rfl

theorem RxQueued.ringSet {heap : ℕ → Option (ℕ × ℕ)} {d : RxDrv}
    (h : RxQueued heap d emacNumRxFrag) : RxRingSet d where
  number := h.number
  free := h.free
  slots := by
    intro k hk
    obtain ⟨a, -, hb, hd⟩ := h.slots k hk
    exact ⟨_, hb, by rw [hd]; rfl⟩

theorem lpcTxSetup_ringSet (d : TxDrv) : TxRingSet (lpcTxSetup d) where
  number := rfl
  last := rfl
  descriptors := by
    intro k hk
    simp only [lpcTxSetup, if_pos hk, and_self]

/-! ### The initialisation -/

section Init

variable (r : InitCalls) (netif : Netif) (hw : EnetHw)

/-- The hardware when `lpc_phy_init` has returned. -/
def EnetHw.phyReset : EnetHw :=
  { hw.powerUp r.systemCoreClock with phy := (lpcPhyInit r.written r.bmcr hw.phy).1 }

/-- The hardware when the rings have been set up, as far as memory goes. -/
def EnetHw.ringsSet : EnetHw :=
  let hw := (hw.phyReset r).configure netif.hwaddr
  { hw with tx := lpcTxSetup hw.tx, rx := (lpcRxSetup hw.rx r.heap).1 }

/-- **The exits of `low_level_init`**: without a PHY, without memory for the
receive ring, and at its end. -/
theorem EnetHw.lowLevelInit_cases :
    (¬ r.PhyResponds ∧ hw.lowLevelInit r netif = (hw.phyReset r, errOk)) ∨
    (r.PhyResponds ∧ (∃ k < emacNumRxFrag, r.heap k = none) ∧
      hw.lowLevelInit r netif = (hw.ringsSet r netif, errBuf)) ∨
    (r.PhyResponds ∧ (∀ k < emacNumRxFrag, (r.heap k).isSome) ∧
      hw.lowLevelInit r netif = ((hw.ringsSet r netif).enable, errOk)) := by
  have hphy := lpcPhyInit_iff r hw.phy
  obtain ⟨hqueued, hall, -⟩ :=
    lpcRxSetup_spec ((hw.phyReset r).configure netif.hwaddr).rx r.heap
  have heq : hw.lowLevelInit r netif =
      if (lpcPhyInit r.written r.bmcr hw.phy).2 = false then (hw.phyReset r, 0)
      else if (lpcRxSetup ((hw.phyReset r).configure netif.hwaddr).rx r.heap).2 ≠ .ok then
        (hw.ringsSet r netif, errBuf)
      else ((hw.ringsSet r netif).enable, errOk) := rfl
  rw [heq]
  by_cases hok : (lpcPhyInit r.written r.bmcr hw.phy).2 = true
  · rw [if_neg (by simp [hok])]
    refine .inr ?_
    by_cases herr : (lpcRxSetup ((hw.phyReset r).configure netif.hwaddr).rx r.heap).2 = .ok
    · rw [if_neg (not_not.mpr herr)]
      refine .inr ⟨hphy.mp hok, fun k hk => ?_, rfl⟩
      obtain ⟨a, ha, -⟩ := (hqueued herr).slots k hk
      rw [ha]
      rfl
    · rw [if_pos herr]
      obtain ⟨k, hk, hnone⟩ := not_forall₂.mp (mt hall herr)
      exact .inl ⟨hphy.mp hok, ⟨k, hk, Option.not_isSome_iff_eq_none.mp hnone⟩, rfl⟩
  · rw [if_pos (Bool.eq_false_iff.mpr hok)]
    exact .inl ⟨mt hphy.mpr hok, rfl⟩

/-- At its end everything is set up. -/
theorem EnetHw.ringsSet_works (hmem : ∀ k < emacNumRxFrag, (r.heap k).isSome) :
    Works netif (hw.ringsSet r netif).enable := by
  let d := ((hw.phyReset r).configure netif.hwaddr).rx
  obtain ⟨hqueued, hall, -⟩ := lpcRxSetup_spec d r.heap
  obtain ⟨hmac1, hcommand, -⟩ := lpcRxSetup_control d r.heap
  have hring := (hqueued (hall hmem)).ringSet
  have hmac1' : (hw.ringsSet r netif).enable.rx.mac1 = emacMac1PassAll ||| emacMac1RecEn :=
    congrArg (· ||| emacMac1RecEn) hmac1
  have hcommand' : (hw.ringsSet r netif).enable.rx.command =
      (emacCrFullDup ||| emacCrRmii) &&& ~~~emacCrPassRxFilt ||| (emacCrTxEn ||| emacCrRxEn) :=
    congrArg (· &&& ~~~emacCrPassRxFilt ||| (emacCrTxEn ||| emacCrRxEn)) hcommand
  refine ⟨lpcTxSetup_ringSet _, ⟨hring.number, hring.free, hring.slots⟩, ?_, ⟨rfl, rfl⟩, ?_, ?_, ?_⟩
  · exact ⟨hmac1', rfl, hcommand'.trans (by decide), ⟨rfl, rfl, rfl⟩, rfl, rfl, rfl, rfl⟩
  · rw [hcommand']
    decide
  · rw [hcommand']
    decide
  · rw [hmac1']
    decide

/-- `Works` is not had with the interrupts off. -/
theorem not_works_of_intEnable {netif : Netif} {hw : EnetHw} (h : hw.intEnable = 0) :
    ¬ Works netif hw := by
  intro hw
  have hints := hw.interrupts.2
  rw [h] at hints
  exact absurd hints (by decide)

theorem create_eq_iff : r.create = errOk ↔ ¬ r.CreationFails := by
  have hmem : errMem ≠ errOk := by decide
  simp only [InitCalls.create, InitCalls.CreationFails, not_or]
  split_ifs <;> simp_all

theorem EnetHw.lpcEnetifInit_created (hok : (hw.lowLevelInit r initNetif).2 = errOk) :
    hw.lpcEnetifInit r =
      (initNetif,
        { (hw.lowLevelInit r initNetif).1 with
          xtxCountSem := r.xtxCountSem
          tx := { (hw.lowLevelInit r initNetif).1.tx with xtxCountSem := emacNumTxFrag } },
        r.create) :=
  if_neg (not_not.mpr hok)

theorem EnetHw.lpcEnetifInit_failed (herr : (hw.lowLevelInit r initNetif).2 ≠ errOk) :
    hw.lpcEnetifInit r =
      (initNetif, (hw.lowLevelInit r initNetif).1, (hw.lowLevelInit r initNetif).2) :=
  if_pos herr

/-- **`ERR_OK` means that the interface works** exactly if the PHY responds, or a
later failure makes the result an error all the same. -/
theorem init_truthful_iff :
    Truthful (hw.lpcEnetifInit r) ↔ r.PhyResponds ∨ r.CreationFails := by
  rcases hw.lowLevelInit_cases r initNetif with ⟨hphy, hend⟩ | ⟨hphy, -, hend⟩ |
    ⟨hphy, hmem, hend⟩
  · -- no PHY, and the initialisation goes on
    rw [hw.lpcEnetifInit_created r (by rw [hend]), or_iff_right hphy, Truthful, create_eq_iff]
    constructor
    · intro h
      by_contra hfails
      refine not_works_of_intEnable ?_ (h hfails)
      rw [hend]
      rfl
    · intro hfails hcreated
      exact absurd hfails hcreated
  · have herr : (hw.lowLevelInit r initNetif).2 ≠ errOk := by
      rw [hend]
      exact show errBuf ≠ errOk by decide
    refine iff_of_true (fun hresult => ?_) (.inl hphy)
    rw [hw.lpcEnetifInit_failed r herr] at hresult
    exact absurd hresult herr
  · refine iff_of_true (fun _ => ?_) (.inl hphy)
    have hworks := hw.ringsSet_works r initNetif hmem
    rw [hw.lpcEnetifInit_created r (by rw [hend]), hend]
    exact ⟨⟨hworks.tx.number, hworks.tx.last, hworks.tx.descriptors⟩, hworks.rx,
      ⟨hworks.mac.mac1, hworks.mac.mac2, hworks.mac.command, hworks.mac.timing, hworks.mac.speed,
        hworks.mac.maxf, hworks.mac.address, hworks.mac.filter⟩,
      hworks.interrupts, hworks.rxEn, hworks.txEn, hworks.recEn⟩

/-- What the calls come to for the parts of the initialisation. -/
def InitCalls.bringup : Bringup where
  lpcPhyInit := r.written && waitReset r.bmcr 400
  lpcTxSetup := errOk
  lpcRxSetup := if ∀ k < emacNumRxFrag, (r.heap k).isSome then errOk else errBuf
  txLockMutex := r.txLockMutex
  rxLockMutex := r.rxLockMutex
  rxSem := r.rxSem
  rxThread := r.rxThread
  txCleanSem := r.txCleanSem
  txThread := r.txThread

/-- The station address, the speed and the duplex mode, and the result. -/
theorem lowLevelInit_bringup :
    lowLevelInit r.bringup netif hw.sa =
        ((hw.lowLevelInit r netif).1.sa, (hw.lowLevelInit r netif).2) ∧
      lowLevelInitMode r.bringup ⟨hw.supp, hw.mac2, hw.rx.command, hw.ipgt⟩ =
        let hw := (hw.lowLevelInit r netif).1
        ⟨hw.supp, hw.mac2, hw.rx.command, hw.ipgt⟩ := by
  have hphy : r.bringup.lpcPhyInit = true ↔ r.PhyResponds := lpcPhyInit_iff r hw.phy
  have htx : ¬ r.bringup.lpcTxSetup ≠ errOk := not_not.mpr rfl
  have hbuf : errBuf ≠ errOk := by decide
  obtain ⟨-, hcommand, -⟩ :=
    lpcRxSetup_control ((hw.phyReset r).configure netif.hwaddr).rx r.heap
  rcases hw.lowLevelInit_cases r netif with ⟨hno, hend⟩ | ⟨hyes, ⟨k, hk, hnone⟩, hend⟩ |
    ⟨hyes, hmem, hend⟩
  · have hfalse : r.bringup.lpcPhyInit = false := Bool.eq_false_iff.mpr (mt hphy.mp hno)
    rw [hend, lowLevelInit, lowLevelInitMode, if_pos hfalse, if_pos hfalse]
    exact ⟨rfl, rfl⟩
  · have hrx : r.bringup.lpcRxSetup ≠ errOk := by
      rw [show r.bringup.lpcRxSetup = errBuf from if_neg fun hall => by
        have hsome := hall k hk
        rw [hnone] at hsome
        cases hsome]
      exact hbuf
    have htrue : ¬ r.bringup.lpcPhyInit = false := by simp [hphy.mpr hyes]
    rw [hend, lowLevelInit, lowLevelInitMode, if_neg htrue, if_neg htrue]
    simp only [if_neg htx, if_pos hrx]
    refine ⟨rfl, ?_⟩
    ext1
    · rfl
    · rfl
    · exact hcommand.symm
    · rfl
  · have hrx : ¬ r.bringup.lpcRxSetup ≠ errOk := not_not.mpr (if_pos hmem)
    have htrue : ¬ r.bringup.lpcPhyInit = false := by simp [hphy.mpr hyes]
    rw [hend, lowLevelInit, lowLevelInitMode, if_neg htrue, if_neg htrue]
    simp only [if_neg htx, if_neg hrx]
    refine ⟨rfl, ?_⟩
    ext1
    · rfl
    · rfl
    · exact congrArg (· &&& ~~~emacCrPassRxFilt ||| (emacCrTxEn ||| emacCrRxEn)) hcommand.symm
    · rfl

/-- The interface, the station address and the result of `lpc_enetif_init`. -/
theorem lpcEnetifInit_bringup :
    lpcEnetifInit r.bringup hw.sa =
      ((hw.lpcEnetifInit r).1, (hw.lpcEnetifInit r).2.1.sa, (hw.lpcEnetifInit r).2.2) := by
  obtain ⟨hinit, -⟩ := lowLevelInit_bringup r initNetif hw
  have heq : lpcEnetifInit r.bringup hw.sa =
      (initNetif, (lowLevelInit r.bringup initNetif hw.sa).1,
        if (lowLevelInit r.bringup initNetif hw.sa).2 ≠ errOk then
          (lowLevelInit r.bringup initNetif hw.sa).2
        else if r.txLockMutex ≠ errOk then errMem
        else if r.rxLockMutex ≠ errOk then errMem
        else if r.rxSem ≠ errOk then errMem
        else if r.rxThread = false then errMem
        else if r.txCleanSem ≠ errOk then errMem
        else if r.txThread = false then errMem
        else errOk) := rfl
  rw [heq, hinit]
  by_cases hok : (hw.lowLevelInit r initNetif).2 = errOk
  · rw [if_neg (not_not.mpr hok), hw.lpcEnetifInit_created r hok]
    rfl
  · rw [if_pos hok, hw.lpcEnetifInit_failed r hok]

end Init

/-- The hardware after a reset of the processor. -/
def enetHwZero : EnetHw where
  pconp := 0
  pinsel2 := 0
  pinsel3 := 0
  intEnable := 0
  intStatus := 0
  mcfg := 0
  mac2 := 0
  ipgt := 0
  ipgr := 0
  supp := 0
  maxf := 0
  clrt := 0
  rxFilterCtrl := 0
  sa := ⟨0, 0, 0⟩
  enetIRQ := none
  phy := ⟨0, 0, 0, 0, 0⟩
  rx := rxDrvZero
  tx := txDrvZero
  xtxCountSem := false

/-- Everything succeeds, but for the first write to the PHY if it is not to
respond. -/
def initCalls (phy : Bool) : InitCalls where
  systemCoreClock := 100000000
  written := phy
  bmcr := fun _ => some 0
  heap := rxHeap
  xtxCountSem := true
  txLockMutex := errOk
  rxLockMutex := errOk
  rxSem := errOk
  rxThread := true
  txCleanSem := errOk
  txThread := true

/-- The PHY does not respond: `ERR_OK`, with all interrupts disabled. -/
theorem init_ok_without_phy : ¬ Truthful (enetHwZero.lpcEnetifInit (initCalls false)) := by
  intro h
  have hints := (h (by decide)).interrupts.2
  exact absurd hints (by decide)

end Lpc1768
