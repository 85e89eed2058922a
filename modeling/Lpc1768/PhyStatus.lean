/-
Lpc1768/PhyStatus.lean

The driver of the PHY: `lpc_phy_init` and the three-state machine
`lpcPHYStsPoll`, one register access over the MDIO bus a call.  Every access
may time out.

`physts` carries the reported link (connected, 100 Mbit/s, full duplex) in three
of its bits, `linkOf`.  `smscUpdatePhySts_spec` says that an update makes it the
link that the two PHY registers show; `lpcPHYStsPoll_synced` says what a poll can
do at all: the link stays as it was, or `PHY_LINK_CHANGED` is set.
-/
import Lpc1768.Identity

namespace Lpc1768

/-! ### Bits -/

def emacPhyBmcrReset : BitVec 32 := 0x8000
def emacPhyBmcrPowerdown : BitVec 32 := 0x0800
def emacPhyBmsrLinkEstablished : BitVec 16 := 0x0004

def lan8Speedmask : BitVec 16 := 0x6
def lan8Speed10F : BitVec 16 := 0x6
def lan8Speed100H : BitVec 16 := 0x0
def lan8Speed10H : BitVec 16 := 0x2

def phyLinkBusy : BitVec 32 := 0x02
def phyLinkChanged : BitVec 32 := 0x04
def phyLinkConnected : BitVec 32 := 0x08
def phyLinkSpeed100 : BitVec 32 := 0x10
def phyLinkFullduplx : BitVec 32 := 0x20

/-! ### The driver -/

/-- The static variables of the driver. -/
structure PhyDriver where
  physts : BitVec 32
  olddphysts : BitVec 32
  phyustate : ℤ
  sts : BitVec 32
  temp : BitVec 32

/-- `readphy`: what `MRDD` reads as, or -1 if the access times out. -/
def readphy (mrdd : Option (BitVec 32)) : BitVec 32 := mrdd.getD (BitVec.ofInt 32 (-1))

/-- The part of `smsc_update_phy_sts` that writes the bits of the link. -/
def smscLinkBits (linksts sdsts : BitVec 16) (physts : BitVec 32) : BitVec 32 :=
  let physts :=
    if linksts &&& emacPhyBmsrLinkEstablished ≠ 0 then physts ||| phyLinkConnected
    else physts &&& ~~~phyLinkConnected
  if sdsts &&& lan8Speedmask = lan8Speed10F then
    physts &&& ~~~phyLinkSpeed100 ||| phyLinkFullduplx
  else if sdsts &&& lan8Speedmask = lan8Speed100H then
    (physts ||| phyLinkSpeed100) &&& ~~~phyLinkFullduplx
  else if sdsts &&& lan8Speedmask = lan8Speed10H then
    physts &&& ~~~phyLinkSpeed100 &&& ~~~phyLinkFullduplx
  -- `LAN8_SPEED100F`, and the default
  else physts ||| phyLinkSpeed100 ||| phyLinkFullduplx

/-- `smsc_update_phy_sts(linksts, sdsts)`. -/
def smscUpdatePhySts (linksts sdsts : BitVec 16) (s : PhyDriver) : PhyDriver :=
  let physts := smscLinkBits linksts sdsts s.physts
  if physts &&& (phyLinkSpeed100 ||| phyLinkFullduplx ||| phyLinkConnected) ≠
      s.olddphysts &&& (phyLinkSpeed100 ||| phyLinkFullduplx ||| phyLinkConnected) then
    { s with olddphysts := physts, physts := physts ||| phyLinkChanged }
  else { s with physts := physts }

/-- `lpcPHYStsPoll()`, with the result of the register access that it makes. -/
def lpcPHYStsPoll (mrdd : Option (BitVec 32)) (s : PhyDriver) : PhyDriver × BitVec 32 :=
  let s :=
    match s.phyustate with
    | 1 => { s with temp := readphy mrdd, phyustate := 2 }
    | 2 =>
        let s := { s with physts := s.physts &&& ~~~phyLinkBusy }
        { smscUpdatePhySts (s.sts.setWidth 16) (s.temp.setWidth 16) s with phyustate := 0 }
    | _ =>
        let s := { s with sts := readphy mrdd }
        if s.sts ≠ BitVec.ofInt 32 errMem then
          { s with
            physts := s.physts &&& ~~~phyLinkChanged ||| phyLinkBusy
            phyustate := 1 }
        else s
  (s, s.physts)

/-- The wait of `lpc_phy_init` for the end of the reset, with `i` reads of `BMCR`
left. -/
def waitReset (bmcr : ℕ → Option (BitVec 32)) : ℕ → Bool
  | 0 => false
  | i + 1 =>
    let tmp := readphy (bmcr i)
    if tmp = BitVec.ofInt 32 errMem then false
    else if tmp &&& (emacPhyBmcrReset ||| emacPhyBmcrPowerdown) = 0 then true
    else waitReset bmcr i

/-- `lpc_phy_init()`: whether the first write went through, and what `BMCR`
reads as.  The last write is not checked. -/
def lpcPhyInit (written : Bool) (bmcr : ℕ → Option (BitVec 32)) (s : PhyDriver) :
    PhyDriver × Bool :=
  ({ s with olddphysts := 0, physts := 0, phyustate := 0 }, written && waitReset bmcr 400)

/-! ### The link -/

/-- A link as the driver reports it. -/
@[ext] structure Link where
  connected : Bool
  speed100 : Bool
  fullDuplex : Bool
  deriving DecidableEq, Repr

/-- The link in a value of `physts`. -/
def linkOf (physts : BitVec 32) : Link where
  connected := physts &&& phyLinkConnected ≠ 0
  speed100 := physts &&& phyLinkSpeed100 ≠ 0
  fullDuplex := physts &&& phyLinkFullduplx ≠ 0

/-- The link that the two PHY registers show. -/
def linkShown (linksts sdsts : BitVec 16) : Link where
  connected := linksts &&& emacPhyBmsrLinkEstablished ≠ 0
  speed100 := sdsts &&& lan8Speedmask ≠ lan8Speed10F ∧ sdsts &&& lan8Speedmask ≠ lan8Speed10H
  fullDuplex := sdsts &&& lan8Speedmask ≠ lan8Speed100H ∧ sdsts &&& lan8Speedmask ≠ lan8Speed10H

/-- The driver has a change to report. -/
def Changed (physts : BitVec 32) : Prop := physts &&& phyLinkChanged ≠ 0

instance (physts : BitVec 32) : Decidable (Changed physts) :=
  inferInstanceAs (Decidable (physts &&& phyLinkChanged ≠ 0))

/-- The link remembered for the next comparison is the one reported. -/
def PhyDriver.Synced (s : PhyDriver) : Prop := linkOf s.olddphysts = linkOf s.physts

/-! ### Tests and writes of bits -/

/-- A test of one bit. -/
theorem and_twoPow_ne_zero (x : BitVec 32) {i : ℕ} (hi : i < 32) :
    x &&& BitVec.twoPow 32 i ≠ 0 ↔ x[i] = true := by
  have hne : BitVec.twoPow 32 i ≠ 0 := by
    intro e
    have hbit := congrArg (fun y => y.getLsbD i) e
    simp [hi] at hbit
  rw [BitVec.and_twoPow, BitVec.getLsbD_eq_getElem hi]
  split
  · next h => exact iff_of_true hne h
  · next h => exact iff_of_false (fun hzero => hzero rfl) h

theorem changed_iff (p : BitVec 32) : Changed p ↔ p[2] = true :=
  and_twoPow_ne_zero p (show 2 < 32 by decide)

theorem linkOf_eq (p : BitVec 32) : linkOf p = ⟨p[3], p[4], p[5]⟩ := by
  have h3 := and_twoPow_ne_zero p (show 3 < 32 by decide)
  have h4 := and_twoPow_ne_zero p (show 4 < 32 by decide)
  have h5 := and_twoPow_ne_zero p (show 5 < 32 by decide)
  ext
  · exact (decide_eq_decide.mpr h3).trans (Bool.decide_coe p[3])
  · exact (decide_eq_decide.mpr h4).trans (Bool.decide_coe p[4])
  · exact (decide_eq_decide.mpr h5).trans (Bool.decide_coe p[5])

/-- Bits other than the three leave the link alone. -/
theorem linkOf_or (p : BitVec 32) {m : BitVec 32} (h : linkOf m = ⟨false, false, false⟩) :
    linkOf (p ||| m) = linkOf p := by
  rw [linkOf_eq, Link.mk.injEq] at h
  simp [linkOf_eq, h.1, h.2.1, h.2.2]

theorem linkOf_clear (p : BitVec 32) {m : BitVec 32} (h : linkOf m = ⟨false, false, false⟩) :
    linkOf (p &&& ~~~m) = linkOf p := by
  rw [linkOf_eq, Link.mk.injEq] at h
  simp only [linkOf_eq, BitVec.getElem_and, BitVec.getElem_not, h.1, h.2.1, h.2.2, Bool.not_false,
    Bool.and_true]

/-- Two values agree on the three bits iff they report the same link. -/
theorem and_link_eq_iff (p q : BitVec 32) :
    p &&& (phyLinkSpeed100 ||| phyLinkFullduplx ||| phyLinkConnected) =
        q &&& (phyLinkSpeed100 ||| phyLinkFullduplx ||| phyLinkConnected) ↔
      linkOf p = linkOf q := by
  rw [linkOf_eq, linkOf_eq, Link.mk.injEq]
  constructor
  · intro h
    have hbit : ∀ i (hi : i < 32),
        (p &&& (phyLinkSpeed100 ||| phyLinkFullduplx ||| phyLinkConnected))[i] =
          (q &&& (phyLinkSpeed100 ||| phyLinkFullduplx ||| phyLinkConnected))[i] :=
      fun i hi => by rw [h]
    simp only [BitVec.getElem_and] at hbit
    have h3 := hbit 3 (by decide)
    have h4 := hbit 4 (by decide)
    have h5 := hbit 5 (by decide)
    simp [phyLinkSpeed100, phyLinkFullduplx, phyLinkConnected] at h3 h4 h5
    exact ⟨h3, h4, h5⟩
  · rintro ⟨h3, h4, h5⟩
    have hand : ∀ x : BitVec 32, x &&& (phyLinkSpeed100 ||| phyLinkFullduplx ||| phyLinkConnected) =
        (if x[4] then BitVec.twoPow 32 4 else 0) |||
          (if x[5] then BitVec.twoPow 32 5 else 0) |||
          (if x[3] then BitVec.twoPow 32 3 else 0) := by
      intro x
      rw [BitVec.and_or_distrib_left, BitVec.and_or_distrib_left]
      show x &&& BitVec.twoPow 32 4 ||| x &&& BitVec.twoPow 32 5 ||| x &&& BitVec.twoPow 32 3 = _
      rw [BitVec.and_twoPow, BitVec.and_twoPow, BitVec.and_twoPow]
      rfl
    rw [hand, hand, h3, h4, h5]

section Writes

variable (p : BitVec 32)

@[simp] theorem linkOf_set_connected :
    linkOf (p ||| phyLinkConnected) = { linkOf p with connected := true } := by
  simp [linkOf_eq, phyLinkConnected]

@[simp] theorem linkOf_clear_connected :
    linkOf (p &&& ~~~phyLinkConnected) = { linkOf p with connected := false } := by
  simp [linkOf_eq, phyLinkConnected]

@[simp] theorem linkOf_set_speed100 :
    linkOf (p ||| phyLinkSpeed100) = { linkOf p with speed100 := true } := by
  simp [linkOf_eq, phyLinkSpeed100]

@[simp] theorem linkOf_clear_speed100 :
    linkOf (p &&& ~~~phyLinkSpeed100) = { linkOf p with speed100 := false } := by
  simp [linkOf_eq, phyLinkSpeed100]

@[simp] theorem linkOf_set_fullduplx :
    linkOf (p ||| phyLinkFullduplx) = { linkOf p with fullDuplex := true } := by
  simp [linkOf_eq, phyLinkFullduplx]

@[simp] theorem linkOf_clear_fullduplx :
    linkOf (p &&& ~~~phyLinkFullduplx) = { linkOf p with fullDuplex := false } := by
  simp [linkOf_eq, phyLinkFullduplx]

end Writes

/-! ### The driver's functions -/

/-- The bits written are those of the link that the registers show. -/
theorem smscLinkBits_link (linksts sdsts : BitVec 16) (physts : BitVec 32) :
    linkOf (smscLinkBits linksts sdsts physts) = linkShown linksts sdsts := by
  have hF : lan8Speed10F ≠ lan8Speed100H := by decide
  have hT : lan8Speed10F ≠ lan8Speed10H := by decide
  have hH : lan8Speed100H ≠ lan8Speed10H := by decide
  unfold smscLinkBits linkShown
  dsimp only
  split_ifs <;> simp_all

theorem smscLinkBits_changed (linksts sdsts : BitVec 16) (physts : BitVec 32) :
    Changed (smscLinkBits linksts sdsts physts) ↔ Changed physts := by
  unfold smscLinkBits
  rw [changed_iff, changed_iff]
  dsimp only
  split_ifs <;> simp [phyLinkConnected, phyLinkSpeed100, phyLinkFullduplx]

/-- **An update reports the link that the registers show**, remembers it, and sets
`PHY_LINK_CHANGED` if it is not the one remembered before. -/
theorem smscUpdatePhySts_spec (linksts sdsts : BitVec 16) (s : PhyDriver) :
    let t := smscUpdatePhySts linksts sdsts s
    linkOf t.physts = linkShown linksts sdsts ∧ t.Synced ∧
      (Changed t.physts ↔ linkShown linksts sdsts ≠ linkOf s.olddphysts ∨ Changed s.physts) := by
  intro t
  have hlink := smscLinkBits_link linksts sdsts s.physts
  have hflag : ∀ p : BitVec 32, linkOf (p ||| phyLinkChanged) = linkOf p :=
    fun p => linkOf_or p (by decide)
  have hchanged : ∀ p : BitVec 32, Changed (p ||| phyLinkChanged) := by
    intro p
    simp [changed_iff, phyLinkChanged]
  unfold t smscUpdatePhySts
  dsimp only
  split
  · next hdiff =>
    rw [ne_eq, and_link_eq_iff, hlink] at hdiff
    exact ⟨(hflag _).trans hlink, (hflag _).symm, iff_of_true (hchanged _) (.inl hdiff)⟩
  · next hsame =>
    rw [not_not, and_link_eq_iff, hlink] at hsame
    refine ⟨hlink, hsame.symm.trans hlink.symm, ?_⟩
    rw [hsame, smscLinkBits_changed]
    exact (or_iff_right fun hne => hne rfl).symm

/-- A poll that does not complete an update leaves the link alone. -/
theorem lpcPHYStsPoll_idle {s : PhyDriver} (h : s.phyustate ≠ 2) (mrdd : Option (BitVec 32)) :
    let t := (lpcPHYStsPoll mrdd s).1
    linkOf t.physts = linkOf s.physts ∧ t.olddphysts = s.olddphysts := by
  intro t
  have hchanged : ∀ p : BitVec 32, linkOf (p &&& ~~~phyLinkChanged) = linkOf p :=
    fun p => linkOf_clear p (by decide)
  have hbusy : ∀ p : BitVec 32, linkOf (p ||| phyLinkBusy) = linkOf p :=
    fun p => linkOf_or p (by decide)
  unfold t lpcPHYStsPoll
  dsimp only
  split
  · exact ⟨rfl, rfl⟩
  · next h2 => exact absurd h2 h
  · split
    · exact ⟨(hbusy _).trans (hchanged _), rfl⟩
    · exact ⟨rfl, rfl⟩

/-- The poll that completes an update, of the two registers read before. -/
theorem lpcPHYStsPoll_update {s : PhyDriver} (h : s.phyustate = 2) (mrdd : Option (BitVec 32)) :
    let t := (lpcPHYStsPoll mrdd s).1
    let shown := linkShown (s.sts.setWidth 16) (s.temp.setWidth 16)
    linkOf t.physts = shown ∧ t.Synced ∧
      (Changed t.physts ↔ shown ≠ linkOf s.olddphysts ∨ Changed s.physts) := by
  obtain ⟨physts, olddphysts, phyustate, sts, temp⟩ := s
  obtain rfl : phyustate = 2 := h
  obtain ⟨hlink, hsync, hch⟩ := smscUpdatePhySts_spec (sts.setWidth 16) (temp.setWidth 16)
    ⟨physts &&& ~~~phyLinkBusy, olddphysts, 2, sts, temp⟩
  refine ⟨hlink, hsync, hch.trans (or_congr_right ?_)⟩
  simp [changed_iff, phyLinkBusy]

/-- **A poll leaves the link as it was, or reports a change.** -/
theorem lpcPHYStsPoll_synced {s : PhyDriver} (h : s.Synced) (mrdd : Option (BitVec 32)) :
    let t := (lpcPHYStsPoll mrdd s).1
    t.Synced ∧ (linkOf t.physts = linkOf s.physts ∨ Changed t.physts) := by
  intro t
  by_cases h2 : s.phyustate = 2
  · obtain ⟨hlink, hsync, hch⟩ := lpcPHYStsPoll_update h2 mrdd
    refine ⟨hsync, ?_⟩
    rw [hlink, hch, h]
    rcases eq_or_ne (linkShown (s.sts.setWidth 16) (s.temp.setWidth 16)) (linkOf s.physts) with he | he
    · exact .inl he
    · exact .inr (.inl he)
  · obtain ⟨hlink, hold⟩ := lpcPHYStsPoll_idle h2 mrdd
    refine ⟨?_, .inl hlink⟩
    show linkOf t.olddphysts = linkOf t.physts
    rw [hlink, hold, h]

/-- `lpc_phy_init` leaves no link, on every path. -/
theorem lpcPhyInit_synced (written : Bool) (bmcr : ℕ → Option (BitVec 32)) (s : PhyDriver) :
    (lpcPhyInit written bmcr s).1.Synced ∧
      linkOf (lpcPhyInit written bmcr s).1.physts = ⟨false, false, false⟩ :=
  ⟨rfl, show linkOf 0 = _ by decide⟩

end Lpc1768
