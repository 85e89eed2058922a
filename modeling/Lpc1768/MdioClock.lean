/-
Lpc1768/MdioClock.lean

The clock of the MDIO bus.  `MCFG` divides the system clock for it, and both
`low_level_init` and `EMAC_Init` look for the first divider of the same table that
is large enough.  The field counts from 1, with 0 for the smallest divider
again; `EMAC_Init` adds the 1, and `low_level_init` writes the index itself.

So `low_level_init` selects the divider before the one it has found, which is too
small: the limit is kept at clocks that need no more than the smallest divider
(`mdio_in_limit_iff`), and at no other.  `emacInit_mcfg` has the other path.
-/
import Lpc1768.EnetInit

namespace Lpc1768

/-! ### The field -/

/-- The clock-select field of `MCFG`. -/
def mcfgClkSel (mcfg : BitVec 32) : ℕ := (mcfg >>> 2 &&& 0x0F).toNat

/-- The divider that the hardware takes for a value of the field. -/
def mcfgDivider : ℕ → ℕ
  | 0 => 4
  | k + 1 => ethclkdiv.getD k 0

/-- The MDIO clock is at most 2.5 MHz. -/
def MdioInLimit (systemCoreClock : ℕ) (mcfg : BitVec 32) : Prop :=
  systemCoreClock ≤ mcfgDivider (mcfgClkSel mcfg) * emacMcfgMiiMaxclk

/-- Both paths write the field together with the reset bit, which they take back. -/
theorem mcfgClkSel_written :
    ∀ n < 16, mcfgClkSel (((BitVec.ofNat 32 n &&& 0x0F) <<< 2 ||| emacMcfgResMii) &&&
      ~~~emacMcfgResMii) = n := by
  decide

/-! ### The search -/

/-- The number of dividers below the quotient of the clocks. -/
def clkdivIdx (systemCoreClock : ℕ) : ℕ :=
  ethclkdiv.findIdx fun div => div ≥ systemCoreClock / emacMcfgMiiMaxclk

theorem clkdivIdx_le (systemCoreClock : ℕ) : clkdivIdx systemCoreClock ≤ 15 :=
  List.findIdx_le_length

/-- A divider that was passed over is too small. -/
theorem mul_lt_of_lt_clkdivIdx {systemCoreClock k : ℕ} (hk : k < clkdivIdx systemCoreClock) :
    ethclkdiv.getD k 0 * emacMcfgMiiMaxclk < systemCoreClock := by
  have hlen : k < ethclkdiv.length := Nat.lt_of_lt_of_le hk (clkdivIdx_le systemCoreClock)
  have hsmall : ethclkdiv[k] < systemCoreClock / emacMcfgMiiMaxclk :=
    Nat.lt_of_not_le (of_decide_eq_false (List.not_of_lt_findIdx hk))
  have hpos : 0 < emacMcfgMiiMaxclk := by decide
  rw [List.getD_eq_getElem _ _ hlen]
  calc ethclkdiv[k] * emacMcfgMiiMaxclk
      < (systemCoreClock / emacMcfgMiiMaxclk) * emacMcfgMiiMaxclk :=
        Nat.mul_lt_mul_of_pos_right hsmall hpos
    _ ≤ systemCoreClock := Nat.div_mul_le_self _ _

/-- The one that was found is the quotient at least. -/
theorem le_of_clkdivIdx_lt {systemCoreClock : ℕ} (h : clkdivIdx systemCoreClock < 15) :
    systemCoreClock / emacMcfgMiiMaxclk ≤ ethclkdiv.getD (clkdivIdx systemCoreClock) 0 := by
  have hlen : clkdivIdx systemCoreClock < ethclkdiv.length := h
  rw [List.getD_eq_getElem _ _ hlen]
  exact of_decide_eq_true (List.findIdx_getElem (w := hlen))

/-! ### `low_level_init` -/

/-- What comes after the first writes does not touch `MCFG`. -/
theorem EnetHw.lowLevelInit_mcfg (r : InitCalls) (netif : Netif) (hw : EnetHw) :
    (hw.lowLevelInit r netif).1.mcfg = (hw.powerUp r.systemCoreClock).mcfg := by
  rcases hw.lowLevelInit_cases r netif with ⟨-, hend⟩ | ⟨-, -, hend⟩ | ⟨-, -, hend⟩ <;> rw [hend]
  · rfl
  · rfl
  · rfl

theorem EnetHw.powerUp_clkSel (systemCoreClock : ℕ) (hw : EnetHw) :
    mcfgClkSel (hw.powerUp systemCoreClock).mcfg = clkdivIdx systemCoreClock :=
  mcfgClkSel_written _ (Nat.lt_succ_of_le (clkdivIdx_le systemCoreClock))

/-- **The MDIO clock is in its limit iff the system clock is no more than four
times the limit.** -/
theorem mdio_in_limit_iff (r : InitCalls) (netif : Netif) (hw : EnetHw) :
    MdioInLimit r.systemCoreClock (hw.lowLevelInit r netif).1.mcfg ↔
      r.systemCoreClock ≤ 4 * emacMcfgMiiMaxclk := by
  rw [MdioInLimit, hw.lowLevelInit_mcfg, EnetHw.powerUp_clkSel]
  rcases hidx : clkdivIdx r.systemCoreClock with - | k
  · rfl
  · -- the divider selected is one that was passed over, and so is the smallest
    have hpassed : ∀ j ≤ k, ethclkdiv.getD j 0 * emacMcfgMiiMaxclk < r.systemCoreClock :=
      fun j hj => mul_lt_of_lt_clkdivIdx (by omega)
    exact iff_of_false (Nat.not_le_of_lt (hpassed k (Nat.le_refl k)))
      (Nat.not_le_of_lt (hpassed 0 (Nat.zero_le k)))

/-- The board runs at 100 MHz: 36 is selected where 40 is needed. -/
theorem mdio_fast_at_100MHz :
    (initCalls true).systemCoreClock = 100000000 ∧
      mcfgDivider (mcfgClkSel (enetHwZero.lowLevelInit (initCalls true) initNetif).1.mcfg) = 36 ∧
      ¬ MdioInLimit (initCalls true).systemCoreClock
        (enetHwZero.lowLevelInit (initCalls true) initNetif).1.mcfg := by
  rw [enetHwZero.lowLevelInit_mcfg, MdioInLimit]
  decide

/-! ### `EMAC_Init` -/

def emacClkdiv : List ℕ := [4, 6, 8, 10, 14, 20, 28, 36, 40, 44, 48, 52, 56, 60, 64]

/-- What `EMAC_Init` leaves in `MCFG`.  Its loop is bounded by the size of the table
in bytes, so a search without success runs past the end. -/
def emacInitMcfg (systemCoreClock : ℕ) : Option (BitVec 32) :=
  let tmp := systemCoreClock / emacMcfgMiiMaxclk
  let tout := emacClkdiv.findIdx fun div => div ≥ tmp
  if tout < emacClkdiv.length then
    let mcfg := (BitVec.ofNat 32 (tout + 1) &&& 0x0F) <<< 2 ||| emacMcfgResMii
    some (mcfg &&& ~~~emacMcfgResMii)
  else none

/-- **The other path writes the next value**, which selects the divider found. -/
theorem emacInit_mcfg {systemCoreClock : ℕ} {mcfg : BitVec 32}
    (h : emacInitMcfg systemCoreClock = some mcfg) (hw : EnetHw) :
    mcfgClkSel mcfg = mcfgClkSel (hw.powerUp systemCoreClock).mcfg + 1 ∧
      systemCoreClock / emacMcfgMiiMaxclk ≤ mcfgDivider (mcfgClkSel mcfg) := by
  obtain ⟨hlt, rfl⟩ := of_guard h
  have hidx : clkdivIdx systemCoreClock < 15 := hlt
  have hsel := mcfgClkSel_written (clkdivIdx systemCoreClock + 1) (by omega)
  rw [hw.powerUp_clkSel]
  refine ⟨hsel, Nat.le_trans (le_of_clkdivIdx_lt hidx) ?_⟩
  exact Nat.le_of_eq (congrArg mcfgDivider hsel).symm

end Lpc1768
