/-
Lpc1768/ProgramImage.lean

The record and the program image in the flash.  The linker may fill `FLASH` up
to 510 kB; the record lies above, at `DEVICE_INFO_START`, but in the sector
that begins at 480 kB.  A save erases that sector and writes back 256 bytes of
it.

`vDeviceInfoSave_flash` is what a successful save does to every byte, and
`image_unchanged_iff` says when the image survives it: if it leaves the part of
`FLASH` that lies in the record's sector blank.
-/
import Lpc1768.DeviceConfig

namespace Lpc1768

/-! ### Sectors -/

/-- `LENGTH` of `FLASH` in the linker script, whose `ORIGIN` is 0. -/
def flashLength : ℕ := 510 * 1024

/-- The first address of a sector: 16 of 4 kB, then sectors of 32 kB. -/
def sectorStart (n : ℕ) : ℕ := if n ≤ 16 then n * 4096 else 16 * 4096 + (n - 16) * 32768

/-- `GetSecNum` finds the sector that an address lies in. -/
theorem getSecNum_eq_iff (a n : ℕ) :
    getSecNum a = n ↔ sectorStart n ≤ a ∧ a < sectorStart (n + 1) := by
  simp only [getSecNum, sectorStart]
  split <;> split <;> split <;> omega

/-- The record's sector. -/
theorem getSecNum_deviceInfo {a : ℕ} :
    getSecNum a = getSecNum deviceInfoStart ↔ 0x78000 ≤ a ∧ a < 0x80000 := by
  rw [getSecNum_eq_iff]
  exact Iff.rfl

/-! ### A successful save -/

/-- Every command succeeds. -/
structure IapResults.AllSucceed (r : IapResults) : Prop where
  readSerialNumber : r.readSerialNumber = .cmdSuccess
  erasePrepare : r.erasePrepare = .cmdSuccess
  erase : r.erase = .cmdSuccess
  copyPrepare : r.copyPrepare = .cmdSuccess
  copyRam2Flash : r.copyRam2Flash = .cmdSuccess
  compare : r.compare = .cmdSuccess

/-- The buffer is written over a blank sector. -/
theorem writeRecord_flash {r : IapResults} (h : r.AllSucceed) (buffer flash : Mem) {a : ℕ}
    (ha : a < deviceInfoStart) :
    (writeRecord r buffer flash).1 a =
      if getSecNum a = getSecNum deviceInfoStart then 0xFF else flash a := by
  have hout : ∀ m : Mem, m.store deviceInfoStart (buffer.load 0 iapWrite256) a = m a :=
    fun m => m.store_outside _ _ _ (.inl ha)
  simp only [writeRecord, eraseSector, copyRam2Flash, h.erasePrepare, h.erase, h.copyPrepare,
    h.copyRam2Flash, ne_eq, not_true_eq_false, if_false, hout]
  exact if_congr ⟨fun he => Nat.le_antisymm he.2 he.1,
    fun he => ⟨Nat.le_of_eq he.symm, Nat.le_of_eq he⟩⟩
    rfl rfl

/-- **What a successful save does below the record**: it blanks the sector. -/
theorem vDeviceInfoSave_flash {r : IapResults} (h : r.AllSucceed) (b : Mem) (s : Device) {a : ℕ}
    (ha : a < deviceInfoStart) :
    (vDeviceInfoSave r (some b) s).1.flash a =
      if getSecNum a = getSecNum deviceInfoStart then 0xFF else s.flash a := by
  simp only [vDeviceInfoSave, readDeviceSerialNum, h.readSerialNumber, ne_eq, not_true_eq_false,
    if_false]
  exact writeRecord_flash h _ _ ha

/-- **A successful save leaves `FLASH` unchanged iff the image leaves the part of
it in the record's sector blank.** -/
theorem image_unchanged_iff {r : IapResults} (h : r.AllSucceed) (b : Mem) (s : Device) :
    (∀ a < flashLength, (vDeviceInfoSave r (some b) s).1.flash a = s.flash a) ↔
      ∀ a, 0x78000 ≤ a → a < flashLength → s.flash a = 0xFF := by
  have hbelow : flashLength < deviceInfoStart := by decide
  have htop : flashLength < 0x80000 := by decide
  apply forall_congr'
  intro a
  rcases Nat.lt_or_ge a flashLength with ha | ha
  · rw [vDeviceInfoSave_flash h b s (Nat.lt_trans ha hbelow)]
    rcases Nat.lt_or_ge a 0x78000 with hlow | hhigh
    · rw [if_neg fun he => Nat.not_le_of_lt hlow (getSecNum_deviceInfo.mp he).1]
      exact iff_of_true (fun _ => rfl) fun hge => absurd hge (Nat.not_le_of_lt hlow)
    · rw [if_pos (getSecNum_deviceInfo.mpr ⟨hhigh, Nat.lt_trans ha htop⟩)]
      exact ⟨fun he _ _ => (he ha).symm, fun he _ => (he hhigh ha).symm⟩
  · exact iff_of_true (fun hlt => absurd hlt (Nat.not_lt_of_le ha)) fun _ hlt =>
      absurd hlt (Nat.not_lt_of_le ha)

/-- Every command succeeds, and the serial number is 0. -/
def allSucceed : IapResults := { copyBusy with copyRam2Flash := .cmdSuccess }

theorem allSucceed_allSucceed : allSucceed.AllSucceed := ⟨rfl, rfl, rfl, rfl, rfl, rfl⟩

/-- An image of less than 480 kB is safe. -/
theorem image_unchanged_small :
    allSucceed.AllSucceed ∧ ∀ a < flashLength,
      (vDeviceInfoSave allSucceed (some fun _ => 0)
        ⟨literal otherAddress, fun a => if a < 0x78000 then 0 else 0xFF⟩).1.flash a =
          if a < 0x78000 then 0 else 0xFF := by
  refine ⟨allSucceed_allSucceed, (image_unchanged_iff allSucceed_allSucceed (fun _ => 0)
    ⟨literal otherAddress, fun a => if a < 0x78000 then 0 else 0xFF⟩).mpr ?_⟩
  intro a ha _
  exact if_neg (Nat.not_lt_of_le ha)

/-- An image that fills `FLASH` loses its last 30 kB. -/
theorem image_erased :
    ¬ ∀ a < flashLength, (vDeviceInfoSave allSucceed (some fun _ => 0)
      ⟨literal otherAddress, fun _ => 0⟩).1.flash a = 0 := by
  intro h
  exact absurd (h 0x78000 (by decide)) (by decide +kernel)

end Lpc1768
