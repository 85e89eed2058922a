/-
Lpc1768/DeviceConfig.lean

Storing a new network configuration (`set_dev_net`, `vDeviceInfoSave`,
`vDeviceInfoInit`) through the in-application programming commands of the boot
ROM.  The ROM is a table of the statuses its commands report: a command that
reports a failure changes nothing, an erase sets every byte of the sector to
`0xFF`, a copy writes the buffer.

`set_dev_net` is `0` for this device and `-1` otherwise, but it overwrites
`local_net` before the first command and erases the stored record before it
writes the new one.  `setDevNet_intact_iff` says exactly which failures leave
both as they were; `setDevNet_torn` is one that leaves neither.
-/
import Lpc1768.CString

namespace Lpc1768

/-! ### The record -/

/-- `sizeof(struct local_net_s)`: five fields of `NET_LEN` and one of `MAC_LEN`. -/
def localNetSize : ℕ := 98

/-- Offset of `mac_addr` in `local_net_s` and in `net_info_s`. -/
def macAddr : ℕ := 80

/-- `MAC_LEN`. -/
def macLen : ℕ := 18

/-- `DEVICE_INFO_START`: `DEIVCE_SIZE - 0x200`. -/
def deviceInfoStart : ℕ := 512 * 1024 - 0x200

/-- `IAP_WRITE_256`. -/
def iapWrite256 : ℕ := 256

/-- A `char` array of `n` bytes initialised by a string. -/
def field (n : ℕ) (s : String) : List UInt8 :=
  chars s ++ List.replicate (n - (chars s).length) 0

/-! ### In-application programming -/

/-- `IAP_STATUS_CODE`. -/
inductive IapStatus
  | cmdSuccess
  | invalidCommand
  | srcAddrError
  | dstAddrError
  | srcAddrNotMapped
  | dstAddrNotMapped
  | countError
  | invalidSector
  | sectorNotBlank
  | sectorNotPreparedForWriteOperation
  | compareError
  | busy
  deriving DecidableEq, Repr

/-- What the boot ROM answers to the commands of one `vDeviceInfoSave`, in the
order they are issued, and the serial number it reports. -/
structure IapResults where
  readSerialNumber : IapStatus
  uid : Fin 4 → BitVec 32
  erasePrepare : IapStatus
  erase : IapStatus
  copyPrepare : IapStatus
  copyRam2Flash : IapStatus
  compare : IapStatus

/-- `GetSecNum`: sectors of 4 kB, from `0x10000` on of 32 kB. -/
def getSecNum (adr : ℕ) : ℕ :=
  let n := adr / 4096
  if n ≥ 0x10 then 0x0E + n / 8 else n

/-- `ReadDeviceSerialNum`: `uid` is filled only on success. -/
def readDeviceSerialNum (r : IapResults) (uid : Fin 4 → BitVec 32) :
    (Fin 4 → BitVec 32) × IapStatus :=
  (if r.readSerialNumber = .cmdSuccess then r.uid else uid, r.readSerialNumber)

/-- `EraseSector`, `PrepareSector` included. -/
def eraseSector (r : IapResults) (startSec endSec : ℕ) (flash : Mem) : Mem × IapStatus :=
  if r.erasePrepare ≠ .cmdSuccess then (flash, r.erasePrepare)
  else if r.erase ≠ .cmdSuccess then (flash, r.erase)
  else
    (fun a => if startSec ≤ getSecNum a ∧ getSecNum a ≤ endSec then 0xFF else flash a,
      .cmdSuccess)

/-- `CopyRAM2Flash`, `PrepareSector` included. -/
def copyRam2Flash (r : IapResults) (dest : ℕ) (source : Mem) (size : ℕ) (flash : Mem) :
    Mem × IapStatus :=
  if r.copyPrepare ≠ .cmdSuccess then (flash, r.copyPrepare)
  else if r.copyRam2Flash ≠ .cmdSuccess then (flash, r.copyRam2Flash)
  else (flash.store dest (source.load 0 size), .cmdSuccess)

/-! ### Loading and saving -/

/-- `local_net` in RAM and the flash. -/
structure Device where
  localNet : Mem
  flash : Mem

/-- How a function that may reset the chip ends: it returns, or
`NVIC_SystemReset` takes effect, or an access faults. -/
inductive Outcome
  | returned (status : ℤ)
  | reset
  | fault
  deriving DecidableEq, Repr

/-- `vDeviceInfoInit(net)`. -/
def vDeviceInfoInit (flash net : Mem) : Mem × ℤ :=
  let flashNet := flash.load deviceInfoStart localNetSize
  if flashNet.getD macAddr 0 = 0xFF then (net, -1) else (net.store 0 flashNet, 0)

/-- A digit of the unique identifier, as it is written into the MAC text. -/
def uidDigit (w : BitVec 32) : UInt8 := UInt8.ofNat (w.toNat % 10 + 0x30)

/-- The two digits of the identifier. -/
def uidDigits (uid : Fin 4 → BitVec 32) : UInt8 × UInt8 := (uidDigit (uid 0), uidDigit (uid 3))

/-- The part of `vDeviceInfoSave` between `malloc` and `free`: the status its
`do … while (false)` ends with. -/
def writeRecord (r : IapResults) (buffer flash : Mem) : Mem × IapStatus :=
  let sector := getSecNum deviceInfoStart
  let erased := eraseSector r sector sector flash
  if erased.2 ≠ .cmdSuccess then erased
  else
    let copied := copyRam2Flash r deviceInfoStart buffer iapWrite256 erased.1
    if copied.2 ≠ .cmdSuccess then copied
    else (copied.1, r.compare)

/-- `vDeviceInfoSave(&local_net)`.  `block` is what `malloc` returns: `none` for
a null pointer, which `memset` then writes to. -/
def vDeviceInfoSave (r : IapResults) (block : Option Mem) (s : Device) : Device × Outcome :=
  let (uid, status) := readDeviceSerialNum r fun _ => 0
  if status ≠ .cmdSuccess then (s, .returned (-1))
  else
    let net := s.localNet.store (macAddr + 15) [uidDigit (uid 0)]
    let net := net.store (macAddr + 16) [uidDigit (uid 3)]
    match block with
    | none => ({ s with localNet := net }, .fault)
    | some b =>
      let buffer := b.store 0 (List.replicate iapWrite256 0xFF)
      let buffer := buffer.store 0 (net.load 0 localNetSize)
      let written := writeRecord r buffer s.flash
      ({ localNet := net, flash := written.1 },
        if written.2 ≠ .cmdSuccess then .returned (-1) else .reset)

/-- `set_dev_net(net)`.  A comparison that never ends reads past the memory. -/
def setDevNet (r : IapResults) (block : Option Mem) (net : Mem) (s : Device) :
    Device × Outcome :=
  match strcmp addressSpace (net.ptr macAddr) (s.localNet.ptr macAddr) with
  | none => (s, .fault)
  | some d =>
    if d ≠ 0 then (s, .returned (-1))
    else
      let s := { s with localNet := s.localNet.store 0 (net.load 0 localNetSize) }
      let saved := vDeviceInfoSave r block s
      (saved.1,
        match saved.2 with
        | .returned status => .returned (if status < 0 then -1 else 0)
        | outcome => outcome)

/-! ### What a failed request should leave -/

/-- The configuration is the same: `local_net`, and what `vDeviceInfoInit` makes
of any structure it is called on. -/
def Device.SameConfig (s t : Device) : Prop :=
  t.localNet = s.localNet ∧ ∀ net, vDeviceInfoInit t.flash net = vDeviceInfoInit s.flash net

/-- The record of `local_net` that is in force. -/
def Device.record (s : Device) : List UInt8 := s.localNet.load 0 localNetSize

/-- The record `vDeviceInfoInit` loads from a flash, if it loads one. -/
def loadable (flashNet : List UInt8) : Option (List UInt8) :=
  if flashNet.getD macAddr 0 = 0xFF then none else some flashNet

def stored (flash : Mem) : Option (List UInt8) :=
  loadable (flash.load deviceInfoStart localNetSize)

/-- The request's record with the two digits of the identifier in its MAC. -/
def stamped (uid : Fin 4 → BitVec 32) (bs : List UInt8) : List UInt8 :=
  (bs.set (macAddr + 15) (uidDigit (uid 0))).set (macAddr + 16) (uidDigit (uid 3))

/-- When a failing request leaves the configuration intact, by the first command
that fails.  By the time the serial number is read `local_net` has been
overwritten, by the time of the erase two digits of its MAC as well; the erase
takes the stored record away, and the copy puts the new one in its place. -/
def FailsClean (r : IapResults) (block : Option Mem) (net : Mem) (s : Device) : Prop :=
  let req := net.load 0 localNetSize
  if strcmp addressSpace (net.ptr macAddr) (s.localNet.ptr macAddr) ≠ some 0 then True
  else if r.readSerialNumber ≠ .cmdSuccess then req = s.record
  else if block.isNone then True
  else if r.erasePrepare ≠ .cmdSuccess ∨ r.erase ≠ .cmdSuccess then
    stamped r.uid req = s.record
  else if r.copyPrepare ≠ .cmdSuccess ∨ r.copyRam2Flash ≠ .cmdSuccess then
    stamped r.uid req = s.record ∧ stored s.flash = none
  else if r.compare ≠ .cmdSuccess then
    stamped r.uid req = s.record ∧ stored s.flash = loadable s.record
  else True

@[simp] theorem length_stamped (uid : Fin 4 → BitVec 32) (bs : List UInt8) :
    (stamped uid bs).length = bs.length := by
  simp [stamped]

/-! ### One lemma a function -/

theorem vDeviceInfoInit_eq (flash net : Mem) :
    vDeviceInfoInit flash net =
      match stored flash with
      | none => (net, -1)
      | some flashNet => (net.store 0 flashNet, 0) := by
  unfold vDeviceInfoInit stored loadable
  dsimp only
  split <;> rfl

theorem length_of_stored {flash : Mem} {bs : List UInt8} (h : stored flash = some bs) :
    bs.length = localNetSize := by
  unfold stored loadable at h
  split at h
  · contradiction
  · rw [← Option.some.inj h, Mem.length_load]

/-- Two flashes load alike exactly if they hold the same record. -/
theorem vDeviceInfoInit_congr_iff (flash flash' : Mem) :
    (∀ net, vDeviceInfoInit flash' net = vDeviceInfoInit flash net) ↔
      stored flash' = stored flash := by
  constructor
  · intro h
    have h0 := h fun _ => 0
    rw [vDeviceInfoInit_eq, vDeviceInfoInit_eq] at h0
    -- the status tells whether there is a record, the bytes stored tell which
    cases hs : stored flash with
    | none =>
      cases hs' : stored flash' with
      | none => rfl
      | some bs' => simp [hs, hs'] at h0
    | some bs =>
      cases hs' : stored flash' with
      | none => simp [hs, hs'] at h0
      | some bs' =>
        rw [hs, hs'] at h0
        have hmem : Mem.store (fun _ => 0) 0 bs' = Mem.store (fun _ => 0) 0 bs :=
          congrArg Prod.fst h0
        have hlen : bs.length = bs'.length := by
          rw [length_of_stored hs, length_of_stored hs']
        have hload := Mem.load_store_self (fun _ => 0) 0 bs'
        rw [hmem, ← hlen, Mem.load_store_self] at hload
        rw [hload]
  · intro h net
    rw [vDeviceInfoInit_eq, vDeviceInfoInit_eq, h]

/-- A successful erase of the record's sector leaves no record. -/
theorem stored_erased (flash : Mem) (n : ℕ) (hn : n = getSecNum deviceInfoStart) :
    stored (fun a => if n ≤ getSecNum a ∧ getSecNum a ≤ n then 0xFF else flash a) = none := by
  have hsec : getSecNum (deviceInfoStart + macAddr) = n := by rw [hn]; rfl
  have hmac : macAddr < localNetSize := by decide
  have hbyte : ∀ m : Mem, (m.load deviceInfoStart localNetSize).getD macAddr 0 =
      m (deviceInfoStart + macAddr) := by
    intro m
    rw [List.getD_eq_getElem _ _ (by rw [Mem.length_load]; exact hmac), Mem.getElem_load]
  unfold stored loadable
  rw [hbyte, if_pos]
  simp [hsec]

/-- After a successful copy the record is the front of the buffer. -/
theorem stored_copied (flash buffer : Mem) :
    stored (flash.store deviceInfoStart (buffer.load 0 iapWrite256)) =
      loadable (buffer.load 0 localNetSize) := by
  have h : localNetSize ≤ iapWrite256 := by decide
  unfold stored
  rw [Mem.load_store _ _ _ _ (by rw [Mem.length_load]; exact h), Mem.take_load _ _ h]

/-- The stages of `writeRecord`, each with the record it leaves and whether the
status is a success. -/
theorem writeRecord_cases (r : IapResults) (buffer flash : Mem) :
    ((r.erasePrepare ≠ .cmdSuccess ∨ r.erase ≠ .cmdSuccess) ∧
        (writeRecord r buffer flash).2 ≠ .cmdSuccess ∧
        stored (writeRecord r buffer flash).1 = stored flash) ∨
      ((r.erasePrepare = .cmdSuccess ∧ r.erase = .cmdSuccess) ∧
        (r.copyPrepare ≠ .cmdSuccess ∨ r.copyRam2Flash ≠ .cmdSuccess) ∧
        (writeRecord r buffer flash).2 ≠ .cmdSuccess ∧
        stored (writeRecord r buffer flash).1 = none) ∨
      ((r.erasePrepare = .cmdSuccess ∧ r.erase = .cmdSuccess) ∧
        (r.copyPrepare = .cmdSuccess ∧ r.copyRam2Flash = .cmdSuccess) ∧
        (writeRecord r buffer flash).2 = r.compare ∧
        stored (writeRecord r buffer flash).1 = loadable (buffer.load 0 localNetSize)) := by
  unfold writeRecord eraseSector copyRam2Flash
  by_cases h1 : r.erasePrepare = .cmdSuccess
  swap
  · exact .inl ⟨.inl h1, by simp [h1], by simp [h1]⟩
  by_cases h2 : r.erase = .cmdSuccess
  swap
  · exact .inl ⟨.inr h2, by simp [h1, h2], by simp [h1, h2]⟩
  by_cases h3 : r.copyPrepare = .cmdSuccess
  swap
  · exact .inr (.inl ⟨⟨h1, h2⟩, .inl h3, by simp [h1, h2, h3],
      by simpa [h1, h2, h3] using stored_erased flash _ rfl⟩)
  by_cases h4 : r.copyRam2Flash = .cmdSuccess
  swap
  · exact .inr (.inl ⟨⟨h1, h2⟩, .inr h4, by simp [h1, h2, h3, h4],
      by simpa [h1, h2, h3, h4] using stored_erased flash _ rfl⟩)
  exact .inr (.inr ⟨⟨h1, h2⟩, ⟨h3, h4⟩, by simp [h1, h2, h3, h4],
    by simpa [h1, h2, h3, h4] using stored_copied _ buffer⟩)

/-- The digits patched into a record that has just been copied to `local_net`. -/
theorem store_stamped (m : Mem) (uid : Fin 4 → BitVec 32) {bs : List UInt8}
    (h : bs.length = localNetSize) :
    ((m.store 0 bs).store (macAddr + 15) [uidDigit (uid 0)]).store (macAddr + 16)
      [uidDigit (uid 3)] = m.store 0 (stamped uid bs) := by
  have h15 : macAddr + 15 < bs.length := by rw [h]; decide
  have h16 : macAddr + 16 < (bs.set (macAddr + 15) (uidDigit (uid 0))).length := by
    rw [List.length_set, h]; decide
  have e15 := m.store_set 0 (macAddr + 15) (uidDigit (uid 0)) bs h15
  have e16 := m.store_set 0 (macAddr + 16) (uidDigit (uid 3)) _ h16
  rw [Nat.zero_add] at e15 e16
  rw [e15, e16, stamped]

/-- `vDeviceInfoSave` from the serial number on, for a record just copied. -/
theorem vDeviceInfoSave_eq (r : IapResults) (b m flash : Mem) {bs : List UInt8}
    (h : bs.length = localNetSize) (hr : r.readSerialNumber = .cmdSuccess) :
    ∃ buffer : Mem, buffer.load 0 localNetSize = stamped r.uid bs ∧
      vDeviceInfoSave r (some b) ⟨m.store 0 bs, flash⟩ =
        (⟨m.store 0 (stamped r.uid bs), (writeRecord r buffer flash).1⟩,
          if (writeRecord r buffer flash).2 ≠ .cmdSuccess then .returned (-1) else .reset) := by
  have hlen : (stamped r.uid bs).length = localNetSize := by rw [length_stamped, h]
  have hload : (m.store 0 (stamped r.uid bs)).load 0 localNetSize = stamped r.uid bs := by
    rw [← hlen]
    exact m.load_store_self 0 _
  refine ⟨(b.store 0 (List.replicate iapWrite256 0xFF)).store 0 (stamped r.uid bs), ?_, ?_⟩
  · rw [← hlen]
    exact Mem.load_store_self _ 0 _
  · simp only [vDeviceInfoSave, readDeviceSerialNum, hr, if_true, ne_eq, not_true_eq_false,
      if_false, store_stamped m r.uid h, hload]

theorem Device.sameConfig_iff (s : Device) (localNet flash : Mem) :
    s.SameConfig ⟨localNet, flash⟩ ↔
      localNet = s.localNet ∧ stored flash = stored s.flash := by
  unfold Device.SameConfig
  rw [vDeviceInfoInit_congr_iff]

/-- Overwriting `local_net` by a record changes nothing if it is the same record. -/
theorem Device.store_eq_localNet_iff (s : Device) {bs : List UInt8}
    (h : bs.length = localNetSize) : s.localNet.store 0 bs = s.localNet ↔ bs = s.record := by
  rw [Mem.store_eq_self_iff, h]
  rfl

/-- A save that returns has failed. -/
theorem vDeviceInfoSave_outcome (r : IapResults) (block : Option Mem) (s : Device) :
    (vDeviceInfoSave r block s).2 = .returned (-1) ∨ (vDeviceInfoSave r block s).2 = .reset ∨
      (vDeviceInfoSave r block s).2 = .fault := by
  by_cases hr : r.readSerialNumber = .cmdSuccess
  swap
  · exact .inl (by simp [vDeviceInfoSave, readDeviceSerialNum, hr])
  cases block with
  | none => exact .inr (.inr (by simp [vDeviceInfoSave, readDeviceSerialNum, hr]))
  | some b =>
    simp only [vDeviceInfoSave, readDeviceSerialNum, hr, if_true, ne_eq, not_true_eq_false, if_false]
    split
    · exact .inl rfl
    · exact .inr (.inl rfl)

/-- For this device's MAC, `set_dev_net` ends as the save does. -/
theorem setDevNet_eq {r : IapResults} {block : Option Mem} {net : Mem} {s : Device}
    (h : strcmp addressSpace (net.ptr macAddr) (s.localNet.ptr macAddr) = some 0) :
    setDevNet r block net s =
      vDeviceInfoSave r block ⟨s.localNet.store 0 (net.load 0 localNetSize), s.flash⟩ := by
  simp only [setDevNet, h, ne_eq, not_true_eq_false, if_false]
  apply Prod.ext
  · rfl
  · rcases vDeviceInfoSave_outcome r block
      ⟨s.localNet.store 0 (net.load 0 localNetSize), s.flash⟩ with ho | ho | ho <;> simp [ho]

/-- What lies behind `local_net` is not touched. -/
theorem setDevNet_outside (r : IapResults) (block : Option Mem) (net : Mem) (s : Device)
    {i : ℕ} (hi : localNetSize ≤ i) :
    (setDevNet r block net s).1.localNet i = s.localNet i := by
  have hreq : (net.load 0 localNetSize).length = localNetSize := Mem.length_load _ _ _
  have hstore : ∀ bs : List UInt8, bs.length = localNetSize →
      s.localNet.store 0 bs i = s.localNet i := fun bs h =>
    Mem.store_outside _ _ _ _ (.inr (by omega))
  cases hcmp : strcmp addressSpace (net.ptr macAddr) (s.localNet.ptr macAddr) with
  | none => simp [setDevNet, hcmp]
  | some d =>
    by_cases hd : d = 0
    swap
    · simp [setDevNet, hcmp, hd]
    rw [setDevNet_eq (by rw [hcmp, hd])]
    by_cases hr : r.readSerialNumber = .cmdSuccess
    swap
    · simpa [vDeviceInfoSave, readDeviceSerialNum, hr] using hstore _ hreq
    have hstamp := hstore (stamped r.uid (net.load 0 localNetSize)) (by rw [length_stamped, hreq])
    cases block with
    | none =>
      simpa [vDeviceInfoSave, readDeviceSerialNum, hr, store_stamped _ _ hreq] using hstamp
    | some b =>
      obtain ⟨_, _, heq⟩ := vDeviceInfoSave_eq r b s.localNet s.flash hreq hr
      rw [heq]
      exact hstamp

/-! ### Failed requests -/

/-- A failed `set_dev_net` leaves the configuration intact exactly under
`FailsClean`. -/
theorem setDevNet_intact_iff (r : IapResults) (block : Option Mem) (net : Mem) (s : Device) :
    ((setDevNet r block net s).2 = .returned (-1) →
        s.SameConfig (setDevNet r block net s).1) ↔
      FailsClean r block net s := by
  have hreq : (net.load 0 localNetSize).length = localNetSize := Mem.length_load _ _ _
  have hstamp : (stamped r.uid (net.load 0 localNetSize)).length = localNetSize := by
    rw [length_stamped, hreq]
  unfold FailsClean
  by_cases hcmp : strcmp addressSpace (net.ptr macAddr) (s.localNet.ptr macAddr) = some 0
  swap
  · -- another device's MAC, or no end to it: nothing has been touched
    have hsame : (setDevNet r block net s).1 = s := by
      unfold setDevNet
      cases hd : strcmp addressSpace (net.ptr macAddr) (s.localNet.ptr macAddr) with
      | none => rfl
      | some d =>
        have hd0 : d ≠ 0 := fun e => hcmp (by rw [hd, e])
        simp [hd0]
    simp [hcmp, hsame, Device.SameConfig]
  rw [setDevNet_eq hcmp]
  by_cases hr : r.readSerialNumber = .cmdSuccess
  swap
  · simp [hcmp, vDeviceInfoSave, readDeviceSerialNum, hr, Device.sameConfig_iff,
      s.store_eq_localNet_iff hreq]
  cases block with
  | none => simp [hcmp, vDeviceInfoSave, readDeviceSerialNum, hr]
  | some b =>
    obtain ⟨buffer, hbuf, heq⟩ := vDeviceInfoSave_eq r b s.localNet s.flash hreq hr
    rw [heq]
    rcases writeRecord_cases r buffer s.flash with
      ⟨herase, hst, hrec⟩ | ⟨herase, hcopy, hst, hrec⟩ | ⟨herase, hcopy, hst, hrec⟩
    · -- the erase failed: the record is still there
      simp [hcmp, hr, hst, herase, Device.sameConfig_iff, s.store_eq_localNet_iff hstamp, hrec]
    · -- the copy failed: the record is gone
      rcases hcopy with hcopy | hcopy <;>
        simp [hcmp, hr, hst, herase, hcopy, Device.sameConfig_iff,
          s.store_eq_localNet_iff hstamp, hrec, @eq_comm _ none]
    · by_cases hc : r.compare = .cmdSuccess
      · simp [hcmp, hr, hst, herase, hcopy, hc]
      · -- the comparison failed: the new record is in place
        have hnew : stamped r.uid (net.load 0 localNetSize) = s.record →
            (loadable (stamped r.uid (net.load 0 localNetSize)) = stored s.flash ↔
              stored s.flash = loadable s.record) := by
          intro e
          rw [e]
          exact eq_comm
        simpa [hcmp, hr, hst, herase, hcopy, hc, Device.sameConfig_iff,
          s.store_eq_localNet_iff hstamp, hrec, hbuf] using hnew

/-! ### A failing request -/

/-- The compiled `local_net`: `IPv4_ADDR`, `GATEWAY`, `NETMASK`, `DNS1`, `DNS2`, `MAC_ADDR`. -/
def defaultLocalNet : List UInt8 :=
  field 16 "10.0.0.155" ++ field 16 "10.0.0.1" ++ field 16 "255.0.0.0" ++
    field 16 "8.8.8.8" ++ field 16 "223.5.5.5" ++ field 18 "00:1A:3F:08:80:00"

/-- The same with the address `10.0.0.156`. -/
def otherAddress : List UInt8 :=
  field 16 "10.0.0.156" ++ defaultLocalNet.drop 16

/-- Every command succeeds but the copy, which finds the flash interface busy. -/
def copyBusy : IapResults where
  readSerialNumber := .cmdSuccess
  uid := fun _ => 0
  erasePrepare := .cmdSuccess
  erase := .cmdSuccess
  copyPrepare := .cmdSuccess
  copyRam2Flash := .busy
  compare := .cmdSuccess

/-- A device whose stored record is the compiled one. -/
def configured : Device where
  localNet := literal defaultLocalNet
  flash := Mem.store (fun _ => 0xFF) deviceInfoStart defaultLocalNet

/-- The request for another address fails, and the device neither keeps its
address nor has a record to boot from. -/
theorem setDevNet_torn :
    let after := setDevNet copyBusy (some fun _ => 0) (literal otherAddress) configured
    after.2 = .returned (-1) ∧ after.1.localNet ≠ configured.localNet ∧
      (vDeviceInfoInit configured.flash configured.localNet).2 = 0 ∧
      (vDeviceInfoInit after.1.flash configured.localNet).2 = -1 := by
  refine ⟨by decide +kernel, ?_, by decide +kernel, by decide +kernel⟩
  intro h
  exact absurd (congrFun h 9) (by decide +kernel)

end Lpc1768
