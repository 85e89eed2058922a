/-
Lpc1768/BootRecord.lean

The stored record over the life of a device.  `set_dev_net` and
`vDeviceInfoSave` are cut at every IAP command, so that a reset can come between
any two; after a reset the start-up code initialises `local_net` and
`vDeviceInfoInit` loads the record from the flash, if there is one.
`perform_eq_setDevNet` says that the pieces make up `set_dev_net`.

The MAC text holds everything together: a request is accepted only if it has
the MAC text of `local_net`, terminator included, so every record that is saved
has one, begins with a digit and is never taken for a blank one.

The ghost `passed` holds the records given to `CopyRAM2Flash`.
-/
import Lpc1768.DeviceConfig
import Lpc1768.Transition

namespace Lpc1768

/-! ### The device -/

/-- The IAP command that comes next in `vDeviceInfoSave`; `idle` is outside
`set_dev_net`, `systemReset` after a save that succeeded. -/
inductive SavePc
  | idle | readSerial | erasePrepare | erase | copyPrepare | copy | compare | systemReset | fault
  deriving DecidableEq, Repr

structure Life where
  dev : Device
  pc : SavePc
  buffer : Mem
  passed : List (List UInt8)

inductive LifeAct
  /-- `set_dev_net` is called with this request -/
  | request (net : Mem)
  /-- the next IAP command ends with this status; `ReadDeviceSerialNum` reports
  `uid`, and `malloc` returns `block` after it -/
  | command (status : IapStatus) (uid : Fin 4 → BitVec 32) (block : Option Mem)
  /-- the chip is reset and boots; `ram` is the RAM before `local_net` is
  initialised -/
  | reset (ram : Mem)

/-- `set_dev_net` up to the first command. -/
def Life.request (s : Life) (net : Mem) : Life :=
  match strcmp addressSpace (net.ptr macAddr) (s.dev.localNet.ptr macAddr) with
  | none => { s with pc := .fault }
  | some d =>
      if d ≠ 0 then s
      else
        { s with
          dev := { s.dev with localNet := s.dev.localNet.store 0 (net.load 0 localNetSize) }
          pc := .readSerial }

/-- `vDeviceInfoSave` from the serial number to the first `PrepareSector`. -/
def Life.patch (s : Life) (uid : Fin 4 → BitVec 32) (block : Option Mem) : Life :=
  let net := s.dev.localNet.store (macAddr + 15) [(uidDigits uid).1]
  let net := net.store (macAddr + 16) [(uidDigits uid).2]
  match block with
  | none => { s with dev := { s.dev with localNet := net }, pc := .fault }
  | some b =>
      { s with
        dev := { s.dev with localNet := net }
        pc := .erasePrepare
        buffer := (b.store 0 (List.replicate iapWrite256 0xFF)).store 0 (net.load 0 localNetSize) }

/-- A command that succeeds. -/
def Life.succeed (s : Life) (uid : Fin 4 → BitVec 32) (block : Option Mem) : Option Life :=
  match s.pc with
  | .readSerial => some (s.patch uid block)
  | .erasePrepare => some { s with pc := .erase }
  | .erase =>
      let n := getSecNum deviceInfoStart
      some { s with
        dev := { s.dev with
          flash := fun a => if n ≤ getSecNum a ∧ getSecNum a ≤ n then 0xFF else s.dev.flash a }
        pc := .copyPrepare
        -- `CopyRAM2Flash` is called with the buffer
        passed := s.buffer.load 0 localNetSize :: s.passed }
  | .copyPrepare => some { s with pc := .copy }
  | .copy =>
      some { s with
        dev := { s.dev with
          flash := s.dev.flash.store deviceInfoStart (s.buffer.load 0 iapWrite256) }
        pc := .compare }
  | .compare => some { s with pc := .systemReset }
  | .idle | .systemReset | .fault => none

/-- A command is in progress. -/
def SavePc.busy : SavePc → Bool
  | .readSerial | .erasePrepare | .erase | .copyPrepare | .copy | .compare => true
  | .idle | .systemReset | .fault => false

def lifeStep (s : Life) : LifeAct → Option Life
  | .request net => if s.pc = .idle then some (s.request net) else none
  | .command status uid block =>
      if status = .cmdSuccess then s.succeed uid block
      -- every status but a success makes the save, and `set_dev_net`, return -1
      else if s.pc.busy then some { s with pc := .idle }
      else none
  | .reset ram =>
      some { s with
        dev := { s.dev with
          localNet := (vDeviceInfoInit s.dev.flash (ram.store 0 defaultLocalNet)).1 }
        pc := .idle }

/-- A device with erased flash, booted for the first time. -/
def Life.factory (ram buffer : Mem) : Life where
  dev := { localNet := ram.store 0 defaultLocalNet, flash := fun _ => 0xFF }
  pc := .idle
  buffer := buffer
  passed := []

/-! ### The pieces make up `set_dev_net` -/

/-- The status that the table has for the next command. -/
def IapResults.status (r : IapResults) : SavePc → IapStatus
  | .readSerial => r.readSerialNumber
  | .erasePrepare => r.erasePrepare
  | .erase => r.erase
  | .copyPrepare => r.copyPrepare
  | .copy => r.copyRam2Flash
  | .compare => r.compare
  | .idle | .systemReset | .fault => .cmdSuccess

/-- At most `n` commands with the statuses of the table. -/
def Life.perform (r : IapResults) (block : Option Mem) : ℕ → Life → Life
  | 0, s => s
  | n + 1, s =>
      match lifeStep s (.command (r.status s.pc) r.uid block) with
      | none => s
      | some t => t.perform r block n

/-- How `set_dev_net` has ended. -/
def SavePc.outcome : SavePc → Outcome
  | .systemReset => .reset
  | .fault => .fault
  | _ => .returned (-1)

theorem Life.perform_stop {r : IapResults} {block : Option Mem} {s : Life}
    (h : s.pc.busy = false) (n : ℕ) : s.perform r block n = s := by
  cases n with
  | zero => rfl
  | succ n =>
      have hnone : lifeStep s (.command (r.status s.pc) r.uid block) = none := by
        rcases hpc : s.pc with - | - | - | - | - | - | - | - | - <;> rw [hpc] at h <;>
          simp [lifeStep, Life.succeed, IapResults.status, SavePc.busy, hpc] at h ⊢
      rw [Life.perform, hnone]

theorem Life.perform_fail {r : IapResults} {block : Option Mem} {s : Life} (pc : SavePc)
    (hpc : s.pc = pc) (hbusy : pc.busy = true) (h : r.status pc ≠ .cmdSuccess) (n : ℕ) :
    s.perform r block (n + 1) = { s with pc := .idle } := by
  subst hpc
  have hstep : lifeStep s (.command (r.status s.pc) r.uid block) = some { s with pc := .idle } := by
    simp only [lifeStep, if_neg h, if_pos hbusy]
  rw [Life.perform, hstep]
  exact Life.perform_stop rfl n

theorem Life.perform_success {r : IapResults} {block : Option Mem} {s t : Life} (pc : SavePc)
    (hpc : s.pc = pc) (h : r.status pc = .cmdSuccess) (ht : s.succeed r.uid block = some t)
    (n : ℕ) : s.perform r block (n + 1) = t.perform r block n := by
  subst hpc
  have hstep : lifeStep s (.command (r.status s.pc) r.uid block) = some t := by
    simp only [lifeStep, if_pos h, ht]
  rw [Life.perform, hstep]

/-- From the erase on, the commands make up `writeRecord`. -/
theorem perform_eq_writeRecord (r : IapResults) (block : Option Mem) {s : Life}
    (hs : s.pc = .erasePrepare) :
    let e := s.perform r block 5
    e.dev.localNet = s.dev.localNet ∧ e.dev.flash = (writeRecord r s.buffer s.dev.flash).1 ∧
      e.pc.outcome =
        if (writeRecord r s.buffer s.dev.flash).2 ≠ .cmdSuccess then .returned (-1) else .reset := by
  obtain ⟨dev, pc, buffer, passed⟩ := s
  obtain rfl : pc = .erasePrepare := hs
  by_cases h1 : r.erasePrepare = .cmdSuccess
  swap
  · rw [Life.perform_fail .erasePrepare rfl rfl h1]
    simp [writeRecord, eraseSector, h1, SavePc.outcome]
  rw [Life.perform_success .erasePrepare rfl h1 rfl]
  by_cases h2 : r.erase = .cmdSuccess
  swap
  · rw [Life.perform_fail .erase rfl rfl h2]
    simp [writeRecord, eraseSector, h1, h2, SavePc.outcome]
  rw [Life.perform_success .erase rfl h2 rfl]
  by_cases h3 : r.copyPrepare = .cmdSuccess
  swap
  · rw [Life.perform_fail .copyPrepare rfl rfl h3]
    simp [writeRecord, eraseSector, copyRam2Flash, h1, h2, h3, SavePc.outcome]
  rw [Life.perform_success .copyPrepare rfl h3 rfl]
  by_cases h4 : r.copyRam2Flash = .cmdSuccess
  swap
  · rw [Life.perform_fail .copy rfl rfl h4]
    simp [writeRecord, eraseSector, copyRam2Flash, h1, h2, h3, h4, SavePc.outcome]
  rw [Life.perform_success .copy rfl h4 rfl]
  by_cases h5 : r.compare = .cmdSuccess
  swap
  · rw [Life.perform_fail .compare rfl rfl h5]
    simp [writeRecord, eraseSector, copyRam2Flash, h1, h2, h3, h4, h5, SavePc.outcome]
  rw [Life.perform_success .compare rfl h5 rfl, Life.perform_stop rfl]
  simp [writeRecord, eraseSector, copyRam2Flash, h1, h2, h3, h4, h5, SavePc.outcome]

theorem Device.eq_mk {s : Device} {localNet flash : Mem} (hnet : s.localNet = localNet)
    (hflash : s.flash = flash) : s = ⟨localNet, flash⟩ := by
  obtain ⟨_, _⟩ := s
  subst hnet hflash
  rfl

/-- **Performed without a reset, the pieces are `set_dev_net`.** -/
theorem perform_eq_setDevNet (r : IapResults) (block : Option Mem) (net : Mem) {s : Life}
    (hs : s.pc = .idle) :
    let e := (s.request net).perform r block 6
    (e.dev, e.pc.outcome) = setDevNet r block net s.dev := by
  obtain ⟨dev, pc, buffer, passed⟩ := s
  obtain rfl : pc = .idle := hs
  rcases hcmp : strcmp addressSpace (net.ptr macAddr) (dev.localNet.ptr macAddr) with - | d
  · simp only [Life.request, setDevNet, hcmp]
    rw [Life.perform_stop rfl]
    rfl
  by_cases hd : d = 0
  swap
  · simp only [Life.request, setDevNet, hcmp, if_pos hd]
    rw [Life.perform_stop rfl]
    rfl
  subst hd
  rw [setDevNet_eq hcmp]
  simp only [Life.request, hcmp, ne_eq, not_true_eq_false, if_false]
  by_cases hr : r.readSerialNumber = .cmdSuccess
  swap
  · rw [Life.perform_fail .readSerial rfl rfl hr]
    simp [vDeviceInfoSave, readDeviceSerialNum, hr, SavePc.outcome]
  rw [Life.perform_success .readSerial rfl hr rfl]
  cases block with
  | none =>
      rw [Life.perform_stop rfl]
      simp [Life.patch, uidDigits, vDeviceInfoSave, readDeviceSerialNum, hr, SavePc.outcome]
  | some b =>
      obtain ⟨hnet, hflash, hout⟩ := perform_eq_writeRecord r (some b)
        (s := Life.patch ⟨⟨dev.localNet.store 0 (net.load 0 localNetSize), dev.flash⟩, .readSerial,
          buffer, passed⟩ r.uid (some b)) rfl
      simp only [vDeviceInfoSave, readDeviceSerialNum, hr, ne_eq, not_true_eq_false, if_false,
        if_true]
      exact Prod.ext (Device.eq_mk hnet hflash) hout

/-! ### The MAC text -/

/-- The first 15 characters of the compiled MAC text. -/
def macPrefix : List UInt8 := (defaultLocalNet.drop macAddr).take 15

/-- A record whose `mac_addr` is a text of 17 characters, the first 15 those of
the compiled one, and its terminator. -/
def MacText (bs : List UInt8) : Prop :=
  bs.length = localNetSize ∧
    ∃ c d : UInt8, c ≠ 0 ∧ d ≠ 0 ∧ bs.drop macAddr = macPrefix ++ [c, d, 0]

theorem macText_default : MacText defaultLocalNet :=
  ⟨by decide +kernel, '0'.toUInt8, '0'.toUInt8, by decide, by decide, by decide +kernel⟩

theorem length_macPrefix : macPrefix.length = 15 := by decide +kernel

theorem zero_notMem_macPrefix : 0 ∉ macPrefix := by decide +kernel

/-- A record with a MAC text is not blank. -/
theorem MacText.loadable {bs : List UInt8} (h : MacText bs) : loadable bs = some bs := by
  obtain ⟨hlen, c, d, -, -, hmac⟩ := h
  have hfirst : bs.getD macAddr 0 = macPrefix.getD 0 0 := by
    have hdrop : (bs.drop macAddr).getD 0 0 = bs.getD macAddr 0 := by
      simp [List.getD_eq_getElem?_getD]
    rw [← hdrop, hmac]
    simp [List.getD_eq_getElem?_getD, length_macPrefix]
  rw [Lpc1768.loadable, hfirst, if_neg (by decide +kernel)]

theorem uidDigit_ne_zero (w : BitVec 32) : uidDigit w ≠ 0 := by
  intro h
  have hnat := congrArg UInt8.toNat h
  simp only [uidDigit, UInt8.toNat_ofNat'] at hnat
  have hz : (0 : UInt8).toNat = 0 := rfl
  omega

/-- The digits of the identifier keep it a MAC text. -/
theorem MacText.stamped {bs : List UInt8} (h : MacText bs) (uid : Fin 4 → BitVec 32) :
    MacText (stamped uid bs) := by
  obtain ⟨hlen, c, d, -, -, hmac⟩ := h
  refine ⟨(length_stamped uid bs).trans hlen, uidDigit (uid 0), uidDigit (uid 3),
    uidDigit_ne_zero _, uidDigit_ne_zero _, ?_⟩
  have h15 : ¬ macAddr + 15 < macAddr := by decide
  have h16 : ¬ macAddr + 16 < macAddr := by decide
  rw [Lpc1768.stamped, List.drop_set, if_neg h16, List.drop_set, if_neg h15, hmac,
    Nat.add_sub_cancel_left, Nat.add_sub_cancel_left]
  simp [length_macPrefix]

/-- Comparing with a MAC text stops at its terminator at the latest, and only
another record with the same text is found equal. -/
theorem MacText.strcmp {m : Mem} (h : MacText (m.load 0 localNetSize)) {fuel : ℕ}
    (hfuel : macLen ≤ fuel) (net : Mem) :
    (strcmp fuel (net.ptr macAddr) (m.ptr macAddr)).isSome ∧
      (strcmp fuel (net.ptr macAddr) (m.ptr macAddr) = some 0 →
        MacText (net.load 0 localNetSize)) := by
  obtain ⟨-, c, d, hc, hd, hmac⟩ := h
  have hdrop : ∀ m : Mem, (m.load 0 localNetSize).drop macAddr = m.load macAddr macLen := by
    intro m
    exact (m.drop_load 0 macAddr macLen).trans (by rw [Nat.zero_add])
  have hbytes : 0 ∉ macPrefix ++ [c, d] := by
    simp [zero_notMem_macPrefix, hc.symm, hd.symm]
  have hlen : (macPrefix ++ [c, d]).length + 1 = macLen := by
    simp [length_macPrefix, macLen]
  have hsplit : macPrefix ++ [c, d, 0] = macPrefix ++ [c, d] ++ [0] := by simp
  rw [hdrop, hsplit] at hmac
  obtain ⟨hsome, hiff⟩ := strcmp_of_load hbytes (show _ < fuel by omega) (net.ptr macAddr)
    (m.ptr macAddr) (by rw [Mem.load_ptr, hlen]; exact hmac)
  refine ⟨hsome, fun heq => ⟨Mem.length_load _ _ _, c, d, hc, hd, ?_⟩⟩
  have hnet := hiff.mp heq
  rw [Mem.load_ptr, hlen] at hnet
  rw [hdrop, hnet, hsplit]

/-! ### The invariant -/

/-- Every record on its way to the flash, in it or in force has a MAC text, and
what is in the flash has been passed to `CopyRAM2Flash` as a whole. -/
structure BootInv (s : Life) : Prop where
  mac : MacText s.dev.record
  kept : ∀ bs, stored s.dev.flash = some bs → bs ∈ s.passed
  passed : ∀ bs ∈ s.passed, MacText bs
  buffer : s.pc = .erasePrepare ∨ s.pc = .erase → MacText (s.buffer.load 0 localNetSize)
  copying : s.pc = .copyPrepare ∨ s.pc = .copy → s.buffer.load 0 localNetSize ∈ s.passed

theorem load_store_record (m : Mem) {bs : List UInt8} (h : bs.length = localNetSize) :
    (m.store 0 bs).load 0 localNetSize = bs := by
  rw [← h]
  exact m.load_store_self 0 bs

theorem bootInv_factory (ram buffer : Mem) : BootInv (.factory ram buffer) where
  mac := by
    show MacText ((ram.store 0 defaultLocalNet).load 0 localNetSize)
    rw [load_store_record ram macText_default.1]
    exact macText_default
  kept := by
    intro bs h
    have hblank : stored (Life.factory ram buffer).dev.flash = none := by
      unfold stored loadable
      rw [if_pos]
      show (Mem.load (fun _ => 0xFF) deviceInfoStart localNetSize).getD macAddr 0 = 0xFF
      decide +kernel
    cases hblank.symm.trans h
  passed := by rintro bs ⟨⟩
  buffer := by rintro (⟨⟨⟩⟩ | ⟨⟨⟩⟩)
  copying := by rintro (⟨⟨⟩⟩ | ⟨⟨⟩⟩)

/-- A step that leaves `set_dev_net`, or has not entered it yet, and writes no
flash. -/
theorem BootInv.leave {s : Life} (h : BootInv s) {localNet : Mem} {pc : SavePc}
    (hmac : MacText (localNet.load 0 localNetSize))
    (hpc : pc = .idle ∨ pc = .readSerial ∨ pc = .systemReset ∨ pc = .fault) :
    BootInv { s with dev := { s.dev with localNet := localNet }, pc := pc } where
  mac := hmac
  kept := h.kept
  passed := h.passed
  buffer := by rcases hpc with rfl | rfl | rfl | rfl <;> rintro (⟨⟨⟩⟩ | ⟨⟨⟩⟩)
  copying := by rcases hpc with rfl | rfl | rfl | rfl <;> rintro (⟨⟨⟩⟩ | ⟨⟨⟩⟩)

theorem BootInv.request {s : Life} (h : BootInv s) (net : Mem) : BootInv (s.request net) := by
  unfold Life.request
  split
  next => exact h.leave h.mac (by simp)
  next d hcmp =>
    split
    · exact h
    next hd =>
      obtain rfl : d = 0 := not_not.mp hd
      refine h.leave ?_ (by simp)
      -- accepted: the request has the MAC text of `local_net`
      rw [load_store_record _ (Mem.length_load _ _ _)]
      exact (h.mac.strcmp (by decide) net).2 hcmp

/-- The record after the two digits have been written in place. -/
theorem load_patched (m : Mem) (uid : Fin 4 → BitVec 32) :
    ((m.store (macAddr + 15) [uidDigit (uid 0)]).store (macAddr + 16)
      [uidDigit (uid 3)]).load 0 localNetSize = stamped uid (m.load 0 localNetSize) := by
  have hlen := m.length_load 0 localNetSize
  have hstamp := store_stamped m uid hlen
  rw [m.store_load] at hstamp
  rw [hstamp, load_store_record _ ((length_stamped _ _).trans hlen)]

theorem BootInv.patch {s : Life} (h : BootInv s) (uid : Fin 4 → BitVec 32) (block : Option Mem) :
    BootInv (s.patch uid block) := by
  have hmac : MacText (((s.dev.localNet.store (macAddr + 15) [uidDigit (uid 0)]).store
      (macAddr + 16) [uidDigit (uid 3)]).load 0 localNetSize) := by
    rw [load_patched]
    exact h.mac.stamped uid
  cases block with
  | none => exact h.leave hmac (by simp)
  | some b =>
      refine ⟨hmac, h.kept, h.passed, fun _ => ?_, by rintro (⟨⟨⟩⟩ | ⟨⟨⟩⟩)⟩
      show MacText (Mem.load (Mem.store _ 0 (Mem.load _ 0 localNetSize)) 0 localNetSize)
      rw [load_store_record _ (Mem.length_load _ _ _)]
      exact hmac

theorem BootInv.succeed {s t : Life} (h : BootInv s) {uid : Fin 4 → BitVec 32}
    {block : Option Mem} (ht : s.succeed uid block = some t) : BootInv t := by
  unfold Life.succeed at ht
  split at ht
  next =>
    obtain rfl := Option.some.inj ht
    exact h.patch uid block
  next hpc =>
    obtain rfl := Option.some.inj ht
    exact ⟨h.mac, h.kept, h.passed, fun _ => h.buffer (.inl hpc), by rintro (⟨⟨⟩⟩ | ⟨⟨⟩⟩)⟩
  next hpc =>
    obtain rfl := Option.some.inj ht
    refine ⟨h.mac, fun bs hbs => ?_, ?_, by rintro (⟨⟨⟩⟩ | ⟨⟨⟩⟩), fun _ => List.mem_cons_self⟩
    · cases (stored_erased s.dev.flash _ rfl).symm.trans hbs
    · rintro bs (_ | ⟨_, hbs⟩)
      · exact h.buffer (.inr hpc)
      · exact h.passed bs hbs
  next hpc =>
    obtain rfl := Option.some.inj ht
    exact ⟨h.mac, h.kept, h.passed, by rintro (⟨⟨⟩⟩ | ⟨⟨⟩⟩), fun _ => h.copying (.inl hpc)⟩
  next hpc =>
    obtain rfl := Option.some.inj ht
    refine ⟨h.mac, fun bs hbs => ?_, h.passed, by rintro (⟨⟨⟩⟩ | ⟨⟨⟩⟩), by rintro (⟨⟨⟩⟩ | ⟨⟨⟩⟩)⟩
    -- the record in the flash is now the front of the buffer
    have hmem := h.copying (.inr hpc)
    rw [stored_copied, (h.passed _ hmem).loadable] at hbs
    obtain rfl := Option.some.inj hbs
    exact hmem
  next =>
    obtain rfl := Option.some.inj ht
    exact h.leave h.mac (by simp)
  all_goals cases ht

/-- What a boot adopts. -/
theorem BootInv.boot {s : Life} (h : BootInv s) (ram : Mem) :
    let localNet := (vDeviceInfoInit s.dev.flash (ram.store 0 defaultLocalNet)).1
    localNet.load 0 localNetSize = defaultLocalNet ∨
      localNet.load 0 localNetSize ∈ s.passed := by
  show (vDeviceInfoInit s.dev.flash (ram.store 0 defaultLocalNet)).1.load 0 localNetSize = _ ∨
    (vDeviceInfoInit s.dev.flash (ram.store 0 defaultLocalNet)).1.load 0 localNetSize ∈ _
  rw [vDeviceInfoInit_eq]
  rcases hst : stored s.dev.flash with - | bs
  · exact .inl (load_store_record ram macText_default.1)
  · refine .inr ?_
    rw [load_store_record _ (length_of_stored hst)]
    exact h.kept bs hst

theorem BootInv.step {s t : Life} {a : LifeAct} (h : BootInv s) (hstep : lifeStep s a = some t) :
    BootInv t := by
  cases a with
  | request net =>
      simp only [lifeStep] at hstep
      split at hstep
      next =>
        obtain rfl := Option.some.inj hstep
        exact h.request net
      next => cases hstep
  | command status uid block =>
      simp only [lifeStep] at hstep
      split at hstep
      · exact h.succeed hstep
      · split at hstep
        · obtain rfl := Option.some.inj hstep
          exact h.leave h.mac (by simp)
        · cases hstep
  | reset ram =>
      obtain rfl := Option.some.inj hstep
      refine h.leave ?_ (by simp)
      rcases h.boot ram with hdef | hmem
      · rw [hdef]
        exact macText_default
      · exact h.passed _ hmem

/-- A request that ends in a reset has been stored, with its two digits. -/
theorem stored_of_reset {r : IapResults} {block : Option Mem} {net : Mem} {s : Device}
    (hmac : MacText s.record) (h : (setDevNet r block net s).2 = .reset) :
    stored (setDevNet r block net s).1.flash =
      some (stamped r.uid (net.load 0 localNetSize)) := by
  have hlen : (net.load 0 localNetSize).length = localNetSize := Mem.length_load _ _ _
  obtain ⟨hsome, haccept⟩ := hmac.strcmp (show macLen ≤ addressSpace by decide) net
  obtain ⟨d, hcmp⟩ := Option.isSome_iff_exists.mp hsome
  by_cases hd : d = 0
  swap
  · simp [setDevNet, hcmp, hd] at h
  subst hd
  rw [setDevNet_eq hcmp] at h ⊢
  by_cases hr : r.readSerialNumber = .cmdSuccess
  swap
  · simp [vDeviceInfoSave, readDeviceSerialNum, hr] at h
  cases block with
  | none => simp [vDeviceInfoSave, readDeviceSerialNum, hr] at h
  | some b =>
    obtain ⟨buffer, hbuf, heq⟩ := vDeviceInfoSave_eq r b s.localNet s.flash hlen hr
    rw [heq] at h ⊢
    rcases writeRecord_cases r buffer s.flash with ⟨-, hst, -⟩ | ⟨-, -, hst, -⟩ | ⟨-, -, -, hrec⟩
    · simp [hst] at h
    · simp [hst] at h
    · exact hrec.trans (by rw [hbuf]; exact ((haccept hcmp).stamped r.uid).loadable)

/-! ### Lives -/

/-- A boot adopts the compiled `local_net`, or a record that was passed to
`CopyRAM2Flash`, byte for byte. -/
def AdoptsWhole (s : Life) (a : LifeAct) (t : Life) : Prop :=
  match a with
  | .reset _ => t.dev.record = defaultLocalNet ∨ t.dev.record ∈ s.passed
  | _ => True

/-- The MAC text of `local_net` is in order, no record passed to the flash reads
as a blank one, and `set_dev_net` compares within `mac_addr`. -/
structure Life.Sound (s : Life) : Prop where
  mac : MacText s.dev.record
  saved : ∀ bs ∈ s.passed, loadable bs = some bs
  compare : ∀ net : Mem,
    (strcmp macLen (net.ptr macAddr) (s.dev.localNet.ptr macAddr)).isSome

theorem BootInv.sound {s : Life} (h : BootInv s) : s.Sound where
  mac := h.mac
  saved := fun bs hbs => (h.passed bs hbs).loadable
  compare := fun net => (h.mac.strcmp (Nat.le_refl macLen) net).1

/-- **Over every life of the device, with failures and resets between any two
commands, each boot adopts a whole record, and the MAC text stays in order.** -/
theorem boot_record_integrity (ram buffer : Mem) (acts : List LifeAct) :
    (Life.factory ram buffer).Sound ∧
      Along lifeStep (fun s a t => AdoptsWhole s a t ∧ t.Sound) (.factory ram buffer) acts := by
  have hstart := bootInv_factory ram buffer
  refine ⟨hstart.sound, Along.of_inv (I := BootInv) ?_ hstart⟩
  intro s a t h hstep
  have ht := h.step hstep
  refine ⟨⟨?_, ht.sound⟩, ht⟩
  cases a with
  | reset ram =>
      obtain rfl := Option.some.inj hstep
      exact h.boot ram
  | _ => trivial

end Lpc1768
