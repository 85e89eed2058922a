/-
Lpc1768/BootAddress.lean

The addresses that a stored configuration boots with.  `vEthernetDaemon` parses
the texts `ip_addr`, `netmask` and `gateway` of `local_net` by `inet_pton`,
which is `ip4addr_aton`, into variables on its stack, and passes these to
`netif_add` whatever it returned.

`ip4addr_aton` looks at the bytes one after the other (`atonByte`).  A field
denotes an address if it parses within its own 16 bytes (`denotes_iff`); else
the variable keeps what was on the stack, or the text runs on into the next
field.  `boots_configured_iff` says that a stored request boots with the
addresses its fields denote exactly if each of them denotes one.
-/
import Lpc1768.BootRecord
import Lpc1768.ProgramImage

namespace Lpc1768

/-! ### `ip4addr_aton` -/

/-- `lwip_isdigit`. -/
def lwipIsdigit (c : UInt8) : Bool := 0x30 ≤ c && c ≤ 0x39

/-- `lwip_islower`. -/
def lwipIslower (c : UInt8) : Bool := 0x61 ≤ c && c ≤ 0x7A

/-- `lwip_isxdigit`. -/
def lwipIsxdigit (c : UInt8) : Bool :=
  lwipIsdigit c || (0x61 ≤ c && c ≤ 0x66) || (0x41 ≤ c && c ≤ 0x46)

/-- `lwip_htonl`. -/
def lwipHtonl (x : BitVec 32) : BitVec 32 :=
  ((x &&& 0x000000ff) <<< 24) ||| ((x &&& 0x0000ff00) <<< 8) ||| ((x &&& 0x00ff0000) >>> 8) |||
    ((x &&& 0xff000000) >>> 24)

/-- Where `ip4addr_aton` is when it looks at the next byte: at the first byte of
a part, behind a `0` that may begin `0x`, or in the digits, with `base` and
`val`. -/
inductive AtonPos
  | first
  | zero
  | digits (base val : BitVec 32)
  deriving DecidableEq, Repr

/-- The values of the parts so far. -/
structure Aton where
  pos : AtonPos
  parts : List (BitVec 32)
  deriving DecidableEq, Repr

/-- The address from the parts and the last value. -/
def concoct (parts : List (BitVec 32)) (val : BitVec 32) : Option (BitVec 32) :=
  match parts with
  | [] => some val
  | [p0] => if val > 0xffffff ∨ p0 > 0xff then none else some (val ||| p0 <<< 24)
  | [p0, p1] =>
      if val > 0xffff ∨ p0 > 0xff ∨ p1 > 0xff then none
      else some (val ||| (p0 <<< 24 ||| p1 <<< 16))
  | [p0, p1, p2] =>
      if val > 0xff ∨ p0 > 0xff ∨ p1 > 0xff ∨ p2 > 0xff then none
      else some (val ||| (p0 <<< 24 ||| p1 <<< 16 ||| p2 <<< 8))
  | _ => some val

/-- The inner loop at the byte `c`, and what follows it if it ends there; the
result is the address, or `none` for `return 0`. -/
def atonDigit (parts : List (BitVec 32)) (base val : BitVec 32) (c : UInt8) :
    Aton ⊕ Option (BitVec 32) :=
  if lwipIsdigit c then
    .inl ⟨.digits base (val * base + BitVec.ofNat 32 (c.toNat - 0x30)), parts⟩
  else if base = 16 ∧ lwipIsxdigit c then
    .inl ⟨.digits base
      (val <<< 4 ||| BitVec.ofNat 32 (c.toNat + 10 - if lwipIslower c then 0x61 else 0x41)), parts⟩
  else if c = 0x2E then
    if parts.length ≥ 3 then .inr none else .inl ⟨.first, parts ++ [val]⟩
  else if c ≠ 0 ∧ !isSpace c then .inr none
  else .inr ((concoct parts val).map lwipHtonl)

/-- `ip4addr_aton` at the byte `c`. -/
def atonByte (s : Aton) (c : UInt8) : Aton ⊕ Option (BitVec 32) :=
  match s.pos with
  | .first =>
      if !lwipIsdigit c then .inr none
      else if c = 0x30 then .inl ⟨.zero, s.parts⟩
      else atonDigit s.parts 10 0 c
  | .zero =>
      if c = 0x78 ∨ c = 0x58 then .inl ⟨.digits 16 0, s.parts⟩
      else atonDigit s.parts 8 0 c
  | .digits base val => atonDigit s.parts base val c

/-- `ip4addr_aton(cp, addr)`, what it writes to `addr` if it returns 1. -/
def ip4addrAton (fuel : ℕ) (cp : Mem) : Option (Option (BitVec 32)) :=
  scan atonByte fuel ⟨.first, []⟩ cp

/-- `inet_pton(AF_INET, src, dst)`: the variable keeps its value if the text does
not parse. -/
def inetPton (src : Mem) (dst : BitVec 32) : Option (BitVec 32) :=
  (ip4addrAton addressSpace src).map fun r => r.getD dst

example : ip4addrAton 16 (literal (field 16 "10.0.0.155")) = some (some 0x9b00000a) := by
  decide +kernel

/-! ### The address of a field -/

/-- `NET_LEN`. -/
def netLen : ℕ := 16

/-- Offsets in `local_net_s` and in `net_info_s`. -/
def ipAddr : ℕ := 0
def gateway : ℕ := 16
def netmask : ℕ := 32

/-- The address that the field at `src` denotes by its own bytes. -/
def ownAddr (src : Mem) : Option (BitVec 32) := (ip4addrAton netLen src).join

/-- Whatever follows the field at `src`, its text parses to `a`. -/
def Denotes (src : Mem) (a : BitVec 32) : Prop :=
  ∀ m : Mem, m.load 0 netLen = src.load 0 netLen → ip4addrAton addressSpace m = some (some a)

theorem load_eq_iff {m m' : Mem} {n : ℕ} : m.load 0 n = m'.load 0 n ↔ ∀ i < n, m i = m' i := by
  simp [Mem.load]

theorem ownAddr_congr {m m' : Mem} (h : m.load 0 netLen = m'.load 0 netLen) :
    ownAddr m = ownAddr m' := by
  rw [ownAddr, ip4addrAton, scan_congr (load_eq_iff.mp h)]
  rfl

/-- No state of `ip4addr_aton` accepts a `!`. -/
theorem atonByte_reject (s : Aton) : atonByte s 0x21 = .inr none := by
  obtain ⟨pos, parts⟩ := s
  have hdigit : ∀ base val, atonDigit parts base val 0x21 = .inr none := by
    intro base val
    simp [atonDigit, lwipIsdigit, lwipIsxdigit, isSpace]
  cases pos with
  | first => simp [atonByte, lwipIsdigit]
  | zero => exact hdigit 8 0
  | digits base val => exact hdigit base val

/-- **A field denotes an address iff it parses within its own bytes.** -/
theorem denotes_iff (src : Mem) (a : BitVec 32) : Denotes src a ↔ ownAddr src = some a := by
  have hlen : netLen < addressSpace := by decide
  constructor
  · intro h
    rcases hown : ip4addrAton netLen src with - | r
    · -- the text runs over the end: followed by a `!` it would not parse
      have hreject : ip4addrAton addressSpace (src.store netLen [0x21]) = some none := by
        refine scan_reject atonByte_reject ?_ (src.store_inside netLen [0x21] 0 (by decide)) hlen
        rw [← hown]
        exact scan_congr fun i hi => src.store_outside _ _ _ (.inl hi)
      have hdenotes := h (src.store netLen [0x21])
        (load_eq_iff.mpr fun i hi => src.store_outside _ _ _ (.inl hi))
      cases hreject.symm.trans hdenotes
    · have hmono : ip4addrAton addressSpace src = some r := scan_mono hown (Nat.le_of_lt hlen)
      have hr : r = some a := Option.some.inj (hmono.symm.trans (h src rfl))
      rw [ownAddr, hown, hr]
      rfl
  · intro h m hm
    rw [← ownAddr_congr hm] at h
    have hown : ip4addrAton netLen m = some (some a) := by
      rw [ownAddr] at h
      rcases hscan : ip4addrAton netLen m with - | r
      · rw [hscan] at h
        cases h
      · rw [hscan] at h
        exact congrArg some h
    exact scan_mono hown (Nat.le_of_lt hlen)

/-! ### Booting -/

/-- The three variables of `vEthernetDaemon`. -/
structure Addresses where
  ipaddr : BitVec 32
  netmask : BitVec 32
  gw : BitVec 32
  deriving DecidableEq, Repr

/-- What `vEthernetDaemon` passes to `netif_add`; `stack` is what the variables
hold when it is entered. -/
def daemonAddresses (localNet : Mem) (stack : Addresses) : Option Addresses := do
  let ipaddr ← inetPton (localNet.ptr ipAddr) stack.ipaddr
  let mask ← inetPton (localNet.ptr netmask) stack.netmask
  let gw ← inetPton (localNet.ptr gateway) stack.gw
  pure { ipaddr := ipaddr, netmask := mask, gw := gw }

/-- The addresses passed are those that the three fields denote, whatever is on
the stack. -/
def BootsConfigured (localNet : Mem) : Prop :=
  ∃ own : Addresses, Denotes (localNet.ptr ipAddr) own.ipaddr ∧
    Denotes (localNet.ptr netmask) own.netmask ∧ Denotes (localNet.ptr gateway) own.gw ∧
    ∀ stack, daemonAddresses localNet stack = some own

/-- Each of the three fields parses within its own bytes. -/
def FieldsParse (localNet : Mem) : Prop :=
  (ownAddr (localNet.ptr ipAddr)).isSome ∧ (ownAddr (localNet.ptr netmask)).isSome ∧
    (ownAddr (localNet.ptr gateway)).isSome

instance (localNet : Mem) : Decidable (FieldsParse localNet) := by
  unfold FieldsParse; infer_instance

theorem inetPton_of_denotes {src : Mem} {a : BitVec 32} (h : Denotes src a) (dst : BitVec 32) :
    inetPton src dst = some a := by
  rw [inetPton, h src rfl]
  rfl

theorem bootsConfigured_iff (localNet : Mem) : BootsConfigured localNet ↔ FieldsParse localNet := by
  constructor
  · rintro ⟨own, hip, hmask, hgw, -⟩
    rw [denotes_iff] at hip hmask hgw
    exact ⟨by rw [hip]; rfl, by rw [hmask]; rfl, by rw [hgw]; rfl⟩
  · rintro ⟨hip, hmask, hgw⟩
    obtain ⟨a, ha⟩ := Option.isSome_iff_exists.mp hip
    obtain ⟨m, hm⟩ := Option.isSome_iff_exists.mp hmask
    obtain ⟨g, hg⟩ := Option.isSome_iff_exists.mp hgw
    rw [← denotes_iff] at ha hm hg
    refine ⟨⟨a, m, g⟩, ha, hm, hg, fun stack => ?_⟩
    rw [daemonAddresses, inetPton_of_denotes ha, inetPton_of_denotes hm, inetPton_of_denotes hg]
    rfl

/-! ### Stored requests -/

theorem stamped_getElem? (uid : Fin 4 → BitVec 32) (bs : List UInt8) {j : ℕ}
    (hj : j < macAddr + 15) : (stamped uid bs)[j]? = bs[j]? := by
  rw [stamped, List.getElem?_set_ne (by omega), List.getElem?_set_ne (by omega)]

/-- Below the two digits a stored record is the request. -/
theorem eq_of_load_stamped {localNet net : Mem} {uid : Fin 4 → BitVec 32}
    (h : localNet.load 0 localNetSize = stamped uid (net.load 0 localNetSize)) {j : ℕ}
    (hj : j < macAddr + 15) : localNet j = net j := by
  have hlt : j < localNetSize := Nat.lt_trans hj (by decide)
  have hbyte : (localNet.load 0 localNetSize)[j]? =
      (stamped uid (net.load 0 localNetSize))[j]? := congrArg (fun bs => bs[j]?) h
  rw [stamped_getElem? uid _ hj] at hbyte
  simpa [Mem.load, hlt] using hbyte

/-- The three fields lie below the two digits. -/
theorem fieldsParse_congr {localNet net : Mem} (h : ∀ j < macAddr + 15, localNet j = net j) :
    FieldsParse localNet ↔ FieldsParse net := by
  have hown : ∀ f ≤ netmask, ownAddr (localNet.ptr f) = ownAddr (net.ptr f) := by
    intro f hf
    refine ownAddr_congr (load_eq_iff.mpr fun i hi => h (f + i) ?_)
    simp only [netmask, netLen, macAddr] at hf hi ⊢
    omega
  rw [FieldsParse, FieldsParse, hown ipAddr (by decide), hown netmask (by decide),
    hown gateway (by decide)]

/-- **A request that is accepted and stored, in any state the device can reach,
boots with the addresses that its fields denote iff each of them parses within
its own bytes.** -/
theorem boots_configured_iff {ram buffer : Mem} {acts : List LifeAct} {s : Life}
    (hrun : Run lifeStep (.factory ram buffer) acts s) {r : IapResults} {block : Option Mem}
    {net : Mem} (hstored : (setDevNet r block net s.dev).2 = .reset) (ram' : Mem) :
    BootsConfigured (vDeviceInfoInit (setDevNet r block net s.dev).1.flash
      (ram'.store 0 defaultLocalNet)).1 ↔ FieldsParse net := by
  have h : BootInv s := hrun.invariant (fun _ _ _ h => h.step) (bootInv_factory ram buffer)
  have hrec := stored_of_reset h.mac hstored
  rw [bootsConfigured_iff, vDeviceInfoInit_eq, hrec]
  have hload := load_store_record (ram'.store 0 defaultLocalNet) (length_of_stored hrec)
  exact fieldsParse_congr fun j hj => eq_of_load_stamped hload hj

/-- The request for `10.0.0.156` boots with it. -/
theorem otherAddress_boots :
    BootsConfigured (vDeviceInfoInit (setDevNet allSucceed (some fun _ => 0)
      (literal otherAddress) (Life.factory (fun _ => 0) fun _ => 0).dev).1.flash
      (Mem.store (fun _ => 0) 0 defaultLocalNet)).1 :=
  (boots_configured_iff (.nil _) (by decide +kernel) _).mpr (by decide +kernel)

/-- The compiled configuration with the host name `lpc1768` as `ip_addr`. -/
def hostName : List UInt8 := field 16 "lpc1768" ++ defaultLocalNet.drop 16

/-- It is accepted and stored, and the address depends on the stack. -/
theorem hostName_not_configured :
    (setDevNet allSucceed (some fun _ => 0) (literal hostName)
      (Life.factory (fun _ => 0) fun _ => 0).dev).2 = .reset ∧
    ¬ BootsConfigured (vDeviceInfoInit (setDevNet allSucceed (some fun _ => 0)
      (literal hostName) (Life.factory (fun _ => 0) fun _ => 0).dev).1.flash
      (Mem.store (fun _ => 0) 0 defaultLocalNet)).1 := by
  refine ⟨by decide +kernel, ?_⟩
  rintro ⟨own, -, -, -, hpass⟩
  have h0 := hpass ⟨0, 0, 0⟩
  have h1 := hpass ⟨1, 0, 0⟩
  exact absurd (h0.trans h1.symm) (by decide +kernel)

end Lpc1768
