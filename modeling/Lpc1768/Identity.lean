/-
Lpc1768/Identity.lean

The station address (`lpc_enetif_init`, `low_level_init`).  The address is
scanned from the macro `MAC_ADDR` into six `unsigned int`, of which
`hwaddr_len` bytes are copied to `netif->hwaddr`: the first integer and half
of the second, in little-endian order (`hwaddrOf_of_macPairs`).  `local_net`
is not read.

So the interface carries the address `00:00:00:00:1A:00` whatever the device
has been configured to; `identified_iff` says that this is the configured
address exactly if `mac_addr` spells it.  Of the registers of the controller
the model has the station address; which of the other calls fail is given by
`Bringup`.
-/
import Lpc1768.DeviceInfo

namespace Lpc1768

/-! ### `sscanf` -/

/-- The value of a hexadecimal digit. -/
def hexVal (b : UInt8) : Option ℕ :=
  if 0x30 ≤ b ∧ b ≤ 0x39 then some (b.toNat - 0x30)
  else if 0x41 ≤ b ∧ b ≤ 0x46 then some (b.toNat - 0x37)
  else if 0x61 ≤ b ∧ b ≤ 0x66 then some (b.toNat - 0x57)
  else none

/-- The digits at the front, at most `width` of them: their value from `acc` on,
how many there are, and the rest of the input. -/
def scanDigits : ℕ → ℕ → List UInt8 → ℕ × ℕ × List UInt8
  | 0, acc, s => (acc, 0, s)
  | _ + 1, acc, [] => (acc, 0, [])
  | width + 1, acc, b :: s =>
    match hexVal b with
    | none => (acc, 0, b :: s)
    | some v =>
      let (acc, n, s) := scanDigits width (16 * acc + v) s
      (acc, n + 1, s)

/-- The sign in front of a number, how many characters it takes, and the rest. -/
def scanSign : List UInt8 → ℤ × ℕ × List UInt8
  | [] => (1, 0, [])
  | b :: s => if b = 0x2D then (-1, 1, s) else if b = 0x2B then (1, 1, s) else (1, 0, b :: s)

/-- The conversion `%<width>X`: white space, a sign, digits.  `none` is a
matching failure. -/
def scanHex (width : ℕ) (s : List UInt8) : Option (ℕ × List UInt8) :=
  let (sign, k, s) := scanSign (s.dropWhile isSpace)
  let (value, n, s) := scanDigits (width - k) 0 s
  if n = 0 then none else some (u32 (sign * value), s)

/-- `sscanf(s, "%02X:%02X:…", &args[0], &args[1], …)`: what it leaves in `args`. -/
def scanPairs : List ℕ → List UInt8 → List ℕ
  | [], _ => []
  | m :: ms, s =>
    match scanHex 2 s with
    | none => m :: ms
    | some (v, s) =>
      v :: (match s with
        | 0x3A :: s => scanPairs ms s
        | _ => ms)

/-! ### The interface -/

/-- `ERR_OK`, `ERR_MEM` and `ERR_BUF` of `err_t`. -/
def errOk : ℤ := 0
def errMem : ℤ := -1
def errBuf : ℤ := -2

/-- What `lpc_enetif_init` sets of `struct netif`. -/
structure Netif where
  hwaddrLen : ℕ
  hwaddr : List UInt8
  mtu : ℕ
  hostname : List UInt8
  name : UInt8 × UInt8
  flags : ℕ

/-- The station address registers. -/
structure StationAddress where
  sa0 : ℕ
  sa1 : ℕ
  sa2 : ℕ
  deriving DecidableEq, Repr

/-- What the calls made on the way return. -/
structure Bringup where
  lpcPhyInit : Bool
  lpcTxSetup : ℤ
  lpcRxSetup : ℤ
  txLockMutex : ℤ
  rxLockMutex : ℤ
  rxSem : ℤ
  rxThread : Bool
  txCleanSem : ℤ
  txThread : Bool

/-- `MAC_ADDR`. -/
def macAddrText : List UInt8 := chars "00:1A:3F:08:80:00"

/-- `ETHARP_HWADDR_LEN`. -/
def etharpHwaddrLen : ℕ := 6

/-- An `unsigned int` in memory. -/
def leBytes (w : ℕ) : List UInt8 :=
  [UInt8.ofNat w, UInt8.ofNat (w / 256), UInt8.ofNat (w / 65536), UInt8.ofNat (w / 16777216)]

/-- The scan into `boardmac` and the `memcpy` of `hwaddr_len` bytes of it. -/
def hwaddrOf (text : List UInt8) : List UInt8 :=
  ((scanPairs (List.replicate 6 0) text).flatMap leBytes).take etharpHwaddrLen

/-- Two bytes of the address in one register. -/
def saPair (hi lo : UInt8) : ℕ := hi.toNat <<< 8 ||| lo.toNat

/-- `SA0`, `SA1` and `SA2` for an address. -/
def stationAddress (hwaddr : List UInt8) : StationAddress where
  sa0 := saPair (hwaddr.getD 5 0) (hwaddr.getD 4 0)
  sa1 := saPair (hwaddr.getD 3 0) (hwaddr.getD 2 0)
  sa2 := saPair (hwaddr.getD 1 0) (hwaddr.getD 0 0)

/-- `low_level_init(netif)`. -/
def lowLevelInit (r : Bringup) (netif : Netif) (sa : StationAddress) : StationAddress × ℤ :=
  -- the failure of the PHY is reported as `false`, which is `ERR_OK`
  if r.lpcPhyInit = false then (sa, 0)
  else
    let sa := stationAddress netif.hwaddr
    if r.lpcTxSetup ≠ errOk then (sa, errBuf)
    else if r.lpcRxSetup ≠ errOk then (sa, errBuf)
    else (sa, errOk)

/-- `lpc_enetif_init(netif)`. -/
def lpcEnetifInit (r : Bringup) (sa : StationAddress) : Netif × StationAddress × ℤ :=
  let netif : Netif :=
    { hwaddrLen := etharpHwaddrLen
      hwaddr := hwaddrOf macAddrText
      mtu := 1536 - 36
      hostname := chars "LPC1768"
      name := (0x65, 0x6E)
      flags := 0x08 ||| 0x01 ||| 0x20 }
  let (sa, err) := lowLevelInit r netif sa
  (netif, sa,
    if err ≠ errOk then err
    else if r.txLockMutex ≠ errOk then errMem
    else if r.rxLockMutex ≠ errOk then errMem
    else if r.rxSem ≠ errOk then errMem
    else if r.rxThread = false then errMem
    else if r.txCleanSem ≠ errOk then errMem
    else if r.txThread = false then errMem
    else errOk)

/-- `low_level_init` runs to its end. -/
def Bringup.Complete (r : Bringup) : Prop :=
  r.lpcPhyInit = true ∧ r.lpcTxSetup = errOk ∧ r.lpcRxSetup = errOk

/-! ### The address a text spells -/

/-- The values of the `n` pairs of hexadecimal digits of a text
`xx:xx:…`, terminator included. -/
def macPairs : ℕ → List UInt8 → Option (List ℕ)
  | n + 1, h :: l :: sep :: s =>
    match hexVal h, hexVal l with
    | some hi, some lo =>
      if n = 0 then (if sep = 0 ∧ s = [] then some [16 * hi + lo] else none)
      else if sep = 0x3A then (macPairs n s).map fun ps => (16 * hi + lo) :: ps
      else none
    | _, _ => none
  | _, _ => none

/-- The address `mac_addr` of `local_net` spells, if it spells one. -/
def configuredMac (localNet : Mem) : Option (List ℕ) := macPairs 6 (localNet.load macAddr macLen)

/-- The interface has the address `mac`: in `hwaddr`, and in the registers in the
order of `low_level_init`; and it is the address the device reports. -/
structure Identified (c : Image) (localNet : Mem) (netif : Netif) (sa : StationAddress)
    (mac : List ℕ) : Prop where
  hwaddr : ∀ i < 6, (netif.hwaddr.getD i 0).toNat = mac.getD i 0
  sa0 : sa.sa0 = mac.getD 5 0 <<< 8 ||| mac.getD 4 0
  sa1 : sa.sa1 = mac.getD 3 0 <<< 8 ||| mac.getD 2 0
  sa2 : sa.sa2 = mac.getD 1 0 <<< 8 ||| mac.getD 0 0
  reported : ∀ device type device', getDevInfo c device localNet type = some (device', 0) →
    macPairs 6 (device'.load (DeviceS.net + macAddr) macLen) = some mac

/-! ### Scanning a spelled address -/

theorem hexVal_bounds {b : UInt8} {v : ℕ} (h : hexVal b = some v) : 0x30 ≤ b.toNat ∧ v < 16 := by
  unfold hexVal at h
  simp only [UInt8.le_iff_toNat_le] at h
  split at h
  · next hb =>
    have hlo : 0x30 ≤ b.toNat := hb.1
    have hhi : b.toNat ≤ 0x39 := hb.2
    have hv := Option.some.inj h
    omega
  split at h
  · next hb =>
    have hlo : 0x41 ≤ b.toNat := hb.1
    have hhi : b.toNat ≤ 0x46 := hb.2
    have hv := Option.some.inj h
    omega
  split at h
  · next hb =>
    have hlo : 0x61 ≤ b.toNat := hb.1
    have hhi : b.toNat ≤ 0x66 := hb.2
    have hv := Option.some.inj h
    omega
  · contradiction

/-- The conversion `%02X` on two digits takes both. -/
theorem scanHex_pair {h l : UInt8} {hi lo : ℕ} (hh : hexVal h = some hi) (hl : hexVal l = some lo)
    (s : List UInt8) : scanHex 2 (h :: l :: s) = some (16 * hi + lo, s) := by
  obtain ⟨hge, hhi⟩ := hexVal_bounds hh
  obtain ⟨-, hlo⟩ := hexVal_bounds hl
  -- a digit is neither white space nor a sign
  have hspace : isSpace h = false := by
    have hne : h ≠ 0x20 := by
      rintro rfl
      exact absurd hge (by decide)
    have hgt : ¬ h ≤ 0x0D := by
      intro e
      have : h.toNat ≤ 0x0D := UInt8.le_iff_toNat_le.mp e
      omega
    simp [isSpace, hne, hgt]
  have hminus : h ≠ 0x2D := by
    rintro rfl
    exact absurd hge (by decide)
  have hplus : h ≠ 0x2B := by
    rintro rfl
    exact absurd hge (by decide)
  have hvalue : u32 (1 * ((16 * hi + lo : ℕ) : ℤ)) = 16 * hi + lo := by
    unfold u32
    omega
  have hdrop : (h :: l :: s).dropWhile isSpace = h :: l :: s := by
    rw [List.dropWhile_cons_of_neg (by simp [hspace])]
  have hsign : scanSign (h :: l :: s) = (1, 0, h :: l :: s) := by
    rw [scanSign, if_neg hminus, if_neg hplus]
  have hdigits : scanDigits (2 - 0) 0 (h :: l :: s) = (16 * hi + lo, 2, s) := by
    simp [scanDigits, hh, hl]
  simp only [scanHex, hdrop, hsign, hdigits]
  rw [if_neg (by decide), hvalue]

/-- The first pair of a spelled address, and what follows it. -/
theorem macPairs_succ {n : ℕ} {s : List UInt8} {mac : List ℕ} (h : macPairs (n + 1) s = some mac) :
    ∃ d e sep rest hi lo, s = d :: e :: sep :: rest ∧ hexVal d = some hi ∧ hexVal e = some lo ∧
      ((n = 0 ∧ sep = 0 ∧ mac = [16 * hi + lo]) ∨
        (sep = 0x3A ∧ ∃ mac', macPairs n rest = some mac' ∧ mac = (16 * hi + lo) :: mac')) := by
  rcases s with _ | ⟨d, _ | ⟨e, _ | ⟨sep, rest⟩⟩⟩
  · simp [macPairs] at h
  · simp [macPairs] at h
  · simp [macPairs] at h
  rw [macPairs] at h
  cases hd : hexVal d with
  | none => simp [hd] at h
  | some hi =>
    cases he : hexVal e with
    | none => simp [hd, he] at h
    | some lo =>
      refine ⟨d, e, sep, rest, hi, lo, rfl, hd, he, ?_⟩
      simp only [hd, he] at h
      by_cases hn : n = 0
      · rw [if_pos hn] at h
        split at h
        · next hend => exact .inl ⟨hn, hend.1, (Option.some.inj h).symm⟩
        · contradiction
      · rw [if_neg hn] at h
        split at h
        · next hsep =>
          obtain ⟨mac', hmac', hcons⟩ := Option.map_eq_some_iff.mp h
          exact .inr ⟨hsep, mac', hmac', hcons.symm⟩
        · contradiction

/-- Scanning a text that spells an address gives the address. -/
theorem scanPairs_of_macPairs (ms : List ℕ) :
    ∀ {s : List UInt8} {mac : List ℕ}, macPairs ms.length s = some mac → scanPairs ms s = mac := by
  induction ms with
  | nil =>
    rintro s mac h
    simp [macPairs] at h
  | cons m ms ih =>
    rintro s mac h
    obtain ⟨d, e, sep, rest, hi, lo, rfl, hd, he, hrest⟩ := macPairs_succ h
    rw [scanPairs, scanHex_pair hd he]
    rcases hrest with ⟨hn, rfl, rfl⟩ | ⟨rfl, mac', hmac', rfl⟩
    · -- the last pair, and nothing left to fill
      have hms : ms = [] := List.length_eq_zero_iff.mp hn
      rw [hms]
      rfl
    · exact congrArg _ (ih hmac')

/-- A spelled address has a byte for every pair. -/
theorem macPairs_bounds {n : ℕ} :
    ∀ {s : List UInt8} {mac : List ℕ}, macPairs n s = some mac →
      mac.length = n ∧ ∀ v ∈ mac, v < 256 := by
  induction n with
  | zero =>
    rintro s mac h
    simp [macPairs] at h
  | succ n ih =>
    rintro s mac h
    obtain ⟨d, e, sep, rest, hi, lo, rfl, hd, he, hrest⟩ := macPairs_succ h
    obtain ⟨-, hhi⟩ := hexVal_bounds hd
    obtain ⟨-, hlo⟩ := hexVal_bounds he
    have hpair : 16 * hi + lo < 256 := by omega
    rcases hrest with ⟨rfl, -, rfl⟩ | ⟨-, mac', hmac', rfl⟩
    · simpa using hpair
    · obtain ⟨hlen, hall⟩ := ih hmac'
      refine ⟨by rw [List.length_cons, hlen], ?_⟩
      rintro v (_ | ⟨_, hv⟩)
      · exact hpair
      · exact hall v hv

theorem leBytes_of_lt {v : ℕ} (h : v < 256) : leBytes v = [UInt8.ofNat v, 0, 0, 0] := by
  have h1 : v / 256 = 0 := by omega
  have h2 : v / 65536 = 0 := by omega
  have h3 : v / 16777216 = 0 := by omega
  rw [leBytes, h1, h2, h3]
  rfl

/-! ### The address of the interface -/

/-- Whatever address the macro spells, the interface has its first pair, three
zeros, its second pair and a zero. -/
theorem hwaddrOf_of_macPairs {text : List UInt8} {mac : List ℕ} (h : macPairs 6 text = some mac) :
    hwaddrOf text = [UInt8.ofNat (mac.getD 0 0), 0, 0, 0, UInt8.ofNat (mac.getD 1 0), 0] := by
  obtain ⟨hlen, hall⟩ := macPairs_bounds h
  have hscan := scanPairs_of_macPairs (List.replicate 6 0) (by simpa using h)
  -- the first six bytes lie in the first two integers
  rcases mac with _ | ⟨p, _ | ⟨q, mac⟩⟩
  · simp at hlen
  · simp at hlen
  have hp := leBytes_of_lt (hall p (by simp))
  have hq := leBytes_of_lt (hall q (by simp))
  rw [hwaddrOf, hscan, List.flatMap_cons, List.flatMap_cons, hp, hq]
  rfl

theorem macPairs_macAddrText : macPairs 6 macAddrText = some [0x00, 0x1A, 0x3F, 0x08, 0x80, 0x00] := by
  decide +kernel

/-- The address of the interface after any `lpc_enetif_init`. -/
theorem lpcEnetifInit_hwaddr (r : Bringup) (sa : StationAddress) :
    (lpcEnetifInit r sa).1.hwaddr = [0x00, 0x00, 0x00, 0x00, 0x1A, 0x00] := by
  show hwaddrOf macAddrText = _
  rw [hwaddrOf_of_macPairs macPairs_macAddrText]
  rfl

theorem lpcEnetifInit_sa {r : Bringup} (h : r.Complete) (sa : StationAddress) :
    (lpcEnetifInit r sa).2.1 = stationAddress (lpcEnetifInit r sa).1.hwaddr := by
  obtain ⟨hphy, htx, hrx⟩ := h
  simp [lpcEnetifInit, lowLevelInit, hphy, htx, hrx]

/-- The reply of `get_dev_info` carries the MAC text of `local_net`, which is also
the one `set_dev_net` compares with. -/
theorem getDevInfo_mac {c : Image} {device device' localNet : Mem} {type : List UInt8}
    (h : getDevInfo c device localNet type = some (device', 0)) :
    device'.load (DeviceS.net + macAddr) macLen = localNet.load macAddr macLen := by
  have hport : DeviceS.net + macAddr + macLen ≤ DeviceS.port := by decide
  have hfit : macAddr + macLen = localNetSize := by decide
  unfold getDevInfo at h
  split at h
  · split at h
    · simp at h
    · simp only [Option.some.injEq, Prod.mk.injEq, and_true] at h
      rw [← h, Mem.load_store_disjoint _ DeviceS.port _ _ _ (.inl hport)]
      rw [Mem.load_store_drop _ _ (by rw [Mem.length_load]; exact Nat.le_of_eq hfit), ← hfit,
        Mem.drop_load, Nat.zero_add, List.take_of_length_le (Nat.le_of_eq (Mem.length_load _ _ _))]
  · contradiction

/-- After `low_level_init` the configured address is that of the interface exactly
if it is `00:00:00:00:1A:00`. -/
theorem identified_iff (c : Image) (flash : Mem) (r : Bringup) (sa : StationAddress)
    {mac : List ℕ} (hmac : configuredMac (boot c flash).config.localNet = some mac)
    (hr : r.Complete) :
    Identified c (boot c flash).config.localNet (lpcEnetifInit r sa).1
        (lpcEnetifInit r sa).2.1 mac ↔
      mac = [0x00, 0x00, 0x00, 0x00, 0x1A, 0x00] := by
  have hlen := (macPairs_bounds hmac).1
  have hhw := lpcEnetifInit_hwaddr r sa
  have hsa := lpcEnetifInit_sa hr sa
  rw [hhw] at hsa
  constructor
  · rintro ⟨hwaddr, -, -, -, -⟩
    apply List.ext_getElem
    · exact hlen
    · intro i hi hi'
      have hbyte := hwaddr i (by omega)
      have hconst : ∀ j < 6, (([0x00, 0x00, 0x00, 0x00, 0x1A, 0x00] : List UInt8).getD j 0).toNat =
          ([0x00, 0x00, 0x00, 0x00, 0x1A, 0x00] : List ℕ).getD j 0 := by decide
      rw [hhw, hconst i (by omega), List.getD_eq_getElem _ _ hi,
        List.getD_eq_getElem _ _ hi'] at hbyte
      exact hbyte.symm
  · rintro rfl
    refine ⟨by rw [hhw]; decide, ?_, ?_, ?_, ?_⟩
    · rw [hsa]
      rfl
    · rw [hsa]
      rfl
    · rw [hsa]
      rfl
    · rintro device type device' h
      rw [getDevInfo_mac h]
      exact hmac

/-- A flash with a record that spells `00:00:00:00:1A:00`. -/
def zeroMacFlash : Mem :=
  Mem.store (fun _ => 0xFF) (deviceInfoStart + macAddr) (chars "00:00:00:00:1A:00")

/-- Every call succeeds. -/
def bringupOk : Bringup where
  lpcPhyInit := true
  lpcTxSetup := errOk
  lpcRxSetup := errOk
  txLockMutex := errOk
  rxLockMutex := errOk
  rxSem := errOk
  rxThread := true
  txCleanSem := errOk
  txThread := true

theorem identified_zeroMac :
    configuredMac (boot blankImage zeroMacFlash).config.localNet =
        some [0x00, 0x00, 0x00, 0x00, 0x1A, 0x00] ∧
      Identified blankImage (boot blankImage zeroMacFlash).config.localNet
        (lpcEnetifInit bringupOk ⟨0, 0, 0⟩).1 (lpcEnetifInit bringupOk ⟨0, 0, 0⟩).2.1
        [0x00, 0x00, 0x00, 0x00, 0x1A, 0x00] :=
  have hmac : configuredMac (boot blankImage zeroMacFlash).config.localNet =
      some [0x00, 0x00, 0x00, 0x00, 0x1A, 0x00] := by decide +kernel
  ⟨hmac, (identified_iff blankImage zeroMacFlash bringupOk ⟨0, 0, 0⟩ hmac
    ⟨rfl, rfl, rfl⟩).mpr rfl⟩

/-- With the compiled configuration the interface does not have the configured
address. -/
theorem default_not_identified :
    configuredMac (boot blankImage fun _ => 0xFF).config.localNet =
        some [0x00, 0x1A, 0x3F, 0x08, 0x80, 0x00] ∧
      (lpcEnetifInit bringupOk ⟨0, 0, 0⟩).2.2 = errOk ∧
      ¬ Identified blankImage (boot blankImage fun _ => 0xFF).config.localNet
        (lpcEnetifInit bringupOk ⟨0, 0, 0⟩).1 (lpcEnetifInit bringupOk ⟨0, 0, 0⟩).2.1
        [0x00, 0x1A, 0x3F, 0x08, 0x80, 0x00] := by
  refine ⟨by decide +kernel, by decide, ?_⟩
  rintro ⟨hwaddr, -, -, -, -⟩
  exact absurd (hwaddr 1 (by decide)) (by decide +kernel)

end Lpc1768
