/-
Lpc1768/DeviceInfo.lean

The device-info server (`vDeviceInfo`, `get_dev_info`).  One `struct device_s`
on the stack of the task takes every datagram, every reply and the
configuration handed to `set_dev_net`; it is cleared once, before the loop.
`recvfrom` writes no more of it than the datagram has bytes.

`turn` is one round of the loop.  It depends on the past only through
`local_net`, the flash, and the bytes the datagram leaves standing, so a
datagram as long as the structure is treated on its own; so is one whose own
bytes rule both requests out.  `turn_determined_iff` says that no other
datagram is: there are always two histories, alike in `local_net` and flash,
after which the server reacts differently to it.
-/
import Lpc1768.DeviceConfig
import Lpc1768.Transition

namespace Lpc1768

/-! ### `struct device_s` -/

namespace DeviceS

def type : ℕ := 32
def vendor : ℕ := 33
def name : ℕ := 49
def serialNumber : ℕ := 65
def software : ℕ := 98
def hardware : ℕ := 106
def net : ℕ := 114
def port : ℕ := 212

/-- `sizeof(struct device_s)`. -/
def size : ℕ := 218

/-- `sizeof(struct net_info_s)`. -/
def netSize : ℕ := 104

end DeviceS

/-- `HD_IPC`. -/
def hdIpc : UInt8 := 0x01

/-- `REQUEST_DEV_INFO`. -/
def requestDevInfo : List UInt8 := chars "request:device info"

/-- `RESPOND_DEV_INFO`. -/
def respondDevInfo : List UInt8 := chars "respone:device info"

/-- `REQUEST_DEV_SET`. -/
def requestDevSet : List UInt8 := chars "request:device config"

/-- `RESPOND_DEV_SET`. -/
def respondDevSet : List UInt8 := chars "respone:device config"

/-! ### The server -/

/-- What the program image fixes: the bytes from `local_net` on before `main`
runs, the bytes from `device` on when the task has its stack, and the byte
behind the literal `"1000001"`. -/
structure Image where
  localNet : Mem
  stack : Mem
  pastSerial : UInt8

/-- The server between two rounds of its loop. -/
structure Server where
  device : Mem
  config : Device

/-- What a round shows: the bytes of `sendto`, the bytes `set_dev_net` is
called on. -/
@[ext] structure Reaction where
  sent : Option (List UInt8)
  set : Option (List UInt8)
  deriving DecidableEq, Repr

/-- One round's input: what `recvfrom` delivers (`none` for an error), and what
the boot ROM and `malloc` answer should the configuration be saved. -/
structure Arrival where
  received : Option (List UInt8)
  iap : IapResults
  block : Option Mem

/-- `get_dev_info(device, type)`; `none` if a `strlen` does not come to an end. -/
def getDevInfo (c : Image) (device localNet : Mem) (type : List UInt8) : Option (Mem × ℤ) :=
  match strlen addressSpace device, strlen addressSpace (literal type) with
  | some n, some k =>
    if n < k then some (device, -1)
    else
      let device := device.store DeviceS.type [hdIpc]
      let device := device.store 0 type
      let device := device.store DeviceS.vendor (chars "HDIPC")
      let device := device.store DeviceS.name (chars "LPC1768")
      -- nine bytes of a literal of eight
      let device := device.store DeviceS.serialNumber (chars "1000001" ++ [c.pastSerial])
      let device := device.store DeviceS.software ((chars "1.0.0").take 4)
      let device := device.store DeviceS.hardware ((chars "1.0.0").take 4)
      let device := device.store DeviceS.net (localNet.load 0 localNetSize)
      let device := device.store DeviceS.port (chars "80")
      some (device, 0)
  | _, _ => none

/-- A boot: `main` loads `local_net`, the task clears `device`. -/
def boot (c : Image) (flash : Mem) : Server where
  device := c.stack.store 0 (List.replicate DeviceS.size 0)
  config := ⟨(vDeviceInfoInit flash c.localNet).1, flash⟩

/-- What follows `set_dev_net(&device.net)`, by how it ended.  It may have reset
the chip, which boots it again; a fault stops it. -/
def answerSet (c : Image) (device : Mem) (result : Device × Outcome) :
    Reaction × Option Server :=
  let net := (device.ptr DeviceS.net).load 0 DeviceS.netSize
  match result.2 with
  | .returned status =>
    if status = 0 then
      let device := device.store 0 respondDevSet
      (⟨some (device.load 0 DeviceS.size), some net⟩, some ⟨device, result.1⟩)
    else (⟨none, some net⟩, some ⟨device, result.1⟩)
  | .reset => (⟨none, some net⟩, some (boot c result.1.flash))
  | .fault => (⟨none, some net⟩, none)

/-- A round of the loop from `recvfrom` on. -/
def handle (c : Image) (a : Arrival) (device : Mem) (config : Device) :
    Reaction × Option Server :=
  if strcmp addressSpace device (literal requestDevInfo) = some 0 then
    match getDevInfo c device config.localNet respondDevInfo with
    | none => (⟨none, none⟩, none)
    -- the reply is sent whether or not it was filled in
    | some (device, _) => (⟨some (device.load 0 DeviceS.size), none⟩, some ⟨device, config⟩)
  else if strcmp addressSpace device (literal requestDevSet) = some 0 then
    answerSet c device (setDevNet a.iap a.block (device.ptr DeviceS.net) config)
  else (⟨none, none⟩, some ⟨device, config⟩)

/-- A round of the loop of `vDeviceInfo`. -/
def turn (c : Image) (s : Server) (a : Arrival) : Reaction × Option Server :=
  match a.received with
  | none => (⟨none, none⟩, some s)
  | some bs => handle c a (s.device.store 0 (bs.take DeviceS.size)) s.config

/-- The server as a transition system over its rounds. -/
def serverStep (c : Image) (s : Server) (a : Arrival) : Option Server := (turn c s a).2

/-! ### Which datagrams are treated on their own -/

/-- As far as the datagram `bs` goes, its bytes are those of the string. -/
def AgreesWith (bs text : List UInt8) : Prop := bs.take text.length = text.take bs.length

instance (bs text : List UInt8) : Decidable (AgreesWith bs text) := by
  unfold AgreesWith; infer_instance

/-- A datagram that fills the structure, or that neither request agrees with. -/
def SelfContained (bs : List UInt8) : Prop :=
  DeviceS.size ≤ bs.length ∨ (¬ AgreesWith bs requestDevInfo ∧ ¬ AgreesWith bs requestDevSet)

/-- Two histories that leave the same configuration are not told apart by the
reaction to `a`. -/
def TreatedAlone (c : Image) (flash : Mem) (a : Arrival) : Prop :=
  ∀ (h h' : List Arrival) (s s' : Server),
    Run (serverStep c) (boot c flash) h s → Run (serverStep c) (boot c flash) h' s' →
    s.config.record = s'.config.record → s.config.flash = s'.config.flash →
    (turn c s a).1 = (turn c s' a).1

/-! ### The header after a datagram -/

theorem header_requestDevInfo (m : Mem) :
    strcmp addressSpace m (literal requestDevInfo) = some 0 ↔
      m.load 0 requestDevInfo.length = requestDevInfo :=
  strcmp_chars (by decide +kernel) (by decide +kernel) m

theorem header_requestDevSet (m : Mem) :
    strcmp addressSpace m (literal requestDevSet) = some 0 ↔
      m.load 0 requestDevSet.length = requestDevSet :=
  strcmp_chars (by decide +kernel) (by decide +kernel) m

theorem length_request {text : List UInt8} (h : text = requestDevInfo ∨ text = requestDevSet) :
    0 < text.length ∧ text.length < DeviceS.size := by
  rcases h with rfl | rfl <;> decide +kernel

/-- A datagram whose header is `text` afterwards agrees with it. -/
theorem agreesWith_of_load {m : Mem} {bs text : List UInt8}
    (h : (m.store 0 bs).load 0 text.length = text) : AgreesWith bs text := by
  rw [Mem.load_store_front, Nat.zero_add] at h
  unfold AgreesWith
  rcases Nat.le_total text.length bs.length with hle | hle
  · have h0 : text.length - bs.length = 0 := by omega
    rw [h0] at h
    rw [List.take_of_length_le hle]
    simpa [Mem.load] using h
  · rw [List.take_of_length_le hle] at h ⊢
    rw [← h, List.take_left]

/-- A datagram that agrees with `text` makes it the header, over a buffer that
holds the rest. -/
theorem load_of_agreesWith {m : Mem} {bs text : List UInt8} (h : AgreesWith bs text)
    (hrest : m.load bs.length (text.length - bs.length) = text.drop bs.length) :
    (m.store 0 bs).load 0 text.length = text := by
  rw [Mem.load_store_front, Nat.zero_add, hrest, h]
  exact List.take_append_drop _ _

/-! ### What the loop leaves alone -/

/-- What lies behind `local_net` and behind `device` is as in the image. -/
structure Server.Framed (c : Image) (s : Server) : Prop where
  localNet : ∀ i, localNetSize ≤ i → s.config.localNet i = c.localNet i
  device : ∀ i, DeviceS.size ≤ i → s.device i = c.stack i

theorem getDevInfo_frame {c : Image} {device device' localNet : Mem} {type : List UInt8} {e : ℤ}
    (h : getDevInfo c device localNet type = some (device', e)) (ht : type.length ≤ 32)
    {i : ℕ} (hi : DeviceS.port + 3 ≤ i) : device' i = device i := by
  have hbelow : ∀ (m : Mem) (a : ℕ) (bs : List UInt8), a + bs.length ≤ DeviceS.port + 3 →
      m.store a bs i = m i :=
    fun m a bs hle => m.store_outside a bs i (.inr (Nat.le_trans hle hi))
  have hserial : DeviceS.serialNumber + (chars "1000001" ++ [c.pastSerial]).length ≤
      DeviceS.port + 3 := by
    rw [List.length_append, List.length_singleton]
    decide +kernel
  have hnet : DeviceS.net + (localNet.load 0 localNetSize).length ≤ DeviceS.port + 3 := by
    rw [Mem.length_load]
    decide
  have htype : 0 + type.length ≤ DeviceS.port + 3 := by
    rw [Nat.zero_add]
    exact Nat.le_trans ht (by decide)
  unfold getDevInfo at h
  split at h
  · split at h
    · simp only [Option.some.injEq, Prod.mk.injEq] at h
      rw [h.1]
    · simp only [Option.some.injEq, Prod.mk.injEq] at h
      -- the nine stores, from the last one back
      rw [← h.1, hbelow _ _ _ (by decide +kernel), hbelow _ _ _ hnet,
        hbelow _ _ _ (by decide +kernel), hbelow _ _ _ (by decide +kernel), hbelow _ _ _ hserial,
        hbelow _ _ _ (by decide +kernel), hbelow _ _ _ (by decide +kernel), hbelow _ _ _ htype,
        hbelow _ _ _ (by decide +kernel)]
  · cases h

theorem boot_framed (c : Image) (flash : Mem) : (boot c flash).Framed c where
  localNet := by
    intro i hi
    show (vDeviceInfoInit flash c.localNet).1 i = c.localNet i
    rw [vDeviceInfoInit_eq]
    cases h : stored flash with
    | none => rfl
    | some bs =>
      show c.localNet.store 0 bs i = c.localNet i
      exact Mem.store_outside _ _ _ _ (.inr (by rw [length_of_stored h]; omega))
  device := by
    intro i hi
    show c.stack.store 0 (List.replicate DeviceS.size 0) i = c.stack i
    exact Mem.store_outside _ _ _ _ (.inr (by simpa using hi))

/-- The buffer after a datagram. -/
theorem Server.Framed.received {c : Image} {s : Server} (hs : s.Framed c) (bs : List UInt8)
    {i : ℕ} (hi : DeviceS.size ≤ i) : s.device.store 0 (bs.take DeviceS.size) i = c.stack i := by
  rw [Mem.store_outside _ _ _ _ (.inr (by simp; omega))]
  exact hs.device i hi

theorem answerSet_framed {c : Image} {device : Mem} {result : Device × Outcome} {s : Server}
    (hnet : ∀ i, localNetSize ≤ i → result.1.localNet i = c.localNet i)
    (hdev : ∀ i, DeviceS.size ≤ i → device i = c.stack i)
    (h : (answerSet c device result).2 = some s) : s.Framed c := by
  have hhead : respondDevSet.length ≤ DeviceS.size := by decide +kernel
  unfold answerSet at h
  cases hout : result.2 with
  | returned status =>
    by_cases hst : status = 0
    · simp only [hout, hst, if_true, Option.some.injEq] at h
      subst h
      refine ⟨hnet, fun i hi => ?_⟩
      rw [← hdev i hi]
      show device.store 0 respondDevSet i = device i
      exact Mem.store_outside _ _ _ _ (.inr (by omega))
    · simp only [hout, hst, if_false, Option.some.injEq] at h
      subst h
      exact ⟨hnet, hdev⟩
  | reset =>
    simp only [hout, Option.some.injEq] at h
    subst h
    exact boot_framed c _
  | fault => simp [hout] at h

theorem handle_framed {c : Image} {a : Arrival} {device : Mem} {config : Device} {s : Server}
    (hnet : ∀ i, localNetSize ≤ i → config.localNet i = c.localNet i)
    (hdev : ∀ i, DeviceS.size ≤ i → device i = c.stack i)
    (h : (handle c a device config).2 = some s) : s.Framed c := by
  have hport : DeviceS.port + 3 ≤ DeviceS.size := by decide
  unfold handle at h
  split at h
  · have htype : respondDevInfo.length ≤ 32 := by decide +kernel
    cases hinfo : getDevInfo c device config.localNet respondDevInfo with
    | none => simp [hinfo] at h
    | some filled =>
      simp only [hinfo, Option.some.injEq] at h
      subst h
      refine ⟨hnet, fun i hi => ?_⟩
      rw [← hdev i hi]
      exact getDevInfo_frame hinfo htype (by omega)
  split at h
  · refine answerSet_framed (fun i hi => ?_) hdev h
    rw [← hnet i hi]
    exact setDevNet_outside a.iap a.block _ config hi
  · simp only [Option.some.injEq] at h
    subst h
    exact ⟨hnet, hdev⟩

theorem serverStep_framed {c : Image} {s t : Server} {a : Arrival} (hs : s.Framed c)
    (h : serverStep c s a = some t) : t.Framed c := by
  unfold serverStep turn at h
  cases hrecv : a.received with
  | none =>
    simp only [hrecv, Option.some.injEq] at h
    exact h ▸ hs
  | some bs =>
    simp only [hrecv] at h
    exact handle_framed hs.localNet (fun i hi => hs.received bs hi) h

/-- Behind its two objects the server's memory never changes. -/
theorem run_framed {c : Image} {flash : Mem} {h : List Arrival} {s : Server}
    (hrun : Run (serverStep c) (boot c flash) h s) : s.Framed c :=
  hrun.invariant (fun _ _ _ hI hstep => serverStep_framed hI hstep) (boot_framed c flash)

/-! ### A datagram treated on its own -/

theorem Server.Framed.config_eq {c : Image} {s s' : Server} (hs : s.Framed c)
    (hs' : s'.Framed c) (hrec : s.config.record = s'.config.record)
    (hflash : s.config.flash = s'.config.flash) : s.config = s'.config := by
  have hnet : s.config.localNet = s'.config.localNet := by
    funext i
    rcases Nat.lt_or_ge i localNetSize with hi | hi
    · have hget := congrArg (fun bs => bs.getD i 0) hrec
      simpa [Device.record, List.getD_eq_getElem?_getD, hi] using hget
    · rw [hs.localNet i hi, hs'.localNet i hi]
  cases hc : s.config with
  | mk n f =>
    cases hc' : s'.config with
    | mk n' f' =>
      rw [hc, hc'] at hnet hflash
      rw [Device.mk.injEq]
      exact ⟨hnet, hflash⟩

/-- A datagram that fills the structure leaves nothing of the past in it. -/
theorem Server.Framed.received_eq {c : Image} {s s' : Server} (hs : s.Framed c)
    (hs' : s'.Framed c) {bs : List UInt8} (hlen : DeviceS.size ≤ bs.length) :
    s.device.store 0 (bs.take DeviceS.size) = s'.device.store 0 (bs.take DeviceS.size) := by
  have htake : (bs.take DeviceS.size).length = DeviceS.size := by
    rw [List.length_take]
    omega
  funext i
  rcases Nat.lt_or_ge i DeviceS.size with hi | hi
  · rw [Mem.store_zero_inside _ _ _ (by omega), Mem.store_zero_inside _ _ _ (by omega)]
  · rw [hs.received bs hi, hs'.received bs hi]

/-- A header that is neither request gets no reaction. -/
theorem handle_invalid {c : Image} {a : Arrival} {device : Mem} {config : Device}
    (hinfo : device.load 0 requestDevInfo.length ≠ requestDevInfo)
    (hset : device.load 0 requestDevSet.length ≠ requestDevSet) :
    handle c a device config = (⟨none, none⟩, some ⟨device, config⟩) := by
  unfold handle
  rw [if_neg (mt (header_requestDevInfo device).mp hinfo),
    if_neg (mt (header_requestDevSet device).mp hset)]

/-- Both requests begin with an `'r'`. -/
theorem handle_invalid_of_first {c : Image} {a : Arrival} {device : Mem} {config : Device}
    (h : device 0 ≠ 0x72) :
    handle c a device config = (⟨none, none⟩, some ⟨device, config⟩) := by
  have hne : ∀ req : List UInt8, req.head? = some 0x72 → device.load 0 req.length ≠ req := by
    rintro req hreq e
    cases req with
    | nil => simp at hreq
    | cons b req =>
      rw [List.length_cons, Mem.load_succ, List.cons.injEq] at e
      rw [List.head?_cons, Option.some.injEq] at hreq
      exact h (e.1.trans hreq)
  exact handle_invalid (hne _ (by decide +kernel)) (hne _ (by decide +kernel))

theorem agreesWith_take {bs text : List UInt8} (hle : text.length ≤ DeviceS.size)
    (h : AgreesWith (bs.take DeviceS.size) text) : AgreesWith bs text := by
  unfold AgreesWith at h ⊢
  rw [List.take_take, Nat.min_eq_left hle, List.length_take] at h
  rcases Nat.le_total bs.length DeviceS.size with hbs | hbs
  · rwa [Nat.min_eq_right hbs] at h
  · rw [Nat.min_eq_left hbs, List.take_of_length_le hle] at h
    rw [h, List.take_of_length_le (by omega)]

theorem treatedAlone_of_selfContained {c : Image} {flash : Mem} {a : Arrival} {bs : List UInt8}
    (hrecv : a.received = some bs) (h : SelfContained bs) : TreatedAlone c flash a := by
  rintro h₁ h₂ s s' hrun hrun' hrec hflash
  have hs := run_framed hrun
  have hs' := run_framed hrun'
  have hconfig := hs.config_eq hs' hrec hflash
  simp only [turn, hrecv]
  rcases h with hlen | ⟨hinfo, hset⟩
  · rw [hconfig, hs.received_eq hs' hlen]
  · have hinfoSize := Nat.le_of_lt (length_request (.inl rfl)).2
    have hsetSize := Nat.le_of_lt (length_request (.inr rfl)).2
    have hno : ∀ (m : Mem) (config : Device),
        handle c a (m.store 0 (bs.take DeviceS.size)) config =
          (⟨none, none⟩, some ⟨m.store 0 (bs.take DeviceS.size), config⟩) := by
      intro m config
      exact handle_invalid (fun e => hinfo (agreesWith_take hinfoSize (agreesWith_of_load e)))
        (fun e => hset (agreesWith_take hsetSize (agreesWith_of_load e)))
    rw [hno, hno]

/-! ### What a request shows of the buffer -/

/-- The reply to an information request carries the last byte of the buffer. -/
theorem handle_info (c : Image) (a : Arrival) {device : Mem} (config : Device)
    (h : device.load 0 requestDevInfo.length = requestDevInfo) :
    ∃ bs, (handle c a device config).1.sent = some bs ∧
      bs.getD (DeviceS.size - 1) 0 = device (DeviceS.size - 1) := by
  have htype : respondDevInfo.length ≤ 32 := by decide +kernel
  have hlen : strlen addressSpace device = some 19 :=
    (strlen_chars (by decide +kernel) (by decide +kernel) device h).trans (by decide +kernel)
  have hlen' : strlen addressSpace (literal respondDevInfo) = some 19 := by decide +kernel
  unfold handle
  rw [if_pos ((header_requestDevInfo device).mpr h)]
  -- both headers have nineteen characters, so the reply is filled in
  obtain ⟨filled, hfill⟩ : ∃ filled,
      getDevInfo c device config.localNet respondDevInfo = some filled := by
    simp [getDevInfo, hlen, hlen']
  rw [hfill]
  refine ⟨_, rfl, ?_⟩
  have hlast : DeviceS.size - 1 < (filled.1.load 0 DeviceS.size).length := by
    rw [Mem.length_load]
    decide
  rw [List.getD_eq_getElem _ _ hlast, Mem.getElem_load, Nat.zero_add]
  exact getDevInfo_frame hfill htype (by decide)

/-- With a configuration request in its header, the buffer goes to `set_dev_net`. -/
theorem handle_eq_answerSet {c : Image} {a : Arrival} {device : Mem} {config : Device}
    (h : device.load 0 requestDevSet.length = requestDevSet) :
    handle c a device config =
      answerSet c device (setDevNet a.iap a.block (device.ptr DeviceS.net) config) := by
  have hinfo : device.load 0 requestDevInfo.length ≠ requestDevInfo := by
    intro e
    have hle : requestDevInfo.length ≤ requestDevSet.length := by decide +kernel
    rw [← Mem.take_load device 0 hle, h] at e
    exact absurd e (by decide +kernel)
  unfold handle
  rw [if_neg (mt (header_requestDevInfo device).mp hinfo),
    if_pos ((header_requestDevSet device).mpr h)]

/-- A configuration request hands over the configuration part of the buffer. -/
theorem handle_set (c : Image) (a : Arrival) {device : Mem} (config : Device)
    (h : device.load 0 requestDevSet.length = requestDevSet) :
    (handle c a device config).1.set =
      some ((device.ptr DeviceS.net).load 0 DeviceS.netSize) := by
  rw [handle_eq_answerSet h]
  unfold answerSet
  dsimp only
  split
  · split <;> rfl
  · rfl
  · rfl

/-! ### Two histories told apart -/

/-- A datagram that is no request: `'X'`, then the bytes of `text`, then zeros,
and `x` as the last byte of the structure. -/
def leftover (text : List UInt8) (x : UInt8) : List UInt8 :=
  0x58 :: text.drop 1 ++ List.replicate (DeviceS.size - 1 - text.length) 0 ++ [x]

/-- A configuration request up to the MAC. -/
def foreignFront : List UInt8 :=
  requestDevSet ++ List.replicate (DeviceS.net + macAddr - requestDevSet.length) 0

/-- A configuration request for a device whose MAC begins with `x`. -/
def foreignSet (x : UInt8) : List UInt8 :=
  foreignFront ++ x :: List.replicate (DeviceS.netSize - macAddr - 1) 0

/-- The buffer of a fresh server after one datagram that fills it. -/
theorem boot_received (c : Image) (flash : Mem) {bs : List UInt8}
    (h : bs.length = DeviceS.size) :
    (boot c flash).device.store 0 (bs.take DeviceS.size) = c.stack.store 0 bs := by
  rw [List.take_of_length_le (by omega)]
  funext i
  rcases Nat.lt_or_ge i DeviceS.size with hi | hi
  · rw [Mem.store_zero_inside _ _ _ (by omega), Mem.store_zero_inside _ _ _ (by omega)]
  · rw [Mem.store_outside _ _ _ _ (.inr (by omega)), Mem.store_outside _ _ _ _ (.inr (by omega))]
    exact (boot_framed c flash).device i hi

/-- The rounds of a fresh server on one datagram that fills the structure. -/
theorem run_boot_single {c : Image} {flash : Mem} {a : Arrival} {bs : List UInt8} {r : Reaction}
    (hrecv : a.received = some bs) (hlen : bs.length = DeviceS.size)
    (h : handle c a (c.stack.store 0 bs) (boot c flash).config =
      (r, some ⟨c.stack.store 0 bs, (boot c flash).config⟩)) :
    Run (serverStep c) (boot c flash) [a] ⟨c.stack.store 0 bs, (boot c flash).config⟩ := by
  refine Run.cons ?_ (Run.nil _)
  unfold serverStep turn
  simp only [hrecv]
  rw [boot_received c flash hlen, h]

theorem length_leftover {text : List UInt8} (x : UInt8) (h : 0 < text.length)
    (h' : text.length < DeviceS.size) : (leftover text x).length = DeviceS.size := by
  simp [leftover]
  omega

/-- From its second byte on, the front of a leftover is `text`. -/
theorem leftover_front {text : List UInt8} (x : UInt8) {a : ℕ} (ha : 0 < a)
    (h : 0 < text.length) : ((leftover text x).drop a).take (text.length - a) = text.drop a := by
  have htake : (leftover text x).take text.length = 0x58 :: text.drop 1 := by
    have hlen : (0x58 :: text.drop 1).length = text.length := by simp; omega
    rw [leftover, List.append_assoc, ← hlen, List.take_left]
  obtain ⟨b, rfl⟩ : ∃ b, a = b + 1 := ⟨a - 1, by omega⟩
  rw [← List.drop_take, htake, List.drop_succ_cons, List.drop_drop, Nat.add_comm]

/-- A leftover is no request, and stays in the buffer. -/
theorem run_leftover (c : Image) (flash : Mem) (a : Arrival) {text : List UInt8} (x : UInt8)
    (h : 0 < text.length) (h' : text.length < DeviceS.size) :
    Run (serverStep c) (boot c flash) [{ a with received := some (leftover text x) }]
      ⟨c.stack.store 0 (leftover text x), (boot c flash).config⟩ := by
  have hlen := length_leftover x h h'
  apply run_boot_single rfl hlen
  apply handle_invalid_of_first
  rw [Mem.store_zero_inside _ _ _ (by rw [hlen]; decide)]
  show (0x58 : UInt8) ≠ 0x72
  decide

/-- The buffer after a leftover and a shorter datagram that agrees with its text:
the text is the header, and the last byte is the leftover's. -/
theorem leftover_received (c : Image) {text bs : List UInt8} (x : UInt8)
    (htext : text.length < DeviceS.size) (hpos : 0 < bs.length) (hlen : bs.length < DeviceS.size)
    (h : AgreesWith bs text) (h0 : 0 < text.length) :
    let device := (c.stack.store 0 (leftover text x)).store 0 bs
    device.load 0 text.length = text ∧ device (DeviceS.size - 1) = x := by
  have hleft := length_leftover x h0 htext
  constructor
  · apply load_of_agreesWith h
    rw [← Nat.zero_add bs.length, Mem.load_store_drop _ _ (by omega), Nat.zero_add]
    exact leftover_front x hpos h0
  · rw [Mem.store_outside _ _ _ _ (.inr (by omega)), Mem.store_zero_inside _ _ _ (by omega)]
    have hlast : (leftover text x).length - 1 = DeviceS.size - 1 := by rw [hleft]
    simp only [← hlast]
    rw [← List.getLast_eq_getElem (List.ne_nil_of_length_pos (by rw [hleft]; decide))]
    exact List.getLast_concat

/-- Two fresh servers with different leftovers react differently to a short
datagram that agrees with a request. -/
theorem leftover_tells (c : Image) (a : Arrival) (config : Device) {text bs : List UInt8}
    (htext : text = requestDevInfo ∨ text = requestDevSet) (hpos : 0 < bs.length)
    (hlen : bs.length < DeviceS.size) (h : AgreesWith bs text) :
    (handle c a ((c.stack.store 0 (leftover text 0)).store 0 bs) config).1 ≠
      (handle c a ((c.stack.store 0 (leftover text 1)).store 0 bs) config).1 := by
  obtain ⟨h0, hsize⟩ := length_request htext
  obtain ⟨hhead, hlast⟩ := leftover_received c 0 hsize hpos hlen h h0
  obtain ⟨hhead', hlast'⟩ := leftover_received c 1 hsize hpos hlen h h0
  intro e
  rcases htext with rfl | rfl
  · -- the last byte of the reply is left over
    obtain ⟨bs₀, hsent, hbyte⟩ := handle_info c a config hhead
    obtain ⟨bs₁, hsent', hbyte'⟩ := handle_info c a config hhead'
    rw [e, hsent', Option.some.injEq] at hsent
    rw [hsent, hbyte, hlast, hlast'] at hbyte'
    exact absurd hbyte' (by decide)
  · -- the last byte of the configuration is
    have hset := handle_set c a config hhead
    have hset' := handle_set c a config hhead'
    rw [e, hset', Option.some.injEq] at hset
    have hbyte := congrArg (fun bs => bs.getD (DeviceS.netSize - 1) 0) hset
    have hin : DeviceS.netSize - 1 < DeviceS.netSize := by decide
    simp only [List.getD_eq_getElem?_getD, Mem.load, List.getElem?_map,
      List.getElem?_range hin, Option.map_some, Option.getD_some, Mem.ptr] at hbyte
    have hoff : DeviceS.net + (0 + (DeviceS.netSize - 1)) = DeviceS.size - 1 := by decide
    rw [hoff, hlast, hlast'] at hbyte
    exact absurd hbyte (by decide)

theorem length_foreignFront : foreignFront.length = DeviceS.net + macAddr := by
  decide +kernel

theorem length_foreignSet (x : UInt8) : (foreignSet x).length = DeviceS.size := by
  rw [foreignSet, List.length_append, length_foreignFront]
  rfl

/-- `set_dev_net` for a MAC that differs from the first byte on. -/
theorem setDevNet_foreign (r : IapResults) (block : Option Mem) {net : Mem} {s : Device}
    (h : net macAddr ≠ s.localNet macAddr) : setDevNet r block net s = (s, .returned (-1)) := by
  obtain ⟨d, hd, hcmp⟩ := strcmp_of_first_ne (s := net.ptr macAddr) (t := s.localNet.ptr macAddr)
    h (show 0 < addressSpace by decide)
  simp [setDevNet, hcmp, hd]

/-- A configuration request for another device stays in the buffer, and changes
nothing else. -/
theorem run_foreignSet (c : Image) (flash : Mem) (a : Arrival) {x : UInt8}
    (hx : x ≠ (boot c flash).config.localNet macAddr) :
    ∃ s, Run (serverStep c) (boot c flash) [{ a with received := some (foreignSet x) }] s ∧
      s.config = (boot c flash).config ∧
      s.device.load 0 requestDevSet.length = requestDevSet := by
  have hlen := length_foreignSet x
  have hset : requestDevSet.length = 22 := by decide +kernel
  have hhead : (c.stack.store 0 (foreignSet x)).load 0 requestDevSet.length = requestDevSet := by
    rw [Mem.load_store _ _ _ _ (by rw [hlen, hset]; decide), foreignSet, foreignFront,
      List.append_assoc, List.take_left]
  have hmac : (c.stack.store 0 (foreignSet x)).ptr DeviceS.net macAddr = x := by
    show c.stack.store 0 (foreignSet x) (DeviceS.net + macAddr) = x
    rw [Mem.store_zero_inside _ _ _ (by rw [hlen]; decide)]
    simp only [foreignSet, ← length_foreignFront]
    rw [List.getElem_append_right (Nat.le_refl _)]
    simp
  refine ⟨⟨c.stack.store 0 (foreignSet x), (boot c flash).config⟩, ?_, rfl, hhead⟩
  refine run_boot_single (r := ⟨none,
    some (((c.stack.store 0 (foreignSet x)).ptr DeviceS.net).load 0 DeviceS.netSize)⟩) rfl hlen ?_
  rw [handle_eq_answerSet hhead, setDevNet_foreign _ _ (by rw [hmac]; exact hx)]
  rfl

/-! ### The datagrams treated on their own -/

theorem succ_ne_self (b : UInt8) : b + 1 ≠ b := by
  intro e
  have hval := congrArg UInt8.toNat e
  simp only [UInt8.toNat_add] at hval
  have hlt := b.toNat_lt
  have hone : (1 : UInt8).toNat = 1 := rfl
  omega

/-- Nothing but the buffer decides the reaction to an empty datagram: a
configuration request in it is heard again. -/
theorem not_treatedAlone_empty (c : Image) (flash : Mem) {a : Arrival}
    (hrecv : a.received = some []) : ¬ TreatedAlone c flash a := by
  intro halone
  obtain ⟨s, hrun, hconfig, hhead⟩ := run_foreignSet c flash a
    (succ_ne_self ((boot c flash).config.localNet macAddr))
  have hsame := halone _ _ _ _ hrun (Run.nil _) (by rw [hconfig]) (by rw [hconfig])
  -- the server that has received nothing has a cleared header
  have hzero : handle c a (boot c flash).device (boot c flash).config =
      (⟨none, none⟩, some ⟨(boot c flash).device, (boot c flash).config⟩) := by
    apply handle_invalid_of_first
    show (0 : UInt8) ≠ 0x72
    decide
  have hset := handle_set c a s.config hhead
  simp only [turn, hrecv, List.take_nil, Mem.store_nil] at hsame
  rw [hsame, hzero] at hset
  contradiction

/-- A datagram that ends within the structure and agrees with a request leaves
the rest of it to the past. -/
theorem not_treatedAlone_short (c : Image) (flash : Mem) {a : Arrival} {text bs : List UInt8}
    (hrecv : a.received = some bs) (htext : text = requestDevInfo ∨ text = requestDevSet)
    (hpos : 0 < bs.length) (hlen : bs.length < DeviceS.size) (hagree : AgreesWith bs text) :
    ¬ TreatedAlone c flash a := by
  intro halone
  obtain ⟨h0, hsize⟩ := length_request htext
  have hsame := halone _ _ _ _ (run_leftover c flash a 0 h0 hsize)
    (run_leftover c flash a 1 h0 hsize) rfl rfl
  simp only [turn, hrecv, List.take_of_length_le (Nat.le_of_lt hlen)] at hsame
  exact leftover_tells c a _ htext hpos hlen hagree hsame

theorem not_treatedAlone {c : Image} {flash : Mem} {a : Arrival} {bs : List UInt8}
    (hrecv : a.received = some bs) (h : ¬ SelfContained bs) : ¬ TreatedAlone c flash a := by
  have hlen : bs.length < DeviceS.size := by
    by_contra hlong
    exact h (.inl (by omega))
  rcases bs with _ | ⟨b, bs⟩
  · exact not_treatedAlone_empty c flash hrecv
  · have hpos : 0 < (b :: bs).length := Nat.zero_lt_succ _
    by_cases hinfo : AgreesWith (b :: bs) requestDevInfo
    · exact not_treatedAlone_short c flash hrecv (.inl rfl) hpos hlen hinfo
    · have hset : AgreesWith (b :: bs) requestDevSet := by
        by_contra hset
        exact h (.inr ⟨hinfo, hset⟩)
      exact not_treatedAlone_short c flash hrecv (.inr rfl) hpos hlen hset

/-- The server treats a datagram on its own, whatever it has received before,
exactly if the datagram is self-contained. -/
theorem turn_determined_iff (c : Image) (flash : Mem) (iap : IapResults) (block : Option Mem)
    (bs : List UInt8) : TreatedAlone c flash ⟨some bs, iap, block⟩ ↔ SelfContained bs := by
  constructor
  · intro h
    by_contra hno
    exact not_treatedAlone rfl hno h
  · exact treatedAlone_of_selfContained rfl

/-! ### An information request that is not -/

/-- An image with zeros around the compiled `local_net`. -/
def blankImage : Image where
  localNet := literal defaultLocalNet
  stack := fun _ => 0
  pastSerial := 0

/-- Two servers with the same configuration, each after one datagram that is no
request, reply differently to the twenty bytes of `REQUEST_DEV_INFO`. -/
theorem turn_remembers :
    let arrival := fun bs : List UInt8 => (⟨some bs, copyBusy, none⟩ : Arrival)
    ∃ s s', Run (serverStep blankImage) (boot blankImage fun _ => 0xFF)
        [arrival (leftover requestDevInfo 0)] s ∧
      Run (serverStep blankImage) (boot blankImage fun _ => 0xFF)
        [arrival (leftover requestDevInfo 1)] s' ∧
      s.config = s'.config ∧
      (turn blankImage s (arrival requestDevInfo)).1 ≠
        (turn blankImage s' (arrival requestDevInfo)).1 := by
  obtain ⟨hpos, hlen⟩ := length_request (.inl rfl)
  intro arrival
  refine ⟨_, _, run_leftover blankImage _ (arrival []) 0 hpos hlen,
    run_leftover blankImage _ (arrival []) 1 hpos hlen, rfl, ?_⟩
  show (handle _ _ (Mem.store _ 0 (requestDevInfo.take DeviceS.size)) _).1 ≠
    (handle _ _ (Mem.store _ 0 (requestDevInfo.take DeviceS.size)) _).1
  rw [List.take_of_length_le (Nat.le_of_lt hlen)]
  exact leftover_tells blankImage _ _ (.inl rfl) hpos hlen (by decide +kernel)

end Lpc1768
