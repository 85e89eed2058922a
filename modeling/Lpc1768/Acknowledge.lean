/-
Lpc1768/Acknowledge.lean

What the client hears of a configuration request.  `vDeviceInfo` answers with
`RESPOND_DEV_SET` when `set_dev_net` returns 0, but `set_dev_net` returns what
`vDeviceInfoSave` returns, and that resets the chip instead of returning 0.

`turn_not_acknowledges` is about every round: no reply ever carries that header.
`set_reset_unanswered` is about a request that is saved: the chip is reset, and
nothing has been sent.
-/
import Lpc1768.DeviceInfo
import Lpc1768.ProgramImage

namespace Lpc1768

/-! ### The acknowledgement -/

/-- The reaction is a reply with the header `RESPOND_DEV_SET`. -/
def Reaction.Acknowledges (r : Reaction) : Prop :=
  ∃ bs, r.sent = some bs ∧ bs.take respondDevSet.length = respondDevSet

/-- The datagram of `a` leaves a configuration request for this device in the
buffer, and every command of the save succeeds. -/
structure Configures (s : Server) (a : Arrival) (bs : List UInt8) : Prop where
  received : a.received = some bs
  header : strcmp addressSpace (s.device.store 0 (bs.take DeviceS.size))
    (literal requestDevSet) = some 0
  mac : strcmp addressSpace
    (((s.device.store 0 (bs.take DeviceS.size)).ptr DeviceS.net).ptr macAddr)
    (s.config.localNet.ptr macAddr) = some 0
  save : a.iap.AllSucceed
  block : a.block.isSome

/-! ### `set_dev_net` does not return 0 -/

theorem setDevNet_ne_zero (r : IapResults) (block : Option Mem) (net : Mem) (s : Device) :
    (setDevNet r block net s).2 ≠ .returned 0 := by
  rcases hcmp : strcmp addressSpace (net.ptr macAddr) (s.localNet.ptr macAddr) with - | d
  · simp [setDevNet, hcmp]
  · by_cases hd : d = 0
    · rw [setDevNet_eq (by rw [hcmp, hd])]
      rcases vDeviceInfoSave_outcome r block
        ⟨s.localNet.store 0 (net.load 0 localNetSize), s.flash⟩ with ho | ho | ho <;>
        simp [ho]
    · simp [setDevNet, hcmp, hd]

/-- A save in which everything succeeds ends with the reset. -/
theorem vDeviceInfoSave_reset {r : IapResults} (h : r.AllSucceed) (b : Mem) (s : Device) :
    (vDeviceInfoSave r (some b) s).2 = .reset := by
  simp [vDeviceInfoSave, readDeviceSerialNum, writeRecord, eraseSector, copyRam2Flash,
    h.readSerialNumber, h.erasePrepare, h.erase, h.copyPrepare, h.copyRam2Flash, h.compare]

/-! ### The replies -/

/-- Nothing is sent in answer to a configuration request. -/
theorem answerSet_sent {c : Image} {device : Mem} {result : Device × Outcome}
    (h : result.2 ≠ .returned 0) : (answerSet c device result).1.sent = none := by
  rcases hout : result.2 with status | - | -
  · have hstatus : status ≠ 0 := fun e => h (by rw [hout, e])
    simp [answerSet, hout, hstatus]
  · simp [answerSet, hout]
  · simp [answerSet, hout]

theorem answerSet_reset {c : Image} {device : Mem} {result : Device × Outcome}
    (h : result.2 = .reset) : (answerSet c device result).2 = some (boot c result.1.flash) := by
  simp [answerSet, h]

/-- The header of a reply that `get_dev_info` has filled in: the stores that
follow it go behind the header. -/
theorem getDevInfo_header {c : Image} {device device' localNet : Mem} {type : List UInt8} {e : ℤ}
    (h : getDevInfo c device localNet type = some (device', e)) (ht : type.length ≤ DeviceS.type)
    (hlen : strlen addressSpace device = strlen addressSpace (literal type)) :
    device'.load 0 type.length = type := by
  have hbehind : ∀ (m : Mem) (a : ℕ) (bs : List UInt8), DeviceS.type ≤ a →
      (m.store a bs).load 0 type.length = m.load 0 type.length := by
    intro m a bs ha
    apply Mem.load_store_disjoint
    exact .inl (by rw [Nat.zero_add]; exact Nat.le_trans ht ha)
  unfold getDevInfo at h
  rw [hlen] at h
  rcases hk : strlen addressSpace (literal type) with - | k
  · simp [hk] at h
  · simp only [hk, Nat.lt_irrefl, if_false, Option.some.injEq, Prod.mk.injEq] at h
    rw [← h.1, hbehind _ _ _ (by decide), hbehind _ _ _ (by decide), hbehind _ _ _ (by decide),
      hbehind _ _ _ (by decide), hbehind _ _ _ (by decide), hbehind _ _ _ (by decide),
      hbehind _ _ _ (by decide)]
    exact Mem.load_store_self _ 0 _

/-- The two replies differ within the shorter header. -/
theorem respond_headers_ne : respondDevSet.take respondDevInfo.length ≠ respondDevInfo := by
  decide +kernel

theorem handle_not_acknowledges (c : Image) (a : Arrival) (device : Mem) (config : Device) :
    ¬ (handle c a device config).1.Acknowledges := by
  rintro ⟨bs, hsent, hhead⟩
  by_cases hinfo : device.load 0 requestDevInfo.length = requestDevInfo
  · -- the reply to an information request has its own header
    have hlen : strlen addressSpace device = strlen addressSpace (literal respondDevInfo) := by
      rw [strlen_chars (by decide +kernel) (by decide +kernel) device hinfo]
      decide +kernel
    unfold handle at hsent
    rw [if_pos ((header_requestDevInfo device).mpr hinfo)] at hsent
    split at hsent
    · contradiction
    · next filled _ hfill =>
      have hown := getDevInfo_header hfill (by decide +kernel) hlen
      have hle : respondDevInfo.length ≤ respondDevSet.length := by decide +kernel
      have hsize : respondDevInfo.length ≤ DeviceS.size := by decide +kernel
      apply respond_headers_ne
      rw [← hhead, List.take_take, Nat.min_eq_left hle, ← Option.some.inj hsent,
        Mem.take_load _ _ hsize, hown]
  · by_cases hset : device.load 0 requestDevSet.length = requestDevSet
    · rw [handle_eq_answerSet hset, answerSet_sent (setDevNet_ne_zero _ _ _ _)] at hsent
      contradiction
    · rw [handle_invalid hinfo hset] at hsent
      contradiction

/-- **No round sends an acknowledgement.** -/
theorem turn_not_acknowledges (c : Image) (s : Server) (a : Arrival) :
    ¬ (turn c s a).1.Acknowledges := by
  unfold turn
  rcases a.received with - | bs
  · rintro ⟨bs, hsent, -⟩
    contradiction
  · exact handle_not_acknowledges _ _ _ _

/-! ### A request that is saved -/

theorem Configures.turn_eq {c : Image} {s : Server} {a : Arrival} {bs : List UInt8}
    (h : Configures s a bs) :
    let device := s.device.store 0 (bs.take DeviceS.size)
    turn c s a = answerSet c device (setDevNet a.iap a.block (device.ptr DeviceS.net) s.config) := by
  intro device
  unfold turn
  simp only [h.received]
  exact handle_eq_answerSet ((header_requestDevSet _).mp h.header)

/-- **A configuration request for this device that is saved is not acknowledged:
whatever the server has received before, the chip is reset with nothing sent.** -/
theorem set_reset_unanswered {c : Image} {s : Server} {a : Arrival} {bs : List UInt8}
    (h : Configures s a bs) :
    ¬ (turn c s a).1.Acknowledges ∧ (turn c s a).1.sent = none ∧
      ∃ flash, (turn c s a).2 = some (boot c flash) := by
  refine ⟨turn_not_acknowledges c s a, ?_⟩
  obtain ⟨b, hb⟩ := Option.isSome_iff_exists.mp h.block
  rw [h.turn_eq]
  constructor
  · exact answerSet_sent (setDevNet_ne_zero _ _ _ _)
  · refine ⟨_, answerSet_reset ?_⟩
    rw [hb, setDevNet_eq h.mac]
    exact vDeviceInfoSave_reset h.save b _

/-- A configuration request with the compiled record. -/
def requestDefault : List UInt8 :=
  requestDevSet ++ List.replicate (DeviceS.net - requestDevSet.length) 0 ++ defaultLocalNet

theorem configures_default : Configures (boot blankImage fun _ => 0xFF)
    ⟨some requestDefault, allSucceed, some fun _ => 0⟩ requestDefault where
  received := rfl
  header := by decide +kernel
  mac := by decide +kernel
  save := allSucceed_allSucceed
  block := rfl

/-- The first datagram after a boot, with the device's own record. -/
theorem requestDefault_reset :
    ¬ (turn blankImage (boot blankImage fun _ => 0xFF)
        ⟨some requestDefault, allSucceed, some fun _ => 0⟩).1.Acknowledges ∧
      (turn blankImage (boot blankImage fun _ => 0xFF)
        ⟨some requestDefault, allSucceed, some fun _ => 0⟩).1.sent = none ∧
      ∃ flash, (turn blankImage (boot blankImage fun _ => 0xFF)
        ⟨some requestDefault, allSucceed, some fun _ => 0⟩).2 = some (boot blankImage flash) :=
  set_reset_unanswered configures_default

/-- It is a request that should be acknowledged, and is not. -/
theorem requestDefault_unanswered :
    Configures (boot blankImage fun _ => 0xFF)
        ⟨some requestDefault, allSucceed, some fun _ => 0⟩ requestDefault ∧
      ¬ (turn blankImage (boot blankImage fun _ => 0xFF)
        ⟨some requestDefault, allSucceed, some fun _ => 0⟩).1.Acknowledges :=
  ⟨configures_default, turn_not_acknowledges _ _ _⟩

end Lpc1768
