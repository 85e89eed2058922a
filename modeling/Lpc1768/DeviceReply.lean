/-
Lpc1768/DeviceReply.lean

The reply to an information request.  `get_dev_info` writes it over the request,
each field with a length of its own: `"HDIPC"` and the other literals with their
terminators, but `"1.0.0"` with four bytes, which is not even all of its text.
Of the fields `software` and `hardware` the last four bytes are therefore the
requester's, and so is what a reader of the string gets to see there.

`Filled` has the fields of a reply; `device_reply_iff` says when two requests get
replies that read the same and are terminated field by field.
-/
import Lpc1768.BootAddress
import Lpc1768.DeviceInfo

namespace Lpc1768

/-! ### The text fields -/

/-- `net.dns1` and `net.dns2`. -/
def dns1 : ℕ := 48
def dns2 : ℕ := 64

/-- `VERSION_LEN`. -/
def versionLen : ℕ := 0x08

/-- The offsets of the text fields of `struct device_s`. -/
def textFields : List ℕ :=
  [0, DeviceS.vendor, DeviceS.name, DeviceS.serialNumber, DeviceS.software, DeviceS.hardware,
    DeviceS.net + ipAddr, DeviceS.net + gateway, DeviceS.net + netmask, DeviceS.net + dns1,
    DeviceS.net + dns2, DeviceS.net + macAddr, DeviceS.port]

/-- The text fields that are filled with literals, and their sizes. -/
def ownFields : List (ℕ × ℕ) :=
  [(DeviceS.vendor, 0x10), (DeviceS.name, 0x10), (DeviceS.serialNumber, 0x21),
    (DeviceS.software, versionLen), (DeviceS.hardware, versionLen), (DeviceS.port, 0x06)]

/-- The C string in a datagram from byte `a` on. -/
def textAt (bs : List UInt8) (a : ℕ) : List UInt8 := (bs.drop a).takeWhile (· ≠ 0)

/-- The field of `n` bytes from byte `a` on has a terminator. -/
def TerminatedIn (bs : List UInt8) (a n : ℕ) : Prop := 0 ∈ (bs.drop a).take n

instance (bs : List UInt8) (a n : ℕ) : Decidable (TerminatedIn bs a n) := by
  unfold TerminatedIn; infer_instance

/-! ### The property and the condition -/

/-- The two replies read the same in every text field, and the literals are
terminated inside their fields. -/
structure SaysDevice (r r' : List UInt8) : Prop where
  text : ∀ a ∈ textFields, textAt r a = textAt r' a
  own : ∀ f ∈ ownFields, TerminatedIn r f.1 f.2 ∧ TerminatedIn r' f.1 f.2

/-- A full-size datagram with the header of an information request. -/
structure InfoRequest (bs : List UInt8) : Prop where
  size : DeviceS.size ≤ bs.length
  header : bs.take requestDevInfo.length = requestDevInfo

/-- The bytes of a version field that `get_dev_info` leaves standing. -/
def versionRest (bs : List UInt8) (a : ℕ) : List UInt8 := (bs.drop (a + 4)).take 4

/-- The bytes left standing in the version fields of the two requests have
terminators, and are the same up to them. -/
def SameVersions (bs bs' : List UInt8) : Prop :=
  ∀ a ∈ [DeviceS.software, DeviceS.hardware], 0 ∈ versionRest bs a ∧ 0 ∈ versionRest bs' a ∧
    (versionRest bs a).takeWhile (· ≠ 0) = (versionRest bs' a).takeWhile (· ≠ 0)

instance (bs bs' : List UInt8) : Decidable (SameVersions bs bs') := by
  unfold SameVersions; infer_instance

/-! ### Texts in memory -/

theorem takeWhile_append_of_mem {xs : List UInt8} (ys : List UInt8) (h : 0 ∈ xs) :
    (xs ++ ys).takeWhile (· ≠ 0) = xs.takeWhile (· ≠ 0) := by
  induction xs with
  | nil => cases h
  | cons x xs ih =>
      by_cases hx : x = 0
      · rw [List.cons_append, List.takeWhile_cons_of_neg (by simpa using hx),
          List.takeWhile_cons_of_neg (by simpa using hx)]
      · rw [List.cons_append, List.takeWhile_cons_of_pos (by simpa using hx),
          List.takeWhile_cons_of_pos (by simpa using hx),
          ih ((List.mem_cons.mp h).resolve_left (Ne.symm hx))]

/-- The string from byte `a` on ends at the first terminator. -/
theorem textAt_load {m : Mem} {a k : ℕ} (hk : a + k ≤ DeviceS.size) (h : 0 ∈ m.load a k) :
    textAt (m.load 0 DeviceS.size) a = (m.load a k).takeWhile (· ≠ 0) := by
  obtain ⟨n, hn⟩ := Nat.exists_eq_add_of_le hk
  rw [textAt, hn, Nat.add_assoc, Mem.drop_load, Nat.zero_add, Mem.load_add,
    takeWhile_append_of_mem _ h]

theorem terminatedIn_load {m : Mem} {a n : ℕ} (hn : a + n ≤ DeviceS.size) :
    TerminatedIn (m.load 0 DeviceS.size) a n ↔ 0 ∈ m.load a n := by
  obtain ⟨k, hk⟩ := Nat.exists_eq_add_of_le hn
  rw [TerminatedIn, hk, Nat.add_assoc, Mem.drop_load, Nat.zero_add,
    Mem.take_load _ _ (Nat.le_add_right n k)]

theorem mem_load_of_le {m : Mem} {a k n : ℕ} {b : UInt8} (hk : k ≤ n) (h : b ∈ m.load a k) :
    b ∈ m.load a n := by
  rw [← m.take_load a hk] at h
  exact List.mem_of_mem_take h

/-! ### The reply -/

/-- The bytes of `"1.0.0"` that are copied. -/
def versionText : List UInt8 := (chars "1.0.0").take 4

/-- The text fields of a reply to the request `bs`. -/
structure Filled (m : Mem) (bs : List UInt8) (localNet : Mem) : Prop where
  header : m.load 0 respondDevInfo.length = respondDevInfo
  vendor : m.load DeviceS.vendor 6 = chars "HDIPC"
  name : m.load DeviceS.name 8 = chars "LPC1768"
  serialNumber : m.load DeviceS.serialNumber 8 = chars "1000001"
  software : m.load DeviceS.software versionLen = versionText ++ versionRest bs DeviceS.software
  hardware : m.load DeviceS.hardware versionLen = versionText ++ versionRest bs DeviceS.hardware
  net : m.load DeviceS.net localNetSize = localNet.load 0 localNetSize
  port : m.load DeviceS.port 3 = chars "80"

/-- The stores of `get_dev_info` do not overlap, and leave the ends of the version
fields. -/
theorem load_stores (m : Mem) (type vendor name serial software hardware net port : List UInt8)
    (htype : type.length = 20) (hvendor : vendor.length = 6) (hname : name.length = 8)
    (hserial : serial.length = 9) (hsoftware : software.length = 4)
    (hhardware : hardware.length = 4) (hnet : net.length = 98) (hport : port.length = 3) :
    let m' := ((((((((m.store 32 [hdIpc]).store 0 type).store 33 vendor).store 49 name).store 65
      serial).store 98 software).store 106 hardware).store 114 net).store 212 port
    m'.load 0 20 = type ∧ m'.load 33 6 = vendor ∧ m'.load 49 8 = name ∧
      m'.load 65 8 = serial.take 8 ∧ m'.load 98 8 = software ++ m.load 102 4 ∧
      m'.load 106 8 = hardware ++ m.load 110 4 ∧ m'.load 114 98 = net ∧ m'.load 212 3 = port := by
  intro m'
  have htype' : [hdIpc].length = 1 := rfl
  have hfull : ∀ {a n : ℕ} {xs : List UInt8} (m : Mem), xs.length = n →
      (m.store a xs).load a n = xs := by
    intro a n xs m h
    rw [← h, Mem.load_store_self]
  have hversion : ∀ {a : ℕ} {xs : List UInt8} (m : Mem), xs.length = 4 →
      (m.store a xs).load a 8 = xs ++ m.load (a + 4) 4 := by
    intro a xs m h
    rw [show 8 = 4 + 4 from rfl, Mem.load_add, hfull m h,
      Mem.load_store_disjoint _ _ _ _ _ (by omega)]
  refine ⟨?_, ?_, ?_, ?_, ?_, ?_, ?_, ?_⟩
  · simp (disch := omega) only [m', Mem.load_store_disjoint, hfull]
  · simp (disch := omega) only [m', Mem.load_store_disjoint, hfull]
  · simp (disch := omega) only [m', Mem.load_store_disjoint, hfull]
  · simp (disch := omega) only [m', Mem.load_store_disjoint, Mem.load_store]
  · simp (disch := omega) only [m', Mem.load_store_disjoint, hversion]
  · simp (disch := omega) only [m', Mem.load_store_disjoint, hversion]
  · simp (disch := omega) only [m', Mem.load_store_disjoint, hfull]
  · simp (disch := omega) only [m', hfull]

/-- The buffer after a full-size datagram. -/
theorem InfoRequest.load {bs : List UInt8} (h : InfoRequest bs) (m : Mem) {a n : ℕ}
    (hn : a + n ≤ DeviceS.size) :
    (m.store 0 (bs.take DeviceS.size)).load a n = (bs.drop a).take n := by
  have hlen : (bs.take DeviceS.size).length = DeviceS.size := by
    rw [List.length_take, Nat.min_eq_left h.size]
  have hload : (m.store 0 (bs.take DeviceS.size)).load (0 + a) n =
      ((bs.take DeviceS.size).drop a).take n :=
    m.load_store_drop 0 (by rw [hlen]; exact hn)
  rw [Nat.zero_add, List.drop_take, List.take_take, Nat.min_eq_left (by omega)] at hload
  exact hload

theorem InfoRequest.header_load {bs : List UInt8} (h : InfoRequest bs) (m : Mem) :
    (m.store 0 (bs.take DeviceS.size)).load 0 requestDevInfo.length = requestDevInfo := by
  have hsize : 0 + requestDevInfo.length ≤ DeviceS.size := by decide +kernel
  rw [h.load m hsize]
  exact h.header

/-- **`get_dev_info` fills in the reply**, but for the ends of the version fields. -/
theorem InfoRequest.filled {bs : List UInt8} (h : InfoRequest bs) (c : Image)
    (m localNet : Mem) :
    ∃ m', getDevInfo c (m.store 0 (bs.take DeviceS.size)) localNet respondDevInfo =
      some (m', 0) ∧ Filled m' bs localNet := by
  have hreq : strlen addressSpace (m.store 0 (bs.take DeviceS.size)) = some 19 :=
    (strlen_chars (by decide +kernel) (by decide +kernel) _ (h.header_load m)).trans
      (by decide +kernel)
  have hresp : strlen addressSpace (literal respondDevInfo) = some 19 := by decide +kernel
  have hstores := load_stores (m.store 0 (bs.take DeviceS.size)) respondDevInfo (chars "HDIPC")
    (chars "LPC1768") (chars "1000001" ++ [c.pastSerial]) versionText versionText
    (localNet.load 0 localNetSize) (chars "80")
    (by decide +kernel) (by decide +kernel) (by decide +kernel)
    (by rw [List.length_append, List.length_singleton]; decide +kernel) (by decide +kernel)
    (by decide +kernel) (Mem.length_load _ _ _) (by decide +kernel)
  obtain ⟨hheader, hvendor, hname, hserial, hsoftware, hhardware, hnet, hport⟩ := hstores
  have hlen : respondDevInfo.length = 20 := by decide +kernel
  have hlen8 : (chars "1000001").length = 8 := by decide +kernel
  refine ⟨_, ?_, ⟨?_, hvendor, hname, ?_, ?_, ?_, hnet, hport⟩⟩
  · simp only [getDevInfo, hreq, hresp, Nat.lt_irrefl, if_false]
    rfl
  · rw [hlen]
    exact hheader
  · exact hserial.trans (List.take_left' hlen8)
  · exact hsoftware.trans (congrArg (versionText ++ ·) (h.load m (by decide)))
  · exact hhardware.trans (congrArg (versionText ++ ·) (h.load m (by decide)))

/-! ### Two replies -/

section Replies

variable {m m' localNet : Mem} {bs bs' : List UInt8}

theorem version_cases {a : ℕ} (ha : a ∈ [DeviceS.software, DeviceS.hardware]) :
    a = DeviceS.software ∨ a = DeviceS.hardware :=
  (List.mem_cons.mp ha).imp id List.mem_singleton.mp

theorem Filled.version (h : Filled m bs localNet) {a : ℕ}
    (ha : a ∈ [DeviceS.software, DeviceS.hardware]) :
    a + versionLen ≤ DeviceS.size ∧ m.load a versionLen = versionText ++ versionRest bs a := by
  rcases version_cases ha with rfl | rfl
  · exact ⟨by decide, h.software⟩
  · exact ⟨by decide, h.hardware⟩

theorem zero_notMem_versionText : 0 ∉ versionText := by decide +kernel

/-- A version field is terminated iff the bytes left standing in it are. -/
theorem Filled.version_terminated (h : Filled m bs localNet) {a : ℕ}
    (ha : a ∈ [DeviceS.software, DeviceS.hardware]) :
    TerminatedIn (m.load 0 DeviceS.size) a versionLen ↔ 0 ∈ versionRest bs a := by
  obtain ⟨hsize, hload⟩ := h.version ha
  rw [terminatedIn_load hsize, hload, List.mem_append, or_iff_right zero_notMem_versionText]

/-- What is read there then. -/
theorem Filled.version_text (h : Filled m bs localNet) {a : ℕ}
    (ha : a ∈ [DeviceS.software, DeviceS.hardware]) (h0 : 0 ∈ versionRest bs a) :
    textAt (m.load 0 DeviceS.size) a =
      versionText ++ (versionRest bs a).takeWhile (· ≠ 0) := by
  obtain ⟨hsize, hload⟩ := h.version ha
  have hpos : ∀ b ∈ versionText, decide (b ≠ 0) = true := fun b hb =>
    decide_eq_true (ne_of_mem_of_not_mem hb zero_notMem_versionText)
  rw [textAt_load hsize (by rw [hload]; exact List.mem_append_right _ h0), hload,
    List.takeWhile_append_of_pos hpos]

/-- A text that both replies have, with its terminator. -/
theorem textAt_congr {a k : ℕ} {text : List UInt8} (hk : a + k ≤ DeviceS.size) (h0 : 0 ∈ text)
    (h : m.load a k = text) (h' : m'.load a k = text) :
    textAt (m.load 0 DeviceS.size) a = textAt (m'.load 0 DeviceS.size) a := by
  rw [textAt_load hk (by rw [h]; exact h0), textAt_load hk (by rw [h']; exact h0), h, h']

/-- The literal that both replies have in a field ends inside it. -/
theorem terminatedIn_literal {a k n : ℕ} {text : List UInt8} (hn : a + n ≤ DeviceS.size)
    (hk : k ≤ n) (h0 : 0 ∈ text) (h : m.load a k = text) (h' : m'.load a k = text) :
    TerminatedIn (m.load 0 DeviceS.size) a n ∧ TerminatedIn (m'.load 0 DeviceS.size) a n := by
  rw [terminatedIn_load hn, terminatedIn_load hn]
  exact ⟨mem_load_of_le hk (by rw [h]; exact h0), mem_load_of_le hk (by rw [h']; exact h0)⟩

/-- The bytes from `net` up to the end of the port are those of `local_net` and a
literal. -/
theorem Filled.load_net (h : Filled m bs localNet) {i : ℕ} (hi : i ≤ localNetSize) :
    m.load (DeviceS.net + i) (localNetSize - i + 3) =
      localNet.load i (localNetSize - i) ++ chars "80" := by
  have hport : DeviceS.net + i + (localNetSize - i) = DeviceS.port := by
    have hnet : DeviceS.net + localNetSize = DeviceS.port := rfl
    omega
  have hsplit : localNetSize = i + (localNetSize - i) := by omega
  have hnet := congrArg (List.drop i) h.net
  rw [hsplit, Mem.drop_load, Mem.drop_load, Nat.zero_add] at hnet
  rw [Mem.load_add, hport, h.port, hnet]

/-- So two replies with the same `local_net` read the same from there on. -/
theorem Filled.textAt_net (h : Filled m bs localNet) (h' : Filled m' bs' localNet) {i : ℕ}
    (hi : i ≤ localNetSize) :
    textAt (m.load 0 DeviceS.size) (DeviceS.net + i) =
      textAt (m'.load 0 DeviceS.size) (DeviceS.net + i) := by
  refine textAt_congr ?_ ?_ (h.load_net hi) (h'.load_net hi)
  · simp only [DeviceS.net, DeviceS.size, localNetSize] at hi ⊢
    omega
  · exact List.mem_append_right _ (by decide +kernel)

/-- **Two replies** say what the device is iff the bytes left standing in the
version fields do not show. -/
theorem Filled.saysDevice_iff (h : Filled m bs localNet) (h' : Filled m' bs' localNet) :
    SaysDevice (m.load 0 DeviceS.size) (m'.load 0 DeviceS.size) ↔ SameVersions bs bs' := by
  constructor
  · rintro ⟨htext, hown⟩ a ha
    have hfield : (a, versionLen) ∈ ownFields ∧ a ∈ textFields := by
      rcases version_cases ha with rfl | rfl <;> decide
    obtain ⟨hterm, hterm'⟩ := hown _ hfield.1
    have h0 := (h.version_terminated ha).mp hterm
    have h0' := (h'.version_terminated ha).mp hterm'
    have he := htext a hfield.2
    rw [h.version_text ha h0, h'.version_text ha h0'] at he
    exact ⟨h0, h0', List.append_cancel_left he⟩
  · intro hsame
    have hversion : ∀ a ∈ [DeviceS.software, DeviceS.hardware],
        textAt (m.load 0 DeviceS.size) a = textAt (m'.load 0 DeviceS.size) a := by
      intro a ha
      obtain ⟨h0, h0', he⟩ := hsame a ha
      rw [h.version_text ha h0, h'.version_text ha h0', he]
    have hterm : ∀ a ∈ [DeviceS.software, DeviceS.hardware],
        TerminatedIn (m.load 0 DeviceS.size) a versionLen ∧
          TerminatedIn (m'.load 0 DeviceS.size) a versionLen := by
      intro a ha
      obtain ⟨h0, h0', -⟩ := hsame a ha
      exact ⟨(h.version_terminated ha).mpr h0, (h'.version_terminated ha).mpr h0'⟩
    constructor
    · simp only [textFields, List.forall_mem_cons]
      refine ⟨?_, ?_, ?_, ?_, hversion _ (by decide), hversion _ (by decide),
        h.textAt_net h' (by decide), h.textAt_net h' (by decide), h.textAt_net h' (by decide),
        h.textAt_net h' (by decide), h.textAt_net h' (by decide), h.textAt_net h' (by decide),
        h.textAt_net h' (Nat.le_refl localNetSize), fun _ hnil => nomatch hnil⟩
      · exact textAt_congr (by decide +kernel) (by decide +kernel) h.header h'.header
      · exact textAt_congr (by decide) (by decide +kernel) h.vendor h'.vendor
      · exact textAt_congr (by decide) (by decide +kernel) h.name h'.name
      · exact textAt_congr (by decide) (by decide +kernel) h.serialNumber h'.serialNumber
    · simp only [ownFields, List.forall_mem_cons]
      refine ⟨?_, ?_, ?_, hterm _ (by decide), hterm _ (by decide), ?_, fun _ hnil => nomatch hnil⟩
      · exact terminatedIn_literal (by decide) (by decide) (by decide +kernel) h.vendor h'.vendor
      · exact terminatedIn_literal (by decide) (by decide) (by decide +kernel) h.name h'.name
      · exact terminatedIn_literal (by decide) (by decide) (by decide +kernel) h.serialNumber
          h'.serialNumber
      · exact terminatedIn_literal (by decide) (by decide) (by decide +kernel) h.port h'.port

end Replies

/-! ### The server -/

/-- The reply to an information request. -/
theorem InfoRequest.turn {bs : List UInt8} (h : InfoRequest bs) (c : Image) (s : Server)
    {a : Arrival} (ha : a.received = some bs) :
    ∃ m, (turn c s a).1.sent = some (m.load 0 DeviceS.size) ∧
      Filled m bs s.config.localNet := by
  obtain ⟨m, hinfo, hfilled⟩ := h.filled c s.device s.config.localNet
  refine ⟨m, ?_, hfilled⟩
  have hhead := (header_requestDevInfo _).mpr (h.header_load s.device)
  simp only [Lpc1768.turn, ha, handle, if_pos hhead, hinfo]

/-- **The replies say what the device is** exactly if what the two requests have
in the ends of the version fields is terminated and the same up to there. -/
theorem device_reply_iff (c : Image) {s s' : Server} {a a' : Arrival} {bs bs' : List UInt8}
    (ha : a.received = some bs) (ha' : a'.received = some bs') (h : InfoRequest bs)
    (h' : InfoRequest bs') (hnet : s.config.record = s'.config.record) :
    ∃ r r', (turn c s a).1.sent = some r ∧ (turn c s' a').1.sent = some r' ∧
      (SaysDevice r r' ↔ SameVersions bs bs') := by
  obtain ⟨m, hsent, hfilled⟩ := h.turn c s ha
  obtain ⟨m', hsent', hfilled'⟩ := h'.turn c s' ha'
  refine ⟨_, _, hsent, hsent', Filled.saysDevice_iff ?_ hfilled'⟩
  exact ⟨hfilled.header, hfilled.vendor, hfilled.name, hfilled.serialNumber, hfilled.software,
    hfilled.hardware, hfilled.net.trans hnet, hfilled.port⟩

/-- An information request that goes on with `b`. -/
def infoRequest (b : UInt8) : List UInt8 :=
  requestDevInfo ++ List.replicate (DeviceS.size - requestDevInfo.length) b

theorem infoRequest_request (b : UInt8) : InfoRequest (infoRequest b) where
  size := by
    have hle : requestDevInfo.length ≤ DeviceS.size := by decide +kernel
    rw [infoRequest, List.length_append, List.length_replicate]
    omega
  header := List.take_left

/-- A freshly booted device with a blank record. -/
def blankServer : Server := boot blankImage fun _ => 0xFF

/-- Two requests that differ behind the version fields only. -/
theorem device_reply_zeros : ∃ r r',
    (turn blankImage blankServer ⟨some (infoRequest 0), copyBusy, none⟩).1.sent = some r ∧
      (turn blankImage blankServer
        ⟨some ((infoRequest 0).set 217 1), copyBusy, none⟩).1.sent = some r' ∧
      SaysDevice r r' := by
  have hreq : InfoRequest ((infoRequest 0).set 217 1) := ⟨by decide +kernel, by decide +kernel⟩
  obtain ⟨r, r', hr, hr', hiff⟩ := device_reply_iff blankImage
    (show Arrival.received ⟨some (infoRequest 0), copyBusy, none⟩ = _ from rfl)
    (show Arrival.received ⟨some ((infoRequest 0).set 217 1), copyBusy, none⟩ = _ from rfl)
    (infoRequest_request 0) hreq
    (show blankServer.config.record = blankServer.config.record from rfl)
  exact ⟨r, r', hr, hr', hiff.mpr (by decide +kernel)⟩

/-- A request filled up with the letter `A`: the reply has it in its version
fields, which are not terminated. -/
theorem device_reply_echoes : ∃ r r',
    (turn blankImage blankServer ⟨some (infoRequest 0), copyBusy, none⟩).1.sent = some r ∧
      (turn blankImage blankServer ⟨some (infoRequest 0x41), copyBusy, none⟩).1.sent = some r' ∧
      ¬ SaysDevice r r' := by
  obtain ⟨m, hsent, hfilled⟩ := (infoRequest_request 0).turn blankImage blankServer
    (a := ⟨some (infoRequest 0), copyBusy, none⟩) rfl
  obtain ⟨m', hsent', hfilled'⟩ := (infoRequest_request 0x41).turn blankImage blankServer
    (a := ⟨some (infoRequest 0x41), copyBusy, none⟩) rfl
  refine ⟨_, _, hsent, hsent', fun hsays => ?_⟩
  exact absurd ((hfilled.saysDevice_iff hfilled').mp hsays) (by decide +kernel)

end Lpc1768
