/-
Lpc1768/UdpSocket.lean

`recvfrom` and `sendto` of lwIP on an unconnected IPv4 UDP socket.  Both take an
address as the bytes of a `struct sockaddr_in` and its length.

`recvfrom` writes what it has and no more: the bytes of the datagram, so far as
they fit, and as many bytes of the address as the caller's length says, which it
reduces to the size of the structure but never increases.  `sendto` accepts only
the full length.
-/
import Lpc1768.Machine

namespace Lpc1768

/-! ### Addresses and datagrams -/

/-- An IPv4 address, as it is in memory, and a port. -/
structure Endpoint where
  addr : UInt8 × UInt8 × UInt8 × UInt8
  port : UInt16
  deriving DecidableEq, Repr

/-- `INADDR_ANY`. -/
def inaddrAny : UInt8 × UInt8 × UInt8 × UInt8 := (0, 0, 0, 0)

/-- A datagram that is received; its length is a `u16_t`. -/
structure Datagram where
  sender : Endpoint
  payload : List UInt8
  size : payload.length < 65536

/-- `AF_INET`. -/
def afInet : UInt8 := 2

/-- `sizeof(struct sockaddr_in)`. -/
def sizeofSockaddrIn : ℕ := 16

/-- `SSIZE_MAX`. -/
def ssizeMax : ℕ := 0x7FFFFFFF

/-- The bytes of a `struct sockaddr_in` (`IP4ADDR_PORT_TO_SOCKADDR`); the port is in
network byte order. -/
def sockaddrIn (e : Endpoint) : List UInt8 :=
  [UInt8.ofNat sizeofSockaddrIn, afInet,
    UInt8.ofNat (e.port.toNat / 256), UInt8.ofNat (e.port.toNat % 256),
    e.addr.1, e.addr.2.1, e.addr.2.2.1, e.addr.2.2.2] ++ List.replicate 8 0

/-- The address and the port in a `struct sockaddr_in` (`SOCKADDR4_TO_IP4ADDR_PORT`). -/
def endpointAt (m : Mem) : Endpoint where
  addr := (m 4, m 5, m 6, m 7)
  port := UInt16.ofNat (256 * (m 2).toNat + (m 3).toNat)

/-! ### recvfrom -/

/-- `lwip_sock_make_addr`, at the end of which `fromlen` bytes are copied. -/
def lwipSockMakeAddr (name : Mem) (fromlen : ℕ) (sender : Endpoint) : Mem × ℕ :=
  let saLen := sizeofSockaddrIn
  let fromlen := if fromlen > saLen then saLen else fromlen
  (name.store 0 ((sockaddrIn sender).take fromlen), fromlen)

/-- What a call of `recvfrom` leaves in the buffer, the address and its length, and
what it returns. -/
structure Recvfrom where
  mem : Mem
  name : Mem
  fromlen : ℕ
  ret : ℤ

/-- How much the loop of `lwip_recvfrom_udp_raw` copies into a buffer of `len`
bytes. -/
def copylen (len buflen : ℕ) : ℕ :=
  if buflen = 0 then 0
  else if len > buflen then buflen
  else u16 len

/-- `lwip_recvfrom(s, mem, len, 0, name, &fromlen)`; `netconn_recv` has failed or
yielded a datagram. -/
def lwipRecvfrom (mem : Mem) (len : ℕ) (name : Mem) (fromlen : ℕ) : Option Datagram → Recvfrom
  | none => { mem := mem, name := name, fromlen := fromlen, ret := -1 }
  | some d =>
      let buflen := d.payload.length
      let r := if fromlen ≠ 0 then lwipSockMakeAddr name fromlen d.sender else (name, fromlen)
      { mem := mem.store 0 (d.payload.take (copylen len buflen))
        name := r.1
        fromlen := r.2
        ret := min (min len buflen) ssizeMax }

/-! ### sendto -/

/-- The destination that `lwip_netconn_do_send` gives a datagram: an address of zeros
means `udp_send`, to the remote end of the socket, which has not been set. -/
def lwipNetconnDoSend (dst : Endpoint) : Endpoint :=
  if dst.addr = inaddrAny then ⟨inaddrAny, 0⟩ else dst

/-- `lwip_sendto(s, data, size, 0, name, tolen)`, up to a failure of `netconn_send`:
where the datagram goes and its bytes, if the arguments are accepted. -/
def lwipSendto (data : Mem) (size : ℕ) (name : Mem) (tolen : ℕ) :
    Option (Endpoint × List UInt8) :=
  if size > min 0xFFFF ssizeMax then none
  else if ¬ (tolen = sizeofSockaddrIn ∧ name 1 = afInet) then none
  else some (lwipNetconnDoSend (endpointAt name), data.load 0 (u16 size))

/-! ### The address on its way -/

theorem length_sockaddrIn (e : Endpoint) : (sockaddrIn e).length = sizeofSockaddrIn := rfl

theorem store_sockaddrIn (m : Mem) (e : Endpoint) {i : ℕ} (h : i < sizeofSockaddrIn) :
    m.store 0 (sockaddrIn e) i = (sockaddrIn e).getD i 0 := by
  have hlen : i < (sockaddrIn e).length := h
  rw [m.store_zero_inside _ i hlen, List.getD_eq_getElem _ _ hlen]

/-- The address read back is the one written. -/
theorem endpointAt_store (m : Mem) (e : Endpoint) : endpointAt (m.store 0 (sockaddrIn e)) = e := by
  have hport : UInt16.ofNat (256 * (UInt8.ofNat (e.port.toNat / 256)).toNat +
      (UInt8.ofNat (e.port.toNat % 256)).toNat) = e.port := by
    have hlt := e.port.toNat_lt
    apply UInt16.toNat.inj
    rw [UInt16.toNat_ofNat', UInt8.toNat_ofNat', UInt8.toNat_ofNat']
    omega
  rw [endpointAt, store_sockaddrIn m e (i := 2) (by decide),
    store_sockaddrIn m e (i := 3) (by decide), store_sockaddrIn m e (i := 4) (by decide),
    store_sockaddrIn m e (i := 5) (by decide), store_sockaddrIn m e (i := 6) (by decide),
    store_sockaddrIn m e (i := 7) (by decide)]
  show Endpoint.mk e.addr (UInt16.ofNat (256 * (UInt8.ofNat (e.port.toNat / 256)).toNat +
    (UInt8.ofNat (e.port.toNat % 256)).toNat)) = e
  rw [hport]

/-- With room for the whole address, it is written and its length is exact. -/
theorem lwipSockMakeAddr_of_le {fromlen : ℕ} (h : sizeofSockaddrIn ≤ fromlen) (name : Mem)
    (sender : Endpoint) :
    lwipSockMakeAddr name fromlen sender =
      (name.store 0 (sockaddrIn sender), sizeofSockaddrIn) := by
  have hlen : (if fromlen > sizeofSockaddrIn then sizeofSockaddrIn else fromlen) =
      sizeofSockaddrIn := by
    split <;> omega
  rw [lwipSockMakeAddr]
  simp only [hlen]
  rw [List.take_of_length_le (Nat.le_of_eq (length_sockaddrIn sender))]

/-! ### The two calls -/

/-- As much of the datagram is copied as fits into the buffer. -/
theorem take_copylen {len : ℕ} (hlen : len < 65536) (payload : List UInt8) :
    payload.take (copylen len payload.length) = payload.take len := by
  unfold copylen
  split
  · next hzero =>
    obtain rfl := List.length_eq_zero_iff.mp hzero
    rw [List.take_nil, List.take_nil]
  · split
    · next hlong => rw [List.take_length, List.take_of_length_le (Nat.le_of_lt hlong)]
    · rw [u16_of_lt hlen]

/-- The buffer after a call depends on the datagram only. -/
theorem lwipRecvfrom_mem {len : ℕ} (hlen : len < 65536) (mem name : Mem) (fromlen : ℕ)
    (d : Datagram) :
    (lwipRecvfrom mem len name fromlen (some d)).mem = mem.store 0 (d.payload.take len) := by
  simp only [lwipRecvfrom, take_copylen hlen]

/-- A received datagram is written over the front of the buffer, and its sender over
the address if there is room for it. -/
theorem lwipRecvfrom_of_le {len fromlen : ℕ} (hlen : len < 65536)
    (hfrom : sizeofSockaddrIn ≤ fromlen) (mem name : Mem) (d : Datagram) :
    lwipRecvfrom mem len name fromlen (some d) =
      { mem := mem.store 0 (d.payload.take len)
        name := name.store 0 (sockaddrIn d.sender)
        fromlen := sizeofSockaddrIn
        ret := min (min len d.payload.length) ssizeMax } := by
  have hne : fromlen ≠ 0 := Nat.ne_of_gt (Nat.lt_of_lt_of_le (by decide) hfrom)
  simp only [lwipRecvfrom, if_pos hne, lwipSockMakeAddr_of_le hfrom, take_copylen hlen]

/-- A length that is too short stays as it is. -/
theorem lwipRecvfrom_fromlen {fromlen : ℕ} (hfrom : fromlen < sizeofSockaddrIn) (mem : Mem)
    (len : ℕ) (name : Mem) (received : Option Datagram) :
    (lwipRecvfrom mem len name fromlen received).fromlen = fromlen := by
  cases received with
  | none => rfl
  | some d =>
      simp only [lwipRecvfrom]
      split
      · rw [lwipSockMakeAddr]
        exact if_neg (Nat.not_lt.mpr (Nat.le_of_lt hfrom))
      · rfl

theorem lwipRecvfrom_ret_nonneg (mem : Mem) (len : ℕ) (name : Mem) (fromlen : ℕ) (d : Datagram) :
    0 ≤ (lwipRecvfrom mem len name fromlen (some d)).ret := by
  simp only [lwipRecvfrom]
  omega

/-- An address that `recvfrom` has written in full is sent to. -/
theorem lwipSendto_sockaddrIn {size : ℕ} (hsize : size ≤ 0xFFFF) (data name : Mem)
    (e : Endpoint) :
    lwipSendto data size (name.store 0 (sockaddrIn e)) sizeofSockaddrIn =
      some (lwipNetconnDoSend e, data.load 0 size) := by
  have hfit : ¬ size > min 0xFFFF ssizeMax := Nat.not_lt.mpr (Nat.le_min.mpr ⟨hsize, by
    unfold ssizeMax; omega⟩)
  have hfamily : name.store 0 (sockaddrIn e) 1 = afInet :=
    store_sockaddrIn name e (by decide)
  rw [lwipSendto, if_neg hfit, if_neg (not_not.mpr ⟨rfl, hfamily⟩), endpointAt_store,
    u16_of_lt (Nat.lt_succ_of_le hsize)]

/-- An address of another length is not. -/
theorem lwipSendto_of_ne {tolen : ℕ} (h : tolen ≠ sizeofSockaddrIn) (data : Mem) (size : ℕ)
    (name : Mem) : lwipSendto data size name tolen = none := by
  unfold lwipSendto
  split
  · rfl
  · exact if_pos fun hboth => h hboth.1

end Lpc1768
