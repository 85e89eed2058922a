/-
Lpc1768/EchoServer.lean

The echo server (`vUDPServer`).  It keeps one buffer, one address and the length of
the address through all rounds of its loop.  `recvfrom` is told how much room there
is, but the return value is only looked at for an error: `sendto` gets the whole
buffer, and behind a short datagram that is what was there before.  Nor has `len`
been given a value when `recvfrom` reads it for the first time.

If `len` starts below the size of an address it stays there and nothing is ever sent;
otherwise it has the right value from the first datagram on (`echo_len`).  With this
the reply to a datagram is known up to the rest of the buffer (`echoReply_of_le`), and
`udp_echo_iff` says which runs echo.
-/
import Lpc1768.Credit
import Lpc1768.UdpSocket

namespace Lpc1768

/-! ### The server -/

/-- `sizeof(buffer)`. -/
def echoBufferSize : ℕ := 20

/-- The variables of `vUDPServer`; `len` is read and written as a `socklen_t`. -/
structure EchoServer where
  buffer : Mem
  cliaddr : Mem
  len : ℕ

/-- The loop about to be entered, with whatever is in `len`. -/
def EchoServer.start (len : ℕ) : EchoServer where
  buffer := fun _ => 0
  cliaddr := fun _ => 0
  len := len

/-- What a round meets: a datagram or an error of `recvfrom`, and a success or a
failure of `netconn_send`. -/
structure EchoRound where
  received : Option Datagram
  sends : Bool

/-- A round of the loop, and the datagram that it sends. -/
def vUDPServer (s : EchoServer) (r : EchoRound) :
    EchoServer × Option (Endpoint × List UInt8) :=
  let n := lwipRecvfrom s.buffer echoBufferSize s.cliaddr s.len r.received
  let t : EchoServer := { buffer := n.mem, cliaddr := n.name, len := n.fromlen }
  if n.ret < 0 then (t, none)
  else (t, if r.sends then lwipSendto t.buffer echoBufferSize t.cliaddr t.len else none)

def echoStep (s : EchoServer) (r : EchoRound) : Option EchoServer := some (vUDPServer s r).1

/-- The reply of a round. -/
def echoReply (s : EchoServer) (r : EchoRound) : Option (Endpoint × List UInt8) :=
  (vUDPServer s r).2

/-! ### The property and the condition -/

/-- The reply that a datagram should get. -/
def Datagram.echo (d : Datagram) : Endpoint × List UInt8 :=
  (d.sender, d.payload.take echoBufferSize)

/-- A reply that is sent is the echo of the datagram received. -/
def RepliesEcho (s : EchoServer) (r : EchoRound) (_ : EchoServer) : Prop :=
  ∀ reply ∈ echoReply s r, reply ∈ r.received.map Datagram.echo

instance (s : EchoServer) (r : EchoRound) (t : EchoServer) : Decidable (RepliesEcho s r t) := by
  unfold RepliesEcho; infer_instance

/-- The echo of the datagram received is sent, unless `netconn_send` fails. -/
def Echoes (s : EchoServer) (r : EchoRound) (_ : EchoServer) : Prop :=
  echoReply s r = if r.sends then r.received.map Datagram.echo else none

/-- A datagram is received, and `netconn_send` would succeed. -/
def EchoRound.Answerable (r : EchoRound) : Prop := r.sends ∧ r.received.isSome

/-- An answerable datagram fills the buffer, and its sender can be addressed. -/
def EchoRound.Exact (r : EchoRound) : Prop :=
  r.sends → ∀ d ∈ r.received,
    echoBufferSize ≤ d.payload.length ∧ (d.sender.addr = inaddrAny → d.sender.port = 0)

/-! ### One round -/

/-- After an error the loop goes on as if nothing had happened. -/
theorem vUDPServer_error (s : EchoServer) (sends : Bool) :
    vUDPServer s ⟨none, sends⟩ = (s, none) :=
  rfl

theorem vUDPServer_datagram (s : EchoServer) (d : Datagram) (sends : Bool) :
    vUDPServer s ⟨some d, sends⟩ =
      let n := lwipRecvfrom s.buffer echoBufferSize s.cliaddr s.len (some d)
      (⟨n.mem, n.name, n.fromlen⟩,
        if sends then lwipSendto n.mem echoBufferSize n.name n.fromlen else none) :=
  if_neg (Int.not_lt.mpr (lwipRecvfrom_ret_nonneg _ _ _ _ d))

/-- The length is enough for an address after a round iff it was before. -/
theorem echo_len (s : EchoServer) (r : EchoRound) :
    sizeofSockaddrIn ≤ (vUDPServer s r).1.len ↔ sizeofSockaddrIn ≤ s.len := by
  rcases r with ⟨- | d, sends⟩
  · rw [vUDPServer_error]
  · rw [vUDPServer_datagram]
    rcases Nat.lt_or_ge s.len sizeofSockaddrIn with h | h
    · simp only [lwipRecvfrom_fromlen h]
    · simp only [lwipRecvfrom_of_le (show echoBufferSize < 65536 by decide) h]
      exact iff_of_true (Nat.le_refl _) h

/-- The datagrams alone decide what is in the buffer. -/
theorem echo_buffer (s : EchoServer) (r : EchoRound) :
    (vUDPServer s r).1.buffer =
      s.buffer.store 0 ((r.received.map fun d => d.payload.take echoBufferSize).getD []) := by
  rcases r with ⟨- | d, sends⟩
  · rw [vUDPServer_error]
    exact (Mem.store_nil _ _).symm
  · rw [vUDPServer_datagram]
    exact lwipRecvfrom_mem (by decide) s.buffer s.cliaddr s.len d

/-- A round has a datagram that can be answered, or nothing to answer. -/
theorem EchoRound.eq_or_not_answerable (r : EchoRound) :
    (∃ d, r = ⟨some d, true⟩) ∨ ¬ r.Answerable := by
  rcases r with ⟨- | d, - | -⟩
  · exact .inr fun h => Bool.false_ne_true h.1
  · exact .inr fun h => Bool.false_ne_true h.2
  · exact .inr fun h => Bool.false_ne_true h.1
  · exact .inl ⟨d, rfl⟩

theorem echoReply_of_not_answerable {r : EchoRound} (h : ¬ r.Answerable) (s : EchoServer) :
    echoReply s r = none := by
  rcases r with ⟨- | d, - | -⟩
  · rw [echoReply, vUDPServer_error]
  · rw [echoReply, vUDPServer_error]
  · rw [echoReply, vUDPServer_datagram]
    rfl
  · exact absurd ⟨rfl, rfl⟩ h

/-- Without room for an address nothing is sent. -/
theorem echoReply_of_lt {s : EchoServer} (h : s.len < sizeofSockaddrIn) (r : EchoRound) :
    echoReply s r = none := by
  rcases r.eq_or_not_answerable with ⟨d, rfl⟩ | hnot
  · rw [echoReply, vUDPServer_datagram]
    simp only [lwipRecvfrom_fromlen h, lwipSendto_of_ne (Nat.ne_of_lt h), ite_self]
  · exact echoReply_of_not_answerable hnot s

/-- With room for it, a datagram is answered by the front of the buffer. -/
theorem echoReply_of_le {s : EchoServer} (h : sizeofSockaddrIn ≤ s.len) (d : Datagram) :
    echoReply s ⟨some d, true⟩ =
      some (lwipNetconnDoSend d.sender, d.payload.take echoBufferSize ++
        s.buffer.load (d.payload.take echoBufferSize).length
          (echoBufferSize - (d.payload.take echoBufferSize).length)) := by
  rw [echoReply, vUDPServer_datagram]
  simp only [lwipRecvfrom_of_le (show echoBufferSize < 65536 by decide) h, if_true,
    lwipSendto_sockaddrIn (show echoBufferSize ≤ 0xFFFF by decide), Mem.load_store_front,
    Nat.zero_add, List.take_take, Nat.min_self]

/-! ### Echoing -/

/-- The destination is the sender unless that is a port of the address of zeros. -/
theorem lwipNetconnDoSend_eq_iff (e : Endpoint) :
    lwipNetconnDoSend e = e ↔ (e.addr = inaddrAny → e.port = 0) := by
  unfold lwipNetconnDoSend
  by_cases h : e.addr = inaddrAny
  · rw [if_pos h]
    constructor
    · intro he _
      rw [← he]
    · intro hport
      rw [← h, ← hport h]
  · rw [if_neg h]
    exact iff_of_true rfl fun hany => absurd hany h

/-- A reply is the echo iff the buffer had nothing to add to the datagram. -/
theorem reply_eq_echo_iff (m : Mem) (d : Datagram) :
    (lwipNetconnDoSend d.sender, d.payload.take echoBufferSize ++
      m.load (d.payload.take echoBufferSize).length
        (echoBufferSize - (d.payload.take echoBufferSize).length)) = d.echo ↔
      echoBufferSize ≤ d.payload.length ∧ (d.sender.addr = inaddrAny → d.sender.port = 0) := by
  have hrest : (d.payload.take echoBufferSize ++
      m.load (d.payload.take echoBufferSize).length
        (echoBufferSize - (d.payload.take echoBufferSize).length)) =
      d.payload.take echoBufferSize ↔ echoBufferSize ≤ d.payload.length := by
    rw [List.append_right_eq_self, ← List.length_eq_zero_iff, Mem.length_load,
      List.length_take]
    omega
  rw [Datagram.echo, Prod.mk.injEq, lwipNetconnDoSend_eq_iff, hrest, and_comm]

theorem EchoRound.exact_of_not_answerable {r : EchoRound} (h : ¬ r.Answerable) : r.Exact :=
  fun hsends _ hd => absurd ⟨hsends, Option.isSome_of_mem hd⟩ h

/-- What nothing is to be answered with. -/
theorem echo_of_not_answerable {r : EchoRound} (h : ¬ r.Answerable) :
    (if r.sends then r.received.map Datagram.echo else none) = none := by
  rcases r with ⟨- | d, - | -⟩
  · rfl
  · rfl
  · rfl
  · exact absurd ⟨rfl, rfl⟩ h

/-- **One round**: it echoes iff, should there be anything to answer, there is room for
the address and the round is exact. -/
theorem echoes_iff (s : EchoServer) (r : EchoRound) (t : EchoServer) :
    Echoes s r t ↔ (r.Answerable → sizeofSockaddrIn ≤ s.len ∧ r.Exact) := by
  rcases r.eq_or_not_answerable with ⟨d, rfl⟩ | hnot
  · have hans : EchoRound.Answerable ⟨some d, true⟩ := ⟨rfl, rfl⟩
    rcases Nat.lt_or_ge s.len sizeofSockaddrIn with h | h
    · rw [Echoes, echoReply_of_lt h]
      exact iff_of_false (fun hnone => nomatch hnone)
        fun hroom => Nat.not_le.mpr h (hroom hans).1
    · rw [Echoes, echoReply_of_le h]
      simp only [if_true, Option.map_some, Option.some.injEq, reply_eq_echo_iff, hans,
        true_implies, h, true_and, EchoRound.Exact, Option.mem_some_iff, forall_eq']
  · rw [Echoes, echoReply_of_not_answerable hnot, echo_of_not_answerable hnot]
    exact iff_of_true rfl fun hans => absurd hans hnot

/-- The replies of a round are echoes iff the round is exact, should there be room for
the address. -/
theorem repliesEcho_iff (s : EchoServer) (r : EchoRound) (t : EchoServer) :
    RepliesEcho s r t ↔ (sizeofSockaddrIn ≤ s.len → r.Exact) := by
  rcases Nat.lt_or_ge s.len sizeofSockaddrIn with h | h
  · rw [RepliesEcho, echoReply_of_lt h]
    exact iff_of_true (fun _ hreply => nomatch hreply) fun hle => absurd hle (Nat.not_le.mpr h)
  rcases r.eq_or_not_answerable with ⟨d, rfl⟩ | hnot
  · rw [RepliesEcho, echoReply_of_le h]
    simp only [Option.map_some, Option.mem_some_iff, forall_eq', eq_comm (a := d.echo),
      reply_eq_echo_iff, h, true_implies, EchoRound.Exact]
  · rw [RepliesEcho, echoReply_of_not_answerable hnot]
    exact iff_of_true (fun _ hreply => nomatch hreply)
      fun _ => EchoRound.exact_of_not_answerable hnot

/-! ### Runs -/

theorem echoStep_total (s : EchoServer) (r : EchoRound) : ∃ t, echoStep s r = some t :=
  ⟨_, rfl⟩

/-- What there was in `len` decides for the whole run. -/
theorem echoStep_len {s t : EchoServer} {r : EchoRound} (h : echoStep s r = some t) :
    sizeofSockaddrIn ≤ t.len ↔ sizeofSockaddrIn ≤ s.len := by
  rw [← Option.some.inj h]
  exact echo_len s r

/-- Without room for an address a run sends nothing. -/
theorem trace_of_lt {s : EchoServer} (h : s.len < sizeofSockaddrIn) (rounds : List EchoRound) :
    trace echoStep echoReply s rounds = [] := by
  induction rounds generalizing s with
  | nil => rfl
  | cons r rounds ih =>
      have hlt : (vUDPServer s r).1.len < sizeofSockaddrIn :=
        Nat.not_le.mp fun hle => Nat.not_le.mpr h ((echo_len s r).mp hle)
      rw [trace_cons_of_some (t := (vUDPServer s r).1) rfl, echoReply_of_lt h, ih hlt]
      rfl

/-- With room for it, a run sends nothing iff nothing can be answered. -/
theorem trace_eq_nil_iff {s : EchoServer} (h : sizeofSockaddrIn ≤ s.len)
    (rounds : List EchoRound) :
    trace echoStep echoReply s rounds = [] ↔ ∀ r ∈ rounds, ¬ r.Answerable := by
  induction rounds generalizing s with
  | nil => exact iff_of_true rfl fun _ hmem => (List.not_mem_nil hmem).elim
  | cons r rounds ih =>
      have hreply : (echoReply s r).toList = [] ↔ ¬ r.Answerable := by
        rcases r.eq_or_not_answerable with ⟨d, rfl⟩ | hnot
        · rw [echoReply_of_le h]
          exact iff_of_false (fun hnil => nomatch hnil) (not_not.mpr ⟨rfl, rfl⟩)
        · rw [echoReply_of_not_answerable hnot]
          exact iff_of_true rfl hnot
      rw [trace_cons_of_some (t := (vUDPServer s r).1) rfl, List.append_eq_nil_iff, hreply,
        ih ((echo_len s r).mpr h), List.forall_mem_cons]

/-- Two servers with room for an address and the same buffer send the same. -/
theorem trace_congr {s s' : EchoServer} (h : sizeofSockaddrIn ≤ s.len)
    (h' : sizeofSockaddrIn ≤ s'.len) (hbuf : s.buffer = s'.buffer) (rounds : List EchoRound) :
    trace echoStep echoReply s rounds = trace echoStep echoReply s' rounds := by
  induction rounds generalizing s s' with
  | nil => rfl
  | cons r rounds ih =>
      have hnext : (vUDPServer s r).1.buffer = (vUDPServer s' r).1.buffer := by
        rw [echo_buffer, echo_buffer, hbuf]
      have hreply : echoReply s r = echoReply s' r := by
        rcases r.eq_or_not_answerable with ⟨d, rfl⟩ | hnot
        · rw [echoReply_of_le h, echoReply_of_le h', hbuf]
        · rw [echoReply_of_not_answerable hnot, echoReply_of_not_answerable hnot]
      rw [trace_cons_of_some (t := (vUDPServer s r).1) rfl,
        trace_cons_of_some (t := (vUDPServer s' r).1) rfl, hreply,
        ih ((echo_len s r).mpr h) ((echo_len s' r).mpr h') hnext]

/-- **The echo server.**  What can be answered is answered by its echo iff `len` starts
with room for an address and each such round is exact.  The replies that are sent are
echoes also if `len` starts without the room, since there are none then.  And two
values of `len` make the same run iff both have the room or neither has, or nothing
can be answered. -/
theorem udp_echo_iff (len : ℕ) (rounds : List EchoRound) :
    (Along echoStep Echoes (.start len) rounds ↔
      ∀ r ∈ rounds, r.Answerable → sizeofSockaddrIn ≤ len ∧ r.Exact) ∧
    (Along echoStep RepliesEcho (.start len) rounds ↔
      (sizeofSockaddrIn ≤ len → ∀ r ∈ rounds, r.Exact)) ∧
    ∀ len', trace echoStep echoReply (.start len) rounds =
        trace echoStep echoReply (.start len') rounds ↔
      ((sizeofSockaddrIn ≤ len ↔ sizeofSockaddrIn ≤ len') ∨ ∀ r ∈ rounds, ¬ r.Answerable) := by
  -- the room for an address is the same all along
  have hinv : ∀ s r t, (sizeofSockaddrIn ≤ s.len ↔ sizeofSockaddrIn ≤ len) →
      echoStep s r = some t → (sizeofSockaddrIn ≤ t.len ↔ sizeofSockaddrIn ≤ len) :=
    fun _ _ _ hs hstep => (echoStep_len hstep).trans hs
  refine ⟨?_, ?_, fun len' => ?_⟩
  · rw [← along_action_iff echoStep_total]
    refine along_iff (fun s r t hs _ => ?_) (fun s r t hs hstep _ => hinv s r t hs hstep) Iff.rfl
    rw [echoes_iff, hs]
  · have hall : (sizeofSockaddrIn ≤ len → ∀ r ∈ rounds, r.Exact) ↔
        ∀ r ∈ rounds, sizeofSockaddrIn ≤ len → r.Exact :=
      ⟨fun h r hr hroom => h hroom r hr, fun h hroom r hr => h r hr hroom⟩
    rw [hall, ← along_action_iff echoStep_total]
    refine along_iff (fun s r t hs _ => ?_) (fun s r t hs hstep _ => hinv s r t hs hstep) Iff.rfl
    rw [repliesEcho_iff, hs]
  · rcases Nat.lt_or_ge len sizeofSockaddrIn with h | h <;>
      rcases Nat.lt_or_ge len' sizeofSockaddrIn with h' | h'
    · rw [trace_of_lt h, trace_of_lt h']
      exact iff_of_true rfl (.inl (iff_of_false (Nat.not_le.mpr h) (Nat.not_le.mpr h')))
    · rw [trace_of_lt h, eq_comm, trace_eq_nil_iff h',
        or_iff_right fun hsame => Nat.not_le.mpr h (hsame.mpr h')]
    · rw [trace_of_lt (s := .start len') h', trace_eq_nil_iff h,
        or_iff_right fun hsame => Nat.not_le.mpr h' (hsame.mp h)]
    · have hbuf : (EchoServer.start len).buffer = (EchoServer.start len').buffer := rfl
      exact iff_of_true (trace_congr h h' hbuf rounds) (.inl (iff_of_true h h'))

/-- A client that has sent twenty bytes. -/
def longDatagram : Datagram := ⟨⟨(192, 168, 1, 10), 4000⟩, List.replicate 20 0x41, by decide⟩

/-- Another one, which sends a single byte. -/
def shortDatagram : Datagram := ⟨⟨(192, 168, 1, 11), 5000⟩, [0x42], by decide⟩

/-- The second client gets nineteen bytes of the first. -/
theorem udp_echo_leaks :
    trace echoStep echoReply (.start 16) [⟨some longDatagram, true⟩, ⟨some shortDatagram, true⟩] =
        [longDatagram.echo, (shortDatagram.sender, 0x42 :: List.replicate 19 0x41)] ∧
      ¬ Along echoStep RepliesEcho (.start 16)
        [⟨some longDatagram, true⟩, ⟨some shortDatagram, true⟩] ∧
      -- and with another value in `len` neither client hears anything
      trace echoStep echoReply (.start 0)
        [⟨some longDatagram, true⟩, ⟨some shortDatagram, true⟩] = [] := by
  refine ⟨by decide +kernel, by decide +kernel, by decide +kernel⟩

end Lpc1768
