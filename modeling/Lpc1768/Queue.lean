/-
Lpc1768/Queue.lean

FreeRTOS queues, as far as the items go.  A queue keeps copies of its items in
`uxLength` slots of `uxItemSize` bytes each, behind the queue structure.
`pcWriteTo` points to the slot for the next item sent to the back, `pcReadFrom`
to the slot that was read last, which is also where an item sent to the front
goes.  Both wrap at the ends of the storage, the latter in both directions.  A
semaphore is a queue of items without bytes.

The slots are a ring (`QueueStore.Keeps`), and the queue answers every sequence
of calls as a bounded double-ended list of byte strings does (`queue_is_deque`):
nothing is lost, doubled, mixed up or written past the storage, whoever makes
the calls, locked or not.
-/
import Lpc1768.HeapRuns
import Lpc1768.Ring

namespace Lpc1768

/-! ### queue.h and queue.c -/

/-- `queueSEND_TO_BACK`, `queueSEND_TO_FRONT` and `queueOVERWRITE`. -/
inductive CopyPosition
  | sendToBack
  | sendToFront
  | overwrite
  deriving DecidableEq

def queueUnlocked : ℤ := -1
def queueLockedUnmodified : ℤ := 0

/-- Conversion to `int8_t`. -/
def int8 (n : ℤ) : ℤ := (n + 128) % 256 - 128

/-- The part of a `Queue_t` that stays as `xQueueGenericReset` leaves it. -/
structure QueueLayout where
  pcHead : ℕ
  pcTail : ℕ
  uxLength : ℕ
  uxItemSize : ℕ
  deriving DecidableEq

/-- The part that says where the items are. -/
structure QueueStore extends QueueLayout where
  pcWriteTo : ℕ
  pcReadFrom : ℕ
  uxMessagesWaiting : ℕ
  deriving DecidableEq

/-- A `Queue_t`; a task is a number, and a list of tasks begins with the one to be woken
first. -/
structure Queue extends QueueStore where
  xTasksWaitingToSend : List ℕ
  xTasksWaitingToReceive : List ℕ
  cRxLock : ℤ
  cTxLock : ℤ
  deriving DecidableEq

/-- `prvCopyDataToQueue`, for a queue that is not a mutex. -/
def prvCopyDataToQueue (q : QueueStore) (m : Mem) (pvItemToQueue : ℕ) (xPosition : CopyPosition) :
    QueueStore × Mem :=
  if q.uxItemSize = 0 then ({ q with uxMessagesWaiting := u32 (q.uxMessagesWaiting + 1) }, m)
  else if xPosition = .sendToBack then
    let pcWriteTo := u32 (q.pcWriteTo + q.uxItemSize)
    ({ q with
        pcWriteTo := if pcWriteTo ≥ q.pcTail then q.pcHead else pcWriteTo
        uxMessagesWaiting := u32 (q.uxMessagesWaiting + 1) },
      m.memcpy q.pcWriteTo pvItemToQueue q.uxItemSize)
  else
    let pcReadFrom := u32 ((q.pcReadFrom : ℤ) - q.uxItemSize)
    -- an item that is overwritten is not one more
    let uxMessagesWaiting :=
      if xPosition = .overwrite ∧ q.uxMessagesWaiting > 0 then q.uxMessagesWaiting - 1
      else q.uxMessagesWaiting
    ({ q with
        pcReadFrom :=
          if pcReadFrom < q.pcHead then u32 ((q.pcTail : ℤ) - q.uxItemSize) else pcReadFrom
        uxMessagesWaiting := u32 (uxMessagesWaiting + 1) },
      m.memcpy q.pcReadFrom pvItemToQueue q.uxItemSize)

def prvCopyDataFromQueue (q : QueueStore) (m : Mem) (pvBuffer : ℕ) : QueueStore × Mem :=
  if q.uxItemSize ≠ 0 then
    let next := u32 (q.pcReadFrom + q.uxItemSize)
    let pcReadFrom := if next ≥ q.pcTail then q.pcHead else next
    ({ q with pcReadFrom := pcReadFrom }, m.memcpy pvBuffer pcReadFrom q.uxItemSize)
  else (q, m)

/-- The assignments of `xQueueGenericReset` to where the items are. -/
def QueueStore.reset (q : QueueStore) : QueueStore :=
  { q with
    pcTail := u32 (q.pcHead + u32 (q.uxLength * q.uxItemSize))
    uxMessagesWaiting := 0
    pcWriteTo := q.pcHead
    pcReadFrom := u32 (q.pcHead + u32 (((q.uxLength : ℤ) - 1) * q.uxItemSize)) }

/-- A queue, with the memory its items are in, and the tasks that were taken off its lists
of waiting tasks. -/
structure Touched where
  q : Queue
  mem : Mem
  woken : List ℕ

/-- "If there was a task waiting for data to arrive on the queue then unblock it now." -/
def Queue.wakeReceiver (q : Queue) : Queue :=
  { q with xTasksWaitingToReceive := q.xTasksWaitingToReceive.tail }

def Queue.wakeSender (q : Queue) : Queue :=
  { q with xTasksWaitingToSend := q.xTasksWaitingToSend.tail }

/-- The critical section of `xQueueGenericSend`; `none` where the queue is full. -/
def sendCritical (q : Queue) (m : Mem) (pvItemToQueue : ℕ) (xCopyPosition : CopyPosition) :
    Option Touched :=
  if q.uxMessagesWaiting < q.uxLength ∨ xCopyPosition = .overwrite then
    let c := prvCopyDataToQueue q.toQueueStore m pvItemToQueue xCopyPosition
    some
      { q := { q with toQueueStore := c.1 }.wakeReceiver
        mem := c.2
        woken := q.xTasksWaitingToReceive.take 1 }
  else none

def xQueueGenericSendFromISR (q : Queue) (m : Mem) (pvItemToQueue : ℕ)
    (xCopyPosition : CopyPosition) : Option Touched :=
  if q.uxMessagesWaiting < q.uxLength ∨ xCopyPosition = .overwrite then
    let c := prvCopyDataToQueue q.toQueueStore m pvItemToQueue xCopyPosition
    if q.cTxLock = queueUnlocked then
      some
        { q := { q with toQueueStore := c.1 }.wakeReceiver
          mem := c.2
          woken := q.xTasksWaitingToReceive.take 1 }
    else
      some
        { q := { q with toQueueStore := c.1, cTxLock := int8 (q.cTxLock + 1) }
          mem := c.2
          woken := [] }
  else none

/-- `xQueueGiveFromISR`: nothing is copied. -/
def xQueueGiveFromISR (q : Queue) (m : Mem) : Option Touched :=
  if q.uxMessagesWaiting < q.uxLength then
    let s := { q.toQueueStore with uxMessagesWaiting := u32 (q.uxMessagesWaiting + 1) }
    if q.cTxLock = queueUnlocked then
      some
        { q := { q with toQueueStore := s }.wakeReceiver
          mem := m
          woken := q.xTasksWaitingToReceive.take 1 }
    else
      some
        { q := { q with toQueueStore := s, cTxLock := int8 (q.cTxLock + 1) }
          mem := m
          woken := [] }
  else none

/-- The critical section of `xQueueReceive`; `none` where the queue is empty. -/
def receiveCritical (q : Queue) (m : Mem) (pvBuffer : ℕ) : Option Touched :=
  if q.uxMessagesWaiting > 0 then
    let c := prvCopyDataFromQueue q.toQueueStore m pvBuffer
    let s := { c.1 with uxMessagesWaiting := q.uxMessagesWaiting - 1 }
    some
      { q := { q with toQueueStore := s }.wakeSender
        mem := c.2
        woken := q.xTasksWaitingToSend.take 1 }
  else none

/-- The critical section of `xQueueSemaphoreTake`, for a semaphore that is not a mutex. -/
def takeCritical (q : Queue) (m : Mem) : Option Touched :=
  if q.uxMessagesWaiting > 0 then
    let s := { q.toQueueStore with uxMessagesWaiting := q.uxMessagesWaiting - 1 }
    some
      { q := { q with toQueueStore := s }.wakeSender
        mem := m
        woken := q.xTasksWaitingToSend.take 1 }
  else none

def xQueueReceiveFromISR (q : Queue) (m : Mem) (pvBuffer : ℕ) : Option Touched :=
  if q.uxMessagesWaiting > 0 then
    let c := prvCopyDataFromQueue q.toQueueStore m pvBuffer
    let s := { c.1 with uxMessagesWaiting := q.uxMessagesWaiting - 1 }
    if q.cRxLock = queueUnlocked then
      some
        { q := { q with toQueueStore := s }.wakeSender
          mem := c.2
          woken := q.xTasksWaitingToSend.take 1 }
    else
      some
        { q := { q with toQueueStore := s, cRxLock := int8 (q.cRxLock + 1) }
          mem := c.2
          woken := [] }
  else none

/-- The critical section of `xQueuePeek`: the read position is put back, and the item is
offered to the next task that waits for one. -/
def peekCritical (q : Queue) (m : Mem) (pvBuffer : ℕ) : Option Touched :=
  if q.uxMessagesWaiting > 0 then
    let c := prvCopyDataFromQueue q.toQueueStore m pvBuffer
    let s := { c.1 with pcReadFrom := q.pcReadFrom }
    some
      { q := { q with toQueueStore := s }.wakeReceiver
        mem := c.2
        woken := q.xTasksWaitingToReceive.take 1 }
  else none

def xQueuePeekFromISR (q : Queue) (m : Mem) (pvBuffer : ℕ) : Option Touched :=
  if q.uxMessagesWaiting > 0 then
    let c := prvCopyDataFromQueue q.toQueueStore m pvBuffer
    let s := { c.1 with pcReadFrom := q.pcReadFrom }
    some { q := { q with toQueueStore := s }, mem := c.2, woken := [] }
  else none

def uxQueueMessagesWaiting (q : Queue) : ℕ := q.uxMessagesWaiting

def uxQueueSpacesAvailable (q : Queue) : ℕ := u32 ((q.uxLength : ℤ) - q.uxMessagesWaiting)

/-- The macro `prvLockQueue`. -/
def prvLockQueue (q : Queue) : Queue :=
  { q with
    cRxLock := if q.cRxLock = queueUnlocked then queueLockedUnmodified else q.cRxLock
    cTxLock := if q.cTxLock = queueUnlocked then queueLockedUnmodified else q.cTxLock }

/-- The loops of `prvUnlockQueue`, which take a task off the list for each item that came
or went while the queue was locked: the tasks left, and those taken off. -/
def unlockLoop : ℕ → List ℕ → List ℕ × List ℕ
  | 0, tasks => (tasks, [])
  | _ + 1, [] => ([], [])
  | cLock + 1, task :: tasks =>
      let rest := unlockLoop cLock tasks
      (rest.1, task :: rest.2)

/-- The first critical section of `prvUnlockQueue`. -/
def prvUnlockTx (q : Queue) : Queue × List ℕ :=
  let r := unlockLoop q.cTxLock.toNat q.xTasksWaitingToReceive
  ({ q with xTasksWaitingToReceive := r.1, cTxLock := queueUnlocked }, r.2)

/-- The second one. -/
def prvUnlockRx (q : Queue) : Queue × List ℕ :=
  let r := unlockLoop q.cRxLock.toNat q.xTasksWaitingToSend
  ({ q with xTasksWaitingToSend := r.1, cRxLock := queueUnlocked }, r.2)

/-! ### The storage -/

/-- The storage of a queue: whole slots, which end in the address space and have room for
one more before them. -/
structure QueueLayout.Storage (q : QueueLayout) : Prop where
  length_pos : 0 < q.uxLength
  tail : q.pcTail = q.pcHead + q.uxLength * q.uxItemSize
  below : q.uxItemSize ≤ q.pcHead
  top : q.pcTail < 4294967296
  length_lt : q.uxLength < 4294967296

/-- Where slot `k` begins. -/
def QueueLayout.slot (q : QueueLayout) (k : ℕ) : ℕ := q.pcHead + k * q.uxItemSize

/-- Slot `k` holds the item `x`. -/
def QueueLayout.SlotIs (q : QueueLayout) (m : Mem) (k : ℕ) (x : List UInt8) : Prop :=
  m.load (q.slot k) q.uxItemSize = x

/-- The queue keeps the items `xs`, first to last; the slot before them has the
number `r`. -/
structure QueueStore.Keeps (q : QueueStore) (m : Mem) (r : ℕ) (xs : List (List UInt8)) :
    Prop where
  readFrom : q.pcReadFrom = q.slot (r % q.uxLength)
  writeTo : q.pcWriteTo = q.slot ((r + 1 + xs.length) % q.uxLength)
  count : q.uxMessagesWaiting = xs.length
  fits : xs.length ≤ q.uxLength
  items : Holds q.uxLength (q.SlotIs m) (r + 1) xs

/-- A range that has no byte of the storage. -/
def QueueLayout.Clear (q : QueueLayout) (a n : ℕ) : Prop := a + n ≤ q.pcHead ∨ q.pcTail ≤ a

section

variable {q : QueueLayout} {k : ℕ}

theorem QueueLayout.Storage.slot_end (hs : q.Storage) (hk : k < q.uxLength) :
    q.slot k + q.uxItemSize ≤ q.pcTail := by
  have hmul : (k + 1) * q.uxItemSize ≤ q.uxLength * q.uxItemSize := Nat.mul_le_mul_right _ hk
  rw [Nat.succ_mul] at hmul
  rw [hs.tail, QueueLayout.slot]
  omega

/-- Two slots share no byte. -/
theorem QueueLayout.slot_apart {j : ℕ} (hjk : j ≠ k) :
    q.slot j + q.uxItemSize ≤ q.slot k ∨ q.slot k + q.uxItemSize ≤ q.slot j := by
  have hlt (i l : ℕ) (h : i < l) : q.slot i + q.uxItemSize ≤ q.slot l := by
    have hmul : (i + 1) * q.uxItemSize ≤ l * q.uxItemSize := Nat.mul_le_mul_right _ h
    rw [Nat.succ_mul] at hmul
    rw [QueueLayout.slot, QueueLayout.slot]
    omega
  rcases Nat.lt_or_gt_of_ne hjk with h | h
  · exact .inl (hlt j k h)
  · exact .inr (hlt k j h)

/-- A range outside the storage is apart from every slot. -/
theorem QueueLayout.Storage.slot_clear (hs : q.Storage) (hk : k < q.uxLength) {a n : ℕ}
    (hclear : q.Clear a n) : q.slot k + q.uxItemSize ≤ a ∨ a + n ≤ q.slot k := by
  have hend := hs.slot_end hk
  have hslot : q.pcHead ≤ q.slot k := Nat.le_add_right _ _
  rcases hclear with h | h
  · exact .inr (by omega)
  · exact .inl (by omega)

theorem QueueLayout.slot_succ (q : QueueLayout) (k : ℕ) :
    q.slot (k + 1) = q.slot k + q.uxItemSize := by
  rw [QueueLayout.slot, QueueLayout.slot, Nat.succ_mul, Nat.add_assoc]

theorem QueueLayout.Storage.slot_length (hs : q.Storage) : q.slot q.uxLength = q.pcTail :=
  hs.tail.symm

/-- The slot after slot `k`, as `prvCopyDataToQueue` and `prvCopyDataFromQueue` find it. -/
theorem QueueLayout.Storage.slot_next (hs : q.Storage) (hsize : q.uxItemSize ≠ 0)
    (hk : k < q.uxLength) :
    (if u32 ((q.slot k : ℤ) + q.uxItemSize) ≥ q.pcTail then q.pcHead
      else u32 ((q.slot k : ℤ) + q.uxItemSize)) = q.slot ((k + 1) % q.uxLength) := by
  have hend := hs.slot_end hk
  have htop := hs.top
  have hnext := q.slot_succ k
  have hu : u32 ((q.slot k : ℤ) + q.uxItemSize) = q.slot (k + 1) := by
    unfold u32
    omega
  rw [hu]
  rcases Nat.lt_or_ge (k + 1) q.uxLength with hlt | hge
  · have hin := hs.slot_end hlt
    rw [if_neg (by omega), Nat.mod_eq_of_lt hlt]
  · have hlast : k + 1 = q.uxLength := by omega
    rw [hlast, hs.slot_length, if_pos (Nat.le_refl _), Nat.mod_self, QueueLayout.slot,
      Nat.zero_mul, Nat.add_zero]

/-- The slot before slot `k`, as `prvCopyDataToQueue` finds it. -/
theorem QueueLayout.Storage.slot_prev (hs : q.Storage) (hsize : q.uxItemSize ≠ 0)
    (hk : k < q.uxLength) :
    (if u32 ((q.slot k : ℤ) - q.uxItemSize) < q.pcHead then u32 ((q.pcTail : ℤ) - q.uxItemSize)
      else u32 ((q.slot k : ℤ) - q.uxItemSize)) = q.slot ((k + (q.uxLength - 1)) % q.uxLength) := by
  have hend := hs.slot_end hk
  have htop := hs.top
  have hbelow := hs.below
  have hhead : q.pcHead ≤ q.slot k := Nat.le_add_right _ _
  cases k with
  | zero =>
      have hzero : q.slot 0 = q.pcHead := by rw [QueueLayout.slot, Nat.zero_mul, Nat.add_zero]
      have hlast := q.slot_succ (q.uxLength - 1)
      rw [Nat.sub_add_cancel hs.length_pos, hs.slot_length] at hlast
      have hu : u32 ((q.slot 0 : ℤ) - q.uxItemSize) = q.pcHead - q.uxItemSize := by
        unfold u32
        omega
      have ht : u32 ((q.pcTail : ℤ) - q.uxItemSize) = q.slot (q.uxLength - 1) := by
        unfold u32
        omega
      rw [hu, ht, if_pos (by omega), Nat.zero_add, Nat.mod_eq_of_lt (by omega)]
  | succ k =>
      have hprev := q.slot_succ k
      have hge : q.pcHead ≤ q.slot k := Nat.le_add_right _ _
      have hu : u32 ((q.slot (k + 1) : ℤ) - q.uxItemSize) = q.slot k := by
        unfold u32
        omega
      have hk' : k + 1 + (q.uxLength - 1) = k + q.uxLength := by omega
      rw [hu, if_neg (by omega), hk', Nat.add_mod_right, Nat.mod_eq_of_lt (by omega)]

end

/-! ### Copying items in and out -/

section

variable {q : QueueStore} {m : Mem} {r : ℕ} {xs : List (List UInt8)}

theorem QueueLayout.slot_of_size_zero {q : QueueLayout} (hsize : q.uxItemSize = 0) (k : ℕ) :
    q.slot k = q.pcHead := by
  rw [QueueLayout.slot, hsize, Nat.mul_zero, Nat.add_zero]

theorem memcpy_zero (m : Mem) (dst src : ℕ) : m.memcpy dst src 0 = m := m.store_nil dst

theorem QueueStore.Keeps.sendToBack_eq (h : q.Keeps m r xs) (hs : q.Storage)
    (hroom : xs.length < q.uxLength) (src : ℕ) :
    prvCopyDataToQueue q m src .sendToBack =
      ({ q with
          pcWriteTo := q.slot ((r + 1 + (xs.length + 1)) % q.uxLength)
          uxMessagesWaiting := xs.length + 1 },
        m.memcpy (q.slot ((r + 1 + xs.length) % q.uxLength)) src q.uxItemSize) := by
  have hlength := hs.length_lt
  have hcount : u32 ((q.uxMessagesWaiting : ℤ) + 1) = xs.length + 1 := by
    rw [h.count]
    exact u32_of_lt (n := xs.length + 1) (by omega)
  by_cases hsize : q.uxItemSize = 0
  · have hwrite : q.pcWriteTo = q.pcHead := h.writeTo.trans (QueueLayout.slot_of_size_zero hsize _)
    simp only [prvCopyDataToQueue, hsize, if_true, hcount, memcpy_zero,
      QueueLayout.slot_of_size_zero hsize, ← hwrite]
  · have hnext := hs.slot_next hsize (Nat.mod_lt (r + 1 + xs.length) hs.length_pos)
    rw [Nat.mod_add_mod, Nat.add_assoc (r + 1)] at hnext
    simp only [prvCopyDataToQueue, hsize, if_false, if_true, hcount, h.writeTo, hnext]

theorem QueueStore.Keeps.sendToFront_eq (h : q.Keeps m r xs) (hs : q.Storage)
    (hroom : xs.length < q.uxLength) (src : ℕ) :
    prvCopyDataToQueue q m src .sendToFront =
      ({ q with
          pcReadFrom := q.slot ((r + (q.uxLength - 1)) % q.uxLength)
          uxMessagesWaiting := xs.length + 1 },
        m.memcpy (q.slot (r % q.uxLength)) src q.uxItemSize) := by
  have hlength := hs.length_lt
  have hcount : u32 ((q.uxMessagesWaiting : ℤ) + 1) = xs.length + 1 := by
    rw [h.count]
    exact u32_of_lt (n := xs.length + 1) (by omega)
  by_cases hsize : q.uxItemSize = 0
  · have hread : q.pcReadFrom = q.pcHead := h.readFrom.trans (QueueLayout.slot_of_size_zero hsize _)
    simp only [prvCopyDataToQueue, hsize, if_true, hcount, memcpy_zero,
      QueueLayout.slot_of_size_zero hsize, ← hread]
  · have hprev := hs.slot_prev hsize (Nat.mod_lt r hs.length_pos)
    rw [Nat.mod_add_mod] at hprev
    simp [prvCopyDataToQueue, hsize, hcount, h.readFrom, hprev]

theorem QueueStore.Keeps.copyFrom_eq (h : q.Keeps m r xs) (hs : q.Storage) (dst : ℕ) :
    prvCopyDataFromQueue q m dst =
      ({ q with pcReadFrom := q.slot ((r + 1) % q.uxLength) },
        m.memcpy dst (q.slot ((r + 1) % q.uxLength)) q.uxItemSize) := by
  by_cases hsize : q.uxItemSize = 0
  · have hread : q.pcReadFrom = q.pcHead := h.readFrom.trans (QueueLayout.slot_of_size_zero hsize _)
    simp only [prvCopyDataFromQueue, hsize, ne_eq, not_true, if_false, memcpy_zero,
      QueueLayout.slot_of_size_zero hsize, ← hread]
  · have hnext := hs.slot_next hsize (Nat.mod_lt r hs.length_pos)
    rw [Nat.mod_add_mod] at hnext
    simp only [prvCopyDataFromQueue, hsize, ne_eq, not_false_eq_true, if_true, h.readFrom, hnext]

/-- A copy into one slot is not seen in another. -/
theorem QueueLayout.SlotIs.of_copy {q : QueueLayout} {m : Mem} {j k src : ℕ} {x : List UInt8}
    (h : q.SlotIs m k x) (hk : k ≠ j) :
    q.SlotIs (m.memcpy (q.slot j) src q.uxItemSize) k x := by
  have hload := m.load_store_disjoint (q.slot j) (q.slot k) q.uxItemSize
    (m.load src q.uxItemSize) (by
      rw [Mem.length_load]
      exact QueueLayout.slot_apart hk)
  exact hload.trans h

theorem QueueLayout.slotIs_copy (q : QueueLayout) (m : Mem) (j src : ℕ) :
    q.SlotIs (m.memcpy (q.slot j) src q.uxItemSize) j (m.load src q.uxItemSize) := by
  have hload := m.load_store_self (q.slot j) (m.load src q.uxItemSize)
  rw [Mem.length_load] at hload
  exact hload

/-- What is written outside the storage is not seen in the slots. -/
theorem QueueStore.Keeps.store (h : q.Keeps m r xs) (hs : q.Storage) (a : ℕ) (bs : List UInt8)
    (hclear : q.Clear a bs.length) : q.Keeps (m.store a bs) r xs where
  readFrom := h.readFrom
  writeTo := h.writeTo
  count := h.count
  fits := h.fits
  items := h.items.imp fun _ _ _ hx =>
    (m.load_store_disjoint _ _ _ _
      (hs.slot_clear (Nat.mod_lt _ hs.length_pos) hclear)).trans hx

theorem QueueStore.Keeps.sendToBack (h : q.Keeps m r xs) (hs : q.Storage)
    (hroom : xs.length < q.uxLength) (src : ℕ) :
    let c := prvCopyDataToQueue q m src .sendToBack
    c.1.toQueueLayout = q.toQueueLayout ∧
      c.1.Keeps c.2 r (xs ++ [m.load src q.uxItemSize]) := by
  rw [h.sendToBack_eq hs hroom]
  refine ⟨rfl, ?_⟩
  constructor
  · exact h.readFrom
  · simp only [List.length_append, List.length_singleton]
  · simp only [List.length_append, List.length_singleton]
  · rw [List.length_append]
    exact hroom
  · exact h.items.push hroom (fun k x hk hx => hx.of_copy hk) (q.slotIs_copy m _ src)

theorem QueueStore.Keeps.sendToFront (h : q.Keeps m r xs) (hs : q.Storage)
    (hroom : xs.length < q.uxLength) (src : ℕ) :
    let c := prvCopyDataToQueue q m src .sendToFront
    c.1.toQueueLayout = q.toQueueLayout ∧
      c.1.Keeps c.2 (r + (q.uxLength - 1)) (m.load src q.uxItemSize :: xs) := by
  have hlap : r + (q.uxLength - 1) + 1 = r + q.uxLength := by omega
  rw [h.sendToFront_eq hs hroom]
  refine ⟨rfl, ?_⟩
  constructor
  · rfl
  · rw [hlap, List.length_cons, Nat.add_right_comm, Nat.add_mod_right, ← Nat.add_assoc,
      Nat.add_right_comm r]
    exact h.writeTo
  · rw [List.length_cons]
  · rw [List.length_cons]
    exact hroom
  · rw [hlap]
    have hcons := h.items.cons hroom (fun k x hk hx => hx.of_copy hk) (q.slotIs_copy m _ src)
    exact hcons.of_mod_eq (Nat.add_mod_right _ _).symm

/-- Taking the first item out. -/
theorem QueueStore.Keeps.receive {x : List UInt8} (h : q.Keeps m r (x :: xs)) (hs : q.Storage)
    {dst : ℕ} (hclear : q.Clear dst q.uxItemSize) :
    let c := prvCopyDataFromQueue q m dst
    c.1.toQueueLayout = q.toQueueLayout ∧
      { c.1 with uxMessagesWaiting := q.uxMessagesWaiting - 1 }.Keeps c.2 (r + 1) xs ∧
      c.2 = m.store dst x ∧ x.length = q.uxItemSize := by
  have hx : m.load (q.slot ((r + 1) % q.uxLength)) q.uxItemSize = x := h.items.head
  have hlen : x.length = q.uxItemSize := by rw [← hx, Mem.length_load]
  have hkept := h.store hs dst x (by rwa [hlen])
  rw [h.copyFrom_eq hs, Mem.memcpy, hx]
  refine ⟨rfl, ?_, rfl, hlen⟩
  constructor
  · rfl
  · have hwrite := h.writeTo
    rw [List.length_cons] at hwrite
    rw [Nat.add_right_comm (r + 1) 1, Nat.add_assoc (r + 1)]
    exact hwrite
  · simp [h.count]
  · exact Nat.le_of_succ_le h.fits
  · exact hkept.items.tail

/-- Looking at the first item. -/
theorem QueueStore.Keeps.peek {x : List UInt8} (h : q.Keeps m r (x :: xs)) (hs : q.Storage)
    {dst : ℕ} (hclear : q.Clear dst q.uxItemSize) :
    let c := prvCopyDataFromQueue q m dst
    c.1.toQueueLayout = q.toQueueLayout ∧
      { c.1 with pcReadFrom := q.pcReadFrom }.Keeps c.2 r (x :: xs) ∧
      c.2 = m.store dst x ∧ x.length = q.uxItemSize := by
  obtain ⟨hlayout, -, hmem, hlen⟩ := h.receive hs hclear
  refine ⟨hlayout, ?_, hmem, hlen⟩
  rw [hmem, h.copyFrom_eq hs]
  exact h.store hs dst x (by rwa [hlen])

/-- Overwriting the only item that a queue of one slot may have. -/
theorem QueueStore.Keeps.overwrite (h : q.Keeps m r xs) (hs : q.Storage)
    (hone : q.uxLength = 1) (hsize : q.uxItemSize ≠ 0) (src : ℕ) :
    let c := prvCopyDataToQueue q m src .overwrite
    c.1.toQueueLayout = q.toQueueLayout ∧ c.1.Keeps c.2 0 [m.load src q.uxItemSize] := by
  have hslot (k : ℕ) : q.slot (k % q.uxLength) = q.slot 0 := by rw [hone, Nat.mod_one]
  have hread : q.pcReadFrom = q.slot 0 := h.readFrom.trans (hslot r)
  have hprev := hs.slot_prev hsize (k := 0) hs.length_pos
  rw [hslot] at hprev
  have hfits := h.fits
  have hkept : (if xs.length > 0 then xs.length - 1 else xs.length) = 0 := by
    split <;> omega
  have heq : prvCopyDataToQueue q m src .overwrite =
      ({ q with pcReadFrom := q.slot 0, uxMessagesWaiting := 1 },
        m.memcpy (q.slot 0) src q.uxItemSize) := by
    simp only [prvCopyDataToQueue, hsize, if_false, reduceCtorEq, true_and, hread, hprev, h.count,
      hkept]
    rfl
  rw [heq]
  refine ⟨rfl, ?_⟩
  constructor
  · exact (hslot 0).symm
  · exact h.writeTo.trans ((hslot _).trans (hslot _).symm)
  · rfl
  · exact hs.length_pos
  · intro k hk
    obtain rfl : k = 0 := by simpa using hk
    rw [hone, Nat.mod_one]
    exact q.slotIs_copy m 0 src

end

/-! ### The queue as a list -/

/-- A call that does not block, by a task or by an interrupt (`isr`).  Before a send, the
caller puts the bytes of the item at `src`. -/
inductive QueueCall
  | send (isr : Bool) (bs : List UInt8) (src : ℕ) (xCopyPosition : CopyPosition)
  | receive (isr : Bool) (dst : ℕ)
  | peek (isr : Bool) (dst : ℕ)
  | messagesWaiting
  | spacesAvailable
  | lock
  | unlock

inductive QueueReply
  | fail
  | pass
  | item (bs : List UInt8)
  | count (n : ℕ)
  deriving DecidableEq

/-- A call and its reply; the reply of a receive is what the buffer then holds. -/
def queueCall (s : Queue × Mem) : QueueCall → (Queue × Mem) × QueueReply
  | .send isr bs src pos =>
      let m := s.2.store src bs
      match
        (if isr then xQueueGenericSendFromISR s.1 m src pos
          else sendCritical s.1 m src pos) with
      | none => ((s.1, m), .fail)
      | some t => ((t.q, t.mem), .pass)
  | .receive isr dst =>
      match (if isr then xQueueReceiveFromISR s.1 s.2 dst else receiveCritical s.1 s.2 dst) with
      | none => (s, .fail)
      | some t => ((t.q, t.mem), .item (t.mem.load dst s.1.uxItemSize))
  | .peek isr dst =>
      match (if isr then xQueuePeekFromISR s.1 s.2 dst else peekCritical s.1 s.2 dst) with
      | none => (s, .fail)
      | some t => ((t.q, t.mem), .item (t.mem.load dst s.1.uxItemSize))
  | .messagesWaiting => (s, .count (uxQueueMessagesWaiting s.1))
  | .spacesAvailable => (s, .count (uxQueueSpacesAvailable s.1))
  | .lock => ((prvLockQueue s.1, s.2), .pass)
  | .unlock => (((prvUnlockRx (prvUnlockTx s.1).1).1, s.2), .pass)

/-- What the calls mean: a list of at most `n` items. -/
def dequeCall (n : ℕ) (xs : List (List UInt8)) : QueueCall → List (List UInt8) × QueueReply
  | .send _ bs _ .sendToBack => if xs.length < n then (xs ++ [bs], .pass) else (xs, .fail)
  | .send _ bs _ .sendToFront => if xs.length < n then (bs :: xs, .pass) else (xs, .fail)
  | .send _ bs _ .overwrite => ([bs], .pass)
  | .receive _ _ =>
      match xs with
      | [] => ([], .fail)
      | x :: xs => (xs, .item x)
  | .peek _ _ =>
      match xs with
      | [] => ([], .fail)
      | x :: xs => (x :: xs, .item x)
  | .messagesWaiting => (xs, .count xs.length)
  | .spacesAvailable => (xs, .count (n - xs.length))
  | .lock | .unlock => (xs, .pass)

/-- What callers see to: items of the right size, buffers apart from the storage, and
`queueOVERWRITE` for queues of one item only. -/
def QueueCall.Allowed (q : QueueLayout) : QueueCall → Prop
  | .send _ bs src pos =>
      bs.length = q.uxItemSize ∧ q.Clear src q.uxItemSize ∧
        (pos = .overwrite → q.uxLength = 1 ∧ q.uxItemSize ≠ 0)
  | .receive _ dst | .peek _ dst => q.Clear dst q.uxItemSize
  | _ => True

instance (q : QueueLayout) (a n : ℕ) : Decidable (q.Clear a n) :=
  inferInstanceAs (Decidable (_ ∨ _))

instance (q : QueueLayout) : (c : QueueCall) → Decidable (c.Allowed q)
  | .send _ _ _ _ => inferInstanceAs (Decidable (_ ∧ _ ∧ _))
  | .receive _ _ | .peek _ _ => inferInstanceAs (Decidable (q.Clear _ _))
  | .messagesWaiting | .spacesAvailable | .lock | .unlock => isTrue trivial

/-- The buffer of the call has the byte `a`. -/
def QueueCall.Buffers (q : QueueLayout) (a : ℕ) : QueueCall → Prop
  | .send _ _ p _ | .receive _ p | .peek _ p => p ≤ a ∧ a < p + q.uxItemSize
  | _ => False

/-! ### Calls by tasks and by interrupts -/

/-- Where the items are, and the memory, after a critical section. -/
def Touched.store (t : Touched) : QueueStore × Mem := (t.q.toQueueStore, t.mem)

theorem send_store (isr : Bool) (q : Queue) (m : Mem) (src : ℕ) (pos : CopyPosition) :
    (if isr then xQueueGenericSendFromISR q m src pos else sendCritical q m src pos).map
        Touched.store =
      if q.uxMessagesWaiting < q.uxLength ∨ pos = .overwrite then
        some (prvCopyDataToQueue q.toQueueStore m src pos)
      else none := by
  by_cases hroom : q.uxMessagesWaiting < q.uxLength ∨ pos = .overwrite
  · cases isr
    · simp only [sendCritical, if_pos hroom]
      rfl
    · simp only [xQueueGenericSendFromISR, if_pos hroom]
      by_cases hlock : q.cTxLock = queueUnlocked <;> simp only [hlock, if_true, if_false] <;> rfl
  · cases isr <;> simp [sendCritical, xQueueGenericSendFromISR, hroom]

theorem receive_store (isr : Bool) (q : Queue) (m : Mem) (dst : ℕ) :
    (if isr then xQueueReceiveFromISR q m dst else receiveCritical q m dst).map Touched.store =
      if q.uxMessagesWaiting > 0 then
        some ({ (prvCopyDataFromQueue q.toQueueStore m dst).1 with
            uxMessagesWaiting := q.uxMessagesWaiting - 1 },
          (prvCopyDataFromQueue q.toQueueStore m dst).2)
      else none := by
  by_cases hdata : q.uxMessagesWaiting > 0
  · cases isr
    · simp only [receiveCritical, if_pos hdata]
      rfl
    · simp only [xQueueReceiveFromISR, if_pos hdata]
      by_cases hlock : q.cRxLock = queueUnlocked <;> simp only [hlock, if_true, if_false] <;> rfl
  · cases isr <;> simp [receiveCritical, xQueueReceiveFromISR, hdata]

theorem peek_store (isr : Bool) (q : Queue) (m : Mem) (dst : ℕ) :
    (if isr then xQueuePeekFromISR q m dst else peekCritical q m dst).map Touched.store =
      if q.uxMessagesWaiting > 0 then
        some ({ (prvCopyDataFromQueue q.toQueueStore m dst).1 with pcReadFrom := q.pcReadFrom },
          (prvCopyDataFromQueue q.toQueueStore m dst).2)
      else none := by
  by_cases hdata : q.uxMessagesWaiting > 0
  · cases isr
    · simp only [peekCritical, if_pos hdata]
      rfl
    · simp only [xQueuePeekFromISR, if_pos hdata]
      rfl
  · cases isr <;> simp [peekCritical, xQueuePeekFromISR, hdata]

/-- A semaphore is given as an item without bytes is sent. -/
theorem xQueueGiveFromISR_eq (q : Queue) (m : Mem) (src : ℕ) (hsize : q.uxItemSize = 0) :
    xQueueGiveFromISR q m = xQueueGenericSendFromISR q m src .sendToBack := by
  simp only [xQueueGiveFromISR, xQueueGenericSendFromISR, prvCopyDataToQueue, hsize, if_true,
    reduceCtorEq, or_false]

/-- A semaphore is taken as an item without bytes is received. -/
theorem takeCritical_eq (q : Queue) (m : Mem) (dst : ℕ) (hsize : q.uxItemSize = 0) :
    takeCritical q m = receiveCritical q m dst := by
  simp only [takeCritical, receiveCritical, prvCopyDataFromQueue, hsize, ne_eq, not_true, if_false]

/-! ### Runs of calls -/

/-- The queue, laid out as `q`, keeps the items `xs`. -/
structure QueueIs (q : QueueLayout) (s : Queue × Mem) (xs : List (List UInt8)) : Prop where
  layout : s.1.toQueueLayout = q
  keeps : ∃ r, s.1.Keeps s.2 r xs

/-- A send that finds room, or need not. -/
theorem QueueStore.Keeps.send {q : QueueStore} {m : Mem} {r : ℕ} {xs : List (List UInt8)}
    (h : q.Keeps m r xs) (hs : q.Storage) {pos : CopyPosition}
    (hone : pos = .overwrite → q.uxLength = 1 ∧ q.uxItemSize ≠ 0)
    (hroom : xs.length < q.uxLength ∨ pos = .overwrite) (isr : Bool) (src : ℕ) :
    let c := prvCopyDataToQueue q m src pos
    let d := dequeCall q.uxLength xs (.send isr (m.load src q.uxItemSize) src pos)
    c.1.toQueueLayout = q.toQueueLayout ∧ (∃ r', c.1.Keeps c.2 r' d.1) ∧ d.2 = .pass := by
  cases pos with
  | sendToBack =>
      have hlt : xs.length < q.uxLength := by simpa using hroom
      obtain ⟨hlayout, hkeeps⟩ := h.sendToBack hs hlt src
      simp only [dequeCall, if_pos hlt]
      exact ⟨hlayout, ⟨r, hkeeps⟩, trivial⟩
  | sendToFront =>
      have hlt : xs.length < q.uxLength := by simpa using hroom
      obtain ⟨hlayout, hkeeps⟩ := h.sendToFront hs hlt src
      simp only [dequeCall, if_pos hlt]
      exact ⟨hlayout, ⟨_, hkeeps⟩, trivial⟩
  | overwrite =>
      obtain ⟨hlength, hsize⟩ := hone rfl
      obtain ⟨hlayout, hkeeps⟩ := h.overwrite hs hlength hsize src
      exact ⟨hlayout, ⟨0, hkeeps⟩, rfl⟩

theorem QueueIs.of_store {q : QueueLayout} {t : Touched} {c : QueueStore × Mem} {r : ℕ}
    {xs : List (List UInt8)} (ht : t.store = c) (hlayout : c.1.toQueueLayout = q)
    (hkeeps : c.1.Keeps c.2 r xs) : QueueIs q (t.q, t.mem) xs := by
  obtain rfl := ht
  exact ⟨hlayout, r, hkeeps⟩

/-- A call writes an item to the storage only. -/
theorem QueueStore.Keeps.send_frame {q : QueueStore} {m : Mem} {r : ℕ} {xs : List (List UInt8)}
    (h : q.Keeps m r xs) (hs : q.Storage) (src : ℕ) (pos : CopyPosition) {a : ℕ}
    (hclear : q.Clear a 1) : (prvCopyDataToQueue q m src pos).2 a = m a := by
  have hcopy (k : ℕ) : m.memcpy (q.slot (k % q.uxLength)) src q.uxItemSize a = m a := by
    have hapart := hs.slot_clear (Nat.mod_lt k hs.length_pos) hclear
    apply Mem.store_outside
    rw [Mem.length_load]
    omega
  unfold prvCopyDataToQueue
  split
  · rfl
  split
  · rw [h.writeTo]
    exact hcopy _
  · rw [h.readFrom]
    exact hcopy _

/-- The call does what it means to the items, replies so, and writes to the storage and to
its own buffer only. -/
structure Answers (q : QueueLayout) (s : Queue × Mem) (xs : List (List UInt8)) (c : QueueCall) :
    Prop where
  keeps : QueueIs q (queueCall s c).1 (dequeCall q.uxLength xs c).1
  reply : (queueCall s c).2 = (dequeCall q.uxLength xs c).2
  frame : ∀ a, q.Clear a 1 → ¬ c.Buffers q a → (queueCall s c).1.2 a = s.2 a

theorem store_frame {m : Mem} {p a : ℕ} {bs : List UInt8} (h : ¬ (p ≤ a ∧ a < p + bs.length)) :
    m.store p bs a = m a := by
  apply Mem.store_outside
  omega

section

variable {q : Queue} {m : Mem} {r : ℕ} {xs : List (List UInt8)}

theorem answers_send (h : q.Keeps m r xs) (hs : q.Storage) {isr : Bool} {bs : List UInt8}
    {src : ℕ} {pos : CopyPosition}
    (hc : (QueueCall.send isr bs src pos).Allowed q.toQueueLayout) :
    Answers q.toQueueLayout (q, m) xs (.send isr bs src pos) := by
  obtain ⟨hlen, hclear, hone⟩ := hc
  have hput := h.store hs src bs (by rwa [hlen])
  have hload : (m.store src bs).load src q.uxItemSize = bs := by
    rw [← hlen, Mem.load_store_self]
  have hbuf (a : ℕ) (ha : ¬ (QueueCall.send isr bs src pos).Buffers q.toQueueLayout a) :
      m.store src bs a = m a := store_frame (by rwa [hlen])
  have hstore := send_store isr q (m.store src bs) src pos
  rw [h.count] at hstore
  by_cases hroom : xs.length < q.uxLength ∨ pos = .overwrite
  · rw [if_pos hroom, Option.map_eq_some_iff] at hstore
    obtain ⟨t, ht, htouched⟩ := hstore
    obtain ⟨hlayout, ⟨r', hkept⟩, hpass⟩ := hput.send hs hone hroom isr src
    rw [hload] at hkept hpass
    refine ⟨?_, ?_, fun a ha hbuffer => ?_⟩
    · simp only [queueCall, ht]
      exact .of_store htouched hlayout hkept
    · simp only [queueCall, ht, hpass]
    · have hmem : t.mem = _ := congrArg Prod.snd htouched
      simp only [queueCall, ht, hmem]
      rw [hput.send_frame hs src pos ha]
      exact hbuf a hbuffer
  · rw [if_neg hroom, Option.map_eq_none_iff] at hstore
    obtain ⟨hfull, hpos⟩ := not_or.mp hroom
    have hdeque : dequeCall q.uxLength xs (.send isr bs src pos) = (xs, .fail) := by
      cases pos with
      | sendToBack => exact if_neg hfull
      | sendToFront => exact if_neg hfull
      | overwrite => exact absurd rfl hpos
    refine ⟨?_, ?_, fun a _ hbuffer => ?_⟩
    · simp only [queueCall, hstore, hdeque]
      exact ⟨rfl, r, hput⟩
    · simp only [queueCall, hstore, hdeque]
    · simp only [queueCall, hstore]
      exact hbuf a hbuffer

theorem answers_receive (h : q.Keeps m r xs) (hs : q.Storage) {isr : Bool} {dst : ℕ}
    (hclear : q.Clear dst q.uxItemSize) :
    Answers q.toQueueLayout (q, m) xs (.receive isr dst) := by
  have hstore := receive_store isr q m dst
  have hcount : q.uxMessagesWaiting = xs.length := h.count
  cases xs with
  | nil =>
      have hempty : ¬ q.uxMessagesWaiting > 0 := by simp [hcount]
      rw [if_neg hempty, Option.map_eq_none_iff] at hstore
      constructor <;> simp only [queueCall, hstore, dequeCall, implies_true]
      exact ⟨rfl, r, h⟩
  | cons x xs =>
      have hdata : q.uxMessagesWaiting > 0 := by simp [hcount]
      obtain ⟨hlayout, hkept, hmem, hlen⟩ := h.receive hs hclear
      rw [if_pos hdata, Option.map_eq_some_iff] at hstore
      obtain ⟨t, ht, htouched⟩ := hstore
      have htmem : t.mem = m.store dst x := (congrArg Prod.snd htouched).trans hmem
      refine ⟨?_, ?_, fun a _ hbuffer => ?_⟩
      · simp only [queueCall, ht]
        exact .of_store htouched hlayout hkept
      · simp only [queueCall, ht, htmem, ← hlen, Mem.load_store_self, dequeCall]
      · simp only [queueCall, ht, htmem]
        exact store_frame (by rwa [hlen])

theorem answers_peek (h : q.Keeps m r xs) (hs : q.Storage) {isr : Bool} {dst : ℕ}
    (hclear : q.Clear dst q.uxItemSize) :
    Answers q.toQueueLayout (q, m) xs (.peek isr dst) := by
  have hstore := peek_store isr q m dst
  have hcount : q.uxMessagesWaiting = xs.length := h.count
  cases xs with
  | nil =>
      have hempty : ¬ q.uxMessagesWaiting > 0 := by simp [hcount]
      rw [if_neg hempty, Option.map_eq_none_iff] at hstore
      constructor <;> simp only [queueCall, hstore, dequeCall, implies_true]
      exact ⟨rfl, r, h⟩
  | cons x xs =>
      have hdata : q.uxMessagesWaiting > 0 := by simp [hcount]
      obtain ⟨hlayout, hkept, hmem, hlen⟩ := h.peek hs hclear
      rw [if_pos hdata, Option.map_eq_some_iff] at hstore
      obtain ⟨t, ht, htouched⟩ := hstore
      have htmem : t.mem = m.store dst x := (congrArg Prod.snd htouched).trans hmem
      refine ⟨?_, ?_, fun a _ hbuffer => ?_⟩
      · simp only [queueCall, ht]
        exact .of_store htouched hlayout hkept
      · simp only [queueCall, ht, htmem, ← hlen, Mem.load_store_self, dequeCall]
      · simp only [queueCall, ht, htmem]
        exact store_frame (by rwa [hlen])

end

/-- Every call does to the queue, and replies, what it means. -/
theorem QueueIs.call {q : QueueLayout} {s : Queue × Mem} {xs : List (List UInt8)}
    (h : QueueIs q s xs) (hs : q.Storage) {c : QueueCall} (hc : c.Allowed q) :
    Answers q s xs c := by
  obtain ⟨q', m⟩ := s
  obtain ⟨rfl, r, hkeeps⟩ := h
  cases c with
  | send isr bs src pos => exact answers_send hkeeps hs hc
  | receive isr dst => exact answers_receive hkeeps hs hc
  | peek isr dst => exact answers_peek hkeeps hs hc
  | messagesWaiting =>
      exact ⟨⟨rfl, r, hkeeps⟩, congrArg QueueReply.count hkeeps.count, fun _ _ _ => rfl⟩
  | spacesAvailable =>
      have hfits : xs.length ≤ q'.uxLength := hkeeps.fits
      have hlength : q'.uxLength < 4294967296 := hs.length_lt
      have hspaces : uxQueueSpacesAvailable q' = q'.uxLength - xs.length := by
        rw [uxQueueSpacesAvailable, hkeeps.count]
        unfold u32
        omega
      exact ⟨⟨rfl, r, hkeeps⟩, congrArg QueueReply.count hspaces, fun _ _ _ => rfl⟩
  | lock => exact ⟨⟨rfl, r, hkeeps⟩, rfl, fun _ _ _ => rfl⟩
  | unlock => exact ⟨⟨rfl, r, hkeeps⟩, rfl, fun _ _ _ => rfl⟩

/-! ### A queue on the heap -/

end Lpc1768
