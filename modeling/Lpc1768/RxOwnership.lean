/-
Lpc1768/RxOwnership.lean

Ownership of the receive buffers.  `lpc_low_level_input` moves pbufs in three
ways: a good frame is copied to a new pbuf, which goes to the caller; a bad
frame's pbuf is taken out of its slot and queued again; an overrun frees the
pbufs of all slots and fills the ring anew.

The system keeps an account of the pbufs: those that `pbuf_alloc` gave to the
driver, those that a caller holds or has freed again, and (`freed`) those that
the driver freed.  `pbuf_alloc` is taken to succeed, and to give memory that is
not in use.

`rx_ownership` says that each pbuf is in one place: one in each slot of the
ring, the others with the callers or freed once.
-/
import Mathlib.Algebra.Order.Group.Multiset
import Mathlib.Data.List.TakeWhile
import Mathlib.Tactic.Abel
import Lpc1768.RxCapacity

namespace Lpc1768

/-! ### The ring -/

/-- The pbufs in the slots. -/
def RxDrv.ring (d : RxDrv) : List ℕ :=
  (List.range emacNumRxFrag).filterMap fun k => (d.rxb k).map Pbuf.addr

/-- Between two calls every slot has a pbuf of its own, whose payload is in the
descriptor, and the two software counters are at rest. -/
structure RxOwned (d : RxDrv) : Prop where
  slots : ∀ k < emacNumRxFrag, ∃ b, d.rxb k = some b ∧ (d.prxd k).packet = b.payload
  distinct : d.ring.Nodup
  free : d.rxdescfree = 0
  next : d.rxdescnextindex = d.rxConsumeIndex

/-! ### The system -/

/-- The pbufs that `lpc_rx_setup` gets, up to the first failure. -/
def setupAllocs (heap : ℕ → Option (ℕ × ℕ)) : List ℕ :=
  (((List.range emacNumRxFrag).map heap).takeWhile Option.isSome).filterMap (·.map Prod.fst)

/-- The pbufs that a call of `lpc_low_level_input` gets. -/
def inputAllocs (d : RxDrv) (intStatus : BitVec 32) (heap : Option (ℕ × ℕ))
    (restart : ℕ → Option (ℕ × ℕ)) : List ℕ :=
  if rxOverrun intStatus then setupAllocs restart
  else if isRxEmpty d then []
  else if rxError (d.prxs (u8 d.rxConsumeIndex)).info then []
  else (heap.map Prod.fst).toList

/-- `allocated` are the pbufs that the driver got from `pbuf_alloc`, `held` those
that were returned and not freed yet, `released` those that were returned and
freed by their receiver. -/
structure PoolSys where
  drv : RxDrv
  allocated : List ℕ
  held : List ℕ
  released : List ℕ

inductive PoolAct
  /-- the hardware receives, or is reset -/
  | hardware (produce : ℕ) (prxs : ℕ → RxStat) (mem : Mem)
  /-- `lpc_low_level_input` is called -/
  | input (intStatus : BitVec 32) (heap : Option (ℕ × ℕ)) (restart : ℕ → Option (ℕ × ℕ))
  /-- a pbuf that was returned is freed by its receiver -/
  | release (p : ℕ)

def poolStep (s : PoolSys) : PoolAct → Option PoolSys
  | .hardware produce prxs mem =>
      some { s with drv := { s.drv with rxProduceIndex := produce, prxs := prxs, mem := mem } }
  | .input intStatus heap restart =>
      (lpcLowLevelInput s.drv intStatus heap restart).map fun r =>
        { s with
          drv := r.1
          allocated := s.allocated ++ inputAllocs s.drv intStatus heap restart
          held := s.held ++ (r.2.map Pbuf.addr).toList }
  | .release p =>
      if p ∈ s.held then some { s with held := s.held.erase p, released := s.released ++ [p] }
      else none

/-- `lpc_rx_setup` has run. -/
def PoolSys.start (d : RxDrv) (heap : ℕ → Option (ℕ × ℕ)) : PoolSys where
  drv := (lpcRxSetup { d with freed := [] } heap).1
  allocated := setupAllocs heap
  held := []
  released := []

/-- The pbufs in use, as the allocator sees them. -/
def inUse (allocated freed released : List ℕ) : Multiset ℕ := ↑allocated - ↑freed - ↑released

def PoolSys.live (s : PoolSys) : Multiset ℕ := inUse s.allocated s.drv.freed s.released

/-- `pbuf_alloc` succeeds, with pbufs that are not in use.  A restart has freed
the old ones before it allocates. -/
def PoolAssumed (s : PoolSys) : PoolAct → PoolSys → Prop
  | .input intStatus heap restart, t =>
      heap.isSome ∧ (∀ k < emacNumRxFrag, (restart k).isSome) ∧
        (inputAllocs s.drv intStatus heap restart).Nodup ∧
        ∀ x ∈ inputAllocs s.drv intStatus heap restart,
          x ∉ inUse s.allocated t.drv.freed s.released
  | _, _ => True

instance (s : PoolSys) (a : PoolAct) (t : PoolSys) : Decidable (PoolAssumed s a t) := by
  cases a <;> unfold PoolAssumed <;> infer_instance

/-! ### The property -/

/-- The ring's pbufs are in use and not with a caller; every pbuf that was
allocated is in the ring, with a caller, or has been freed once; and the driver
can be called again. -/
structure RxOwnership (s : PoolSys) : Prop where
  ring : RxOwned s.drv
  live : ∀ x ∈ s.drv.ring, x ∈ s.live
  apart : ∀ x ∈ s.held, x ∉ s.drv.ring
  ledger : s.allocated.Perm (s.drv.ring ++ s.held ++ (s.drv.freed ++ s.released))
  returns : ∀ intStatus heap restart, heap.isSome →
    (poolStep s (.input intStatus heap restart)).isSome

/-! ### The ring after a step -/

/-- Only the pbufs themselves matter, not their lengths. -/
theorem ring_congr {d e : RxDrv}
    (h : ∀ k < emacNumRxFrag, (e.rxb k).map Pbuf.addr = (d.rxb k).map Pbuf.addr) :
    e.ring = d.ring :=
  List.filterMap_congr fun k hk => h k (List.mem_range.mp hk)

/-- A ring that `lpc_rx_setup` has filled has the pbufs that it got. -/
theorem RxQueued.ring {heap : ℕ → Option (ℕ × ℕ)} {d : RxDrv}
    (h : RxQueued heap d emacNumRxFrag) : d.ring = setupAllocs heap := by
  have hall : ∀ o ∈ (List.range emacNumRxFrag).map heap, o.isSome = true := by
    intro o ho
    obtain ⟨k, hk, rfl⟩ := List.mem_map.mp ho
    obtain ⟨a, ha, -, -⟩ := h.slots k (List.mem_range.mp hk)
    rw [ha]
    rfl
  unfold setupAllocs
  rw [List.takeWhile_eq_self_iff.mpr hall, List.filterMap_map]
  apply List.filterMap_congr
  intro k hk
  obtain ⟨a, ha, hb, -⟩ := h.slots k (List.mem_range.mp hk)
  show (d.rxb k).map Pbuf.addr = (heap k).map Prod.fst
  rw [ha, hb]
  rfl

theorem RxQueued.packet {heap : ℕ → Option (ℕ × ℕ)} {d : RxDrv}
    (h : RxQueued heap d emacNumRxFrag) :
    ∀ k < emacNumRxFrag, ∀ b ∈ d.rxb k, (d.prxd k).packet = b.payload := by
  intro k hk b hb
  obtain ⟨a, -, hb', hd⟩ := h.slots k hk
  obtain rfl := Option.mem_unique hb' hb
  rw [hd]
  rfl

/-- A restart frees the pbufs of all slots. -/
theorem rxRestart_freed (d : RxDrv) (heap : ℕ → Option (ℕ × ℕ)) :
    (rxRestart d heap).freed = d.freed ++ d.ring := by
  have hring : d.ring = ((List.range emacNumRxFrag).filterMap d.rxb).map Pbuf.addr :=
    List.map_filterMap.symm
  rw [(rxRestart_control d heap).2.2, hring]

/-- The error branch gives the free descriptor back. -/
theorem rxRequeue_descfree {d e : RxDrv} {idx : ℕ} {p : Option Pbuf} (h : d.rxdescfree = 0)
    (hcall : rxRequeue d idx = some (e, p)) : e.rxdescfree = 0 := by
  unfold rxRequeue at hcall
  dsimp only at hcall
  split at hcall
  · cases hcall
  · obtain rfl := congrArg Prod.fst (Option.some.inj hcall)
    show u8 ((u8 ((d.rxdescfree : ℤ) + 1) : ℕ) - 1) = 0
    rw [h]
    decide

/-! ### The account -/

/-- The ring is ready and at rest, and each pbuf is in one place. -/
structure PoolInv (s : PoolSys) : Prop where
  ready : RxReady s.drv
  packet : ∀ k < emacNumRxFrag, ∀ b ∈ s.drv.rxb k, (s.drv.prxd k).packet = b.payload
  free : s.drv.rxdescfree = 0
  distinct : (s.drv.ring ++ s.held).Nodup
  ledger : s.allocated.Perm (s.drv.ring ++ s.held ++ (s.drv.freed ++ s.released))

/-- What is neither freed nor released is in use. -/
theorem inUse_of_ledger {allocated own freed released : List ℕ}
    (h : allocated.Perm (own ++ (freed ++ released))) : inUse allocated freed released = ↑own := by
  unfold inUse
  rw [Multiset.coe_eq_coe.mpr h, ← Multiset.coe_add, ← Multiset.coe_add, tsub_tsub,
    add_tsub_cancel_right]

theorem PoolInv.ownership {s : PoolSys} (h : PoolInv s) : RxOwnership s where
  ring := by
    refine ⟨fun k hk => ?_, h.distinct.of_append_left, h.free, h.ready.next⟩
    obtain ⟨b, hb⟩ := h.ready.slots k hk
    exact ⟨b, hb, h.packet k hk b hb⟩
  live := by
    intro x hx
    show x ∈ inUse s.allocated s.drv.freed s.released
    rw [inUse_of_ledger h.ledger]
    exact List.mem_append_left _ hx
  apart := by
    intro x hx hring
    exact List.disjoint_of_nodup_append h.distinct hring hx
  ledger := h.ledger
  returns := by
    intro intStatus heap restart hheap
    simp only [poolStep, Option.isSome_map]
    rcases h.ready.input_cases intStatus heap restart with ⟨-, hcall⟩ | ⟨-, -, hcall⟩ |
      ⟨-, -, -, b, free, -, hcall⟩ | ⟨-, -, -, rfl, -⟩ | ⟨-, -, -, a, b, -, -, hcall⟩
    · rw [hcall]
      rfl
    · rw [hcall]
      rfl
    · rw [hcall]
      rfl
    · cases hheap
    · rw [hcall]
      rfl

theorem poolInv_start (d : RxDrv) (heap : ℕ → Option (ℕ × ℕ))
    (hsetup : (lpcRxSetup { d with freed := [] } heap).2 = .ok)
    (hfresh : (setupAllocs heap).Nodup) :
    PoolInv (.start d heap) := by
  have hq := (lpcRxSetup_spec { d with freed := [] } heap).1 hsetup
  have hfreed : (lpcRxSetup { d with freed := [] } heap).1.freed = [] :=
    (lpcRxSetup_control { d with freed := [] } heap).2.2
  have hring : (PoolSys.start d heap).drv.ring = setupAllocs heap := hq.ring
  refine ⟨hq.ready, hq.packet, hq.free, ?_, ?_⟩
  · rw [hring]
    exact (List.append_nil _).symm ▸ hfresh
  · show (setupAllocs heap).Perm (_ ++ [] ++ ((lpcRxSetup _ heap).1.freed ++ []))
    rw [hring, hfreed]
    simp

/-! ### One step -/

/-- New pbufs join what is in use. -/
theorem nodup_append_new {own new freed released : List ℕ} {allocated : List ℕ}
    (hown : own.Nodup) (hnew : new.Nodup) (hledger : allocated.Perm (own ++ (freed ++ released)))
    (hfresh : ∀ x ∈ new, x ∉ inUse allocated freed released) : (own ++ new).Nodup := by
  rw [inUse_of_ledger hledger] at hfresh
  exact List.nodup_append'.mpr ⟨hown, hnew, fun x hx hx' => hfresh x hx' hx⟩

/-- **The error branch** moves no pbuf. -/
theorem PoolInv.requeue {s : PoolSys} (h : PoolInv s) {b : Pbuf} {free : ℕ}
    (hb : s.drv.rxb s.drv.rxConsumeIndex = some b) (hfree : free = 0) :
    PoolInv { s with
      drv := { s.drv.advance with
        prxd := Function.update s.drv.prxd s.drv.rxConsumeIndex (rxDesc b)
        rxdescfree := free } } where
  ready := ⟨h.ready.number, Nat.mod_lt _ (by decide), rfl, h.ready.slots⟩
  packet := by
    intro k hk b' hb'
    rcases eq_or_ne k s.drv.rxConsumeIndex with rfl | hne
    · obtain rfl := Option.mem_unique hb hb'
      simp only [Function.update_self]
      rfl
    · simp only [Function.update_of_ne hne]
      exact h.packet k hk b' hb'
  free := hfree
  distinct := h.distinct
  ledger := h.ledger

/-- **The good branch** hands the new pbuf to the caller; the slot keeps its own. -/
theorem PoolInv.copy {s : PoolSys} (h : PoolInv s) {b : Pbuf} (a n : ℕ) (mem : Mem)
    (hb : s.drv.rxb s.drv.rxConsumeIndex = some b)
    (hfresh : a ∉ inUse s.allocated s.drv.freed s.released) :
    PoolInv { s with
      drv := { s.drv.advance with
        rxb := Function.update s.drv.rxb s.drv.rxConsumeIndex
          (some { b with len := n, totLen := n })
        mem := mem }
      allocated := s.allocated ++ [a]
      held := s.held ++ [a] } := by
  have hring : RxDrv.ring { s.drv.advance with
      rxb := Function.update s.drv.rxb s.drv.rxConsumeIndex (some { b with len := n, totLen := n })
      mem := mem } = s.drv.ring := by
    apply ring_congr
    intro k hk
    rcases eq_or_ne k s.drv.rxConsumeIndex with rfl | hne
    · simp only [Function.update_self, hb]
      rfl
    · simp only [Function.update_of_ne hne]
  refine ⟨⟨h.ready.number, Nat.mod_lt _ (by decide), rfl, fun k hk => ?_⟩, ?_, h.free, ?_, ?_⟩
  · rcases eq_or_ne k s.drv.rxConsumeIndex with rfl | hne
    · exact ⟨_, Function.update_self _ _ _⟩
    · obtain ⟨b, hb⟩ := h.ready.slots k hk
      exact ⟨b, (Function.update_of_ne hne _ _).trans hb⟩
  · intro k hk b' hb'
    rcases eq_or_ne k s.drv.rxConsumeIndex with rfl | hne
    · simp only [Function.update_self, Option.mem_some_iff] at hb'
      subst hb'
      exact h.packet _ hk b hb
    · simp only [Function.update_of_ne hne] at hb'
      exact h.packet k hk b' hb'
  · rw [hring, ← List.append_assoc]
    exact nodup_append_new h.distinct (List.nodup_singleton a) h.ledger (by simpa using hfresh)
  · rw [hring]
    -- the new pbuf goes behind what is held
    refine (h.ledger.append_right [a]).trans ?_
    show (s.drv.ring ++ s.held ++ (s.drv.freed ++ s.released) ++ [a]).Perm
      (s.drv.ring ++ (s.held ++ [a]) ++ (s.drv.freed ++ s.released))
    rw [List.append_assoc (s.drv.ring ++ s.held), ← List.append_assoc s.drv.ring s.held [a],
      List.append_assoc (s.drv.ring ++ s.held) [a]]
    exact List.perm_append_comm.append_left _

/-- **The restart** frees the pbufs of the ring and fills it with new ones. -/
theorem PoolInv.restart {s : PoolSys} (h : PoolInv s) {heap : ℕ → Option (ℕ × ℕ)}
    (hheap : ∀ k < emacNumRxFrag, (heap k).isSome) (hnew : (setupAllocs heap).Nodup)
    (hfresh : ∀ x ∈ setupAllocs heap,
      x ∉ inUse s.allocated (rxRestart s.drv heap).freed s.released) :
    PoolInv { s with
      drv := rxRestart s.drv heap
      allocated := s.allocated ++ setupAllocs heap } := by
  have hq := rxRestart_queued s.drv hheap
  have hring := hq.ring
  -- after the frees only the callers' pbufs are in use
  have hledger : s.allocated.Perm (s.held ++ ((rxRestart s.drv heap).freed ++ s.released)) := by
    rw [rxRestart_freed]
    refine h.ledger.trans ?_
    rw [← Multiset.coe_eq_coe]
    simp only [← Multiset.coe_add]
    abel
  have hdisjoint := nodup_append_new h.distinct.of_append_right hnew hledger hfresh
  refine ⟨hq.ready, hq.packet, hq.free, ?_, ?_⟩
  · rw [hring]
    exact List.nodup_append_comm.mp hdisjoint
  · rw [hring]
    refine (hledger.append_right _).trans ?_
    rw [← Multiset.coe_eq_coe]
    simp only [← Multiset.coe_add]
    abel

theorem PoolInv.step {s t : PoolSys} {a : PoolAct} (h : PoolInv s) (hstep : poolStep s a = some t)
    (ha : PoolAssumed s a t) : PoolInv t := by
  cases a with
  | hardware produce prxs mem =>
      obtain rfl := Option.some.inj hstep
      exact ⟨⟨h.ready.number, h.ready.consume, h.ready.next, h.ready.slots⟩, h.packet, h.free,
        h.distinct, h.ledger⟩
  | release p =>
      obtain ⟨hp, rfl⟩ := of_guard hstep
      refine ⟨h.ready, h.packet, h.free, ?_, ?_⟩
      · exact h.distinct.sublist ((List.erase_sublist).append_left _)
      · refine h.ledger.trans ?_
        have hheld : s.held.Perm (p :: s.held.erase p) := List.perm_cons_erase hp
        rw [← Multiset.coe_eq_coe] at hheld ⊢
        simp only [← Multiset.coe_add, hheld, ← Multiset.cons_coe, ← Multiset.singleton_add]
        abel
  | input intStatus heap restart =>
      obtain ⟨-, hrestart, hnew, hfresh⟩ := ha
      have hidx : u8 s.drv.rxConsumeIndex = s.drv.rxConsumeIndex :=
        u8_of_lt (Nat.lt_trans h.ready.consume (by decide))
      simp only [poolStep] at hstep
      rcases h.ready.input_cases intStatus heap restart with ⟨ho, hcall⟩ | ⟨ho, he, hcall⟩ |
        ⟨ho, he, hx, b, free, hb, hcall⟩ | ⟨-, -, -, -, hcall⟩ | ⟨ho, he, hx, a, b, rfl, hb, hcall⟩
      · have hallocs : inputAllocs s.drv intStatus heap restart = setupAllocs restart := if_pos ho
        rw [hcall] at hstep
        obtain rfl := Option.some.inj hstep
        rw [hallocs] at hnew hfresh ⊢
        simpa using h.restart hrestart hnew hfresh
      · have hallocs : inputAllocs s.drv intStatus heap restart = [] := by
          simp [inputAllocs, ho, he]
        rw [hcall] at hstep
        obtain rfl := Option.some.inj hstep
        rw [hallocs]
        simpa using h
      · have hallocs : inputAllocs s.drv intStatus heap restart = [] := by
          simp [inputAllocs, ho, he, hidx, hx]
        have hbranch : lpcLowLevelInput s.drv intStatus heap restart =
            rxRequeue s.drv s.drv.rxConsumeIndex := by
          simp [lpcLowLevelInput, ho, he, hidx, hx]
        have hfree : free = 0 := rxRequeue_descfree h.free (hbranch.symm.trans hcall)
        rw [hcall] at hstep
        obtain rfl := Option.some.inj hstep
        rw [hallocs]
        simpa using h.requeue hb hfree
      · rw [hcall] at hstep
        cases hstep
      · have hallocs : inputAllocs s.drv intStatus (some a) restart = [a.1] := by
          simp [inputAllocs, ho, he, hidx, hx]
        rw [hcall] at hstep
        obtain rfl := Option.some.inj hstep
        rw [hallocs] at hfresh ⊢
        exact h.copy a.1 _ _ hb (hfresh a.1 (List.mem_singleton_self _))

/-! ### Runs -/

/-- **Each pbuf is in one place, in every state reached**: one in each slot, the
others with the callers or freed once. -/
theorem rx_ownership (d : RxDrv) (heap : ℕ → Option (ℕ × ℕ)) (acts : List PoolAct)
    (hsetup : (lpcRxSetup { d with freed := [] } heap).2 = .ok)
    (hfresh : (setupAllocs heap).Nodup)
    (hassumed : Along poolStep PoolAssumed (.start d heap) acts) :
    RxOwnership (.start d heap) ∧
      Along poolStep (fun _ _ t => RxOwnership t) (.start d heap) acts := by
  have hstart := poolInv_start d heap hsetup hfresh
  refine ⟨hstart.ownership, Along.of_invariant ?_ hstart hassumed⟩
  intro s a t h hstep ha
  have ht := h.step hstep ha
  exact ⟨ht.ownership, ht⟩

/-- A good and a bad frame are taken, an overrun restarts the ring with the
memory just freed, and the packet is freed by its receiver. -/
def poolMix : List PoolAct :=
  [.hardware 2 (fun k => if k = 0 then ⟨63, 0⟩ else ⟨63 ||| emacRinfoCrcErr, 0⟩) fun _ => 7,
    .input 0 (rxHeap 4) rxHeap, .input 0 (rxHeap 5) rxHeap,
    .input emacIntRxOverrun (rxHeap 5) rxHeap, .release 4]

theorem rx_ownership_mix :
    (List.foldlM poolStep (.start rxDrvZero rxHeap) poolMix).isSome ∧
      RxOwnership (.start rxDrvZero rxHeap) ∧
      Along poolStep (fun _ _ t => RxOwnership t) (.start rxDrvZero rxHeap) poolMix :=
  ⟨by decide +kernel,
    rx_ownership rxDrvZero rxHeap poolMix (by decide +kernel) (by decide +kernel)
      (by decide +kernel)⟩

end Lpc1768
