/-
Lpc1768/Critical.lean

Kernel critical sections.  `vPortEnterCritical` raises `BASEPRI` to
`configMAX_SYSCALL_INTERRUPT_PRIORITY` and counts; `vPortExitCritical` counts
down and clears `BASEPRI` when the count is back at 0.  While the count is
positive, no handler should start that calls the kernel.

The system is one processor: the task level, which enters and leaves critical
sections one machine step at a time, the interrupt requests, and the stack of
active handlers.  An interrupt is taken if it is pending and enabled, not
masked by `BASEPRI`, and of higher priority than every active handler.

`ENET_IRQn` has priority 88 and is masked at 80; `UART0_IRQn` has priority 40
and is not.  So the exclusion holds in exactly those states where UART0 has
no request to serve (`excluded_iff`), and `kernel_excluded_iff` is the
statement for runs.
-/
import Mathlib.Logic.Function.Basic
import Mathlib.Data.List.Basic
import Lpc1768.Machine
import Lpc1768.Transition

namespace Lpc1768

/-! ### Priorities -/

def nvicPrioBits : ℕ := 5
def configLibraryMaxSyscallInterruptPriority : ℕ := 10
def configKernelInterruptPriority : ℕ := 31 <<< (8 - nvicPrioBits)
def configMaxSyscallInterruptPriority : ℕ :=
  configLibraryMaxSyscallInterruptPriority <<< (8 - nvicPrioBits)

/-- The priority byte that `NVIC_SetPriority` writes. -/
def nvicSetPriority (priority : ℕ) : ℕ := (priority <<< (8 - nvicPrioBits)) &&& 0xFF

/-- The interrupts in use. -/
inductive Irq
  | uart0 | enet | sysTick | pendSV
  deriving DecidableEq, Repr

/-- The priorities as `vUartInit`, `low_level_init` and `xPortStartScheduler`
set them. -/
def Irq.priority : Irq → ℕ
  -- above the level that `BASEPRI` masks, though its handler calls the kernel
  | .uart0 => nvicSetPriority 5
  | .enet => nvicSetPriority (configLibraryMaxSyscallInterruptPriority + 1)
  | .sysTick | .pendSV => configKernelInterruptPriority

/-- The handlers that call a `FromISR` function of the kernel. -/
def Irq.callsFromISR : Irq → Bool
  | .uart0 | .enet => true
  | .sysTick | .pendSV => false

/-! ### The processor -/

/-- Where the task level is: outside the two functions, between
`portDISABLE_INTERRUPTS` and the count in `vPortEnterCritical`, or between the
count and the test in `vPortExitCritical`. -/
inductive CritPc
  | run | raised | counted
  deriving DecidableEq, Repr

/-- An active handler, and the value of `BASEPRI` that it saved if it is inside
a masked section. -/
structure Handler where
  irq : Irq
  saved : Option ℕ
  deriving DecidableEq, Repr

/-- The handlers are listed innermost first. -/
structure CritSys where
  basepri : ℕ
  uxCriticalNesting : ℕ
  pc : CritPc
  enabled : Irq → Bool
  pending : Irq → Bool
  handlers : List Handler

/-- The scheduler has been started. -/
def CritSys.start : CritSys where
  basepri := 0
  uxCriticalNesting := 0
  pc := .run
  enabled := fun _ => true
  pending := fun _ => false
  handlers := []

/-- The interrupt is taken. -/
def CritSys.canStart (s : CritSys) (i : Irq) : Bool :=
  s.pending i && s.enabled i && (s.basepri = 0 || i.priority < s.basepri) &&
    s.handlers.all fun h => i.priority < h.irq.priority

inductive CritAct
  /-- a task calls `vPortEnterCritical`: `portDISABLE_INTERRUPTS` -/
  | enterRaise
  /-- `uxCriticalNesting++` -/
  | enterCount
  /-- a task calls `vPortExitCritical`: `uxCriticalNesting--` -/
  | exitCount
  /-- `portENABLE_INTERRUPTS` if the count is 0 -/
  | exitLower
  /-- a task enables or disables an interrupt in the NVIC -/
  | setEnabled (i : Irq) (on : Bool)
  /-- an interrupt request arrives -/
  | arrive (i : Irq)
  /-- the processor takes an interrupt -/
  | start (i : Irq)
  /-- the active handler masks interrupts for a call of the kernel -/
  | mask
  /-- it unmasks them: a `FromISR` call restores `BASEPRI`, the tick and the
  context switch clear it -/
  | unmask
  /-- the active handler returns -/
  | finish
  deriving DecidableEq, Repr

def critStep (s : CritSys) : CritAct → Option CritSys
  | .enterRaise =>
      if s.handlers = [] ∧ s.pc = .run then
        some { s with basepri := configMaxSyscallInterruptPriority, pc := .raised }
      else none
  | .enterCount =>
      if s.handlers = [] ∧ s.pc = .raised then
        some { s with uxCriticalNesting := u32 (s.uxCriticalNesting + 1), pc := .run }
      else none
  | .exitCount =>
      if s.handlers = [] ∧ s.pc = .run ∧ 0 < s.uxCriticalNesting then
        some { s with uxCriticalNesting := u32 (s.uxCriticalNesting - 1), pc := .counted }
      else none
  | .exitLower =>
      if s.handlers = [] ∧ s.pc = .counted then
        some { s with basepri := if s.uxCriticalNesting = 0 then 0 else s.basepri, pc := .run }
      else none
  | .setEnabled i on =>
      if s.handlers = [] then some { s with enabled := Function.update s.enabled i on }
      else none
  | .arrive i => some { s with pending := Function.update s.pending i true }
  | .start i =>
      if s.canStart i then
        some { s with
          pending := Function.update s.pending i false
          handlers := { irq := i, saved := none } :: s.handlers }
      else none
  | .mask =>
      match s.handlers with
      | { irq := i, saved := none } :: hs =>
          some { s with
            basepri := configMaxSyscallInterruptPriority
            handlers := { irq := i, saved := some s.basepri } :: hs }
      | _ => none
  | .unmask =>
      match s.handlers with
      | { irq := i, saved := some b } :: hs =>
          some { s with
            -- only a `FromISR` call puts back what it found
            basepri := if i.callsFromISR then b else 0
            handlers := { irq := i, saved := none } :: hs }
      | _ => none
  | .finish =>
      match s.handlers with
      | { irq := _, saved := none } :: hs => some { s with handlers := hs }
      | _ => none

/-! ### The property and the condition -/

/-- No handler that calls the kernel starts inside a critical section. -/
def NoKernelStart (s : CritSys) : CritAct → CritSys → Prop
  | .start i, _ => i.callsFromISR = true → s.uxCriticalNesting = 0
  | _, _ => True

instance (s : CritSys) (a : CritAct) (t : CritSys) : Decidable (NoKernelStart s a t) := by
  cases a <;> unfold NoKernelStart <;> infer_instance

/-- In this state no handler that calls the kernel can start inside a critical
section. -/
def KernelExcluded (s : CritSys) : Prop :=
  0 < s.uxCriticalNesting → ∀ i : Irq, i.callsFromISR = true → s.canStart i = false

/-- Inside a critical section, and outside handlers, UART0 has no request to
serve. -/
def UartQuiet (s : CritSys) : Prop :=
  0 < s.uxCriticalNesting → s.handlers = [] →
    (s.pending .uart0 && s.enabled .uart0) = false

instance (s : CritSys) : Decidable (UartQuiet s) := by
  unfold UartQuiet; infer_instance

/-! ### The invariant -/

/-- The task level is inside a critical section, or about to be. -/
def CritSys.inside (s : CritSys) : Prop := 0 < s.uxCriticalNesting ∨ s.pc = .raised

/-- Inside a critical section `BASEPRI` is raised, and the only handlers active
are those of UART0, which restore it. -/
structure CritInv (s : CritSys) : Prop where
  raised : s.inside → s.basepri = configMaxSyscallInterruptPriority
  uart : s.inside → ∀ h ∈ s.handlers,
    h.irq = .uart0 ∧ ∀ b ∈ h.saved, b = configMaxSyscallInterruptPriority

theorem critInv_start : CritInv .start where
  raised := by
    rintro (h | h)
    · cases h
    · cases h
  uart := fun _ h hh => nomatch hh

/-- **At the raised level only UART0 is taken.** -/
theorem canStart_raised {s : CritSys} (h : s.basepri = configMaxSyscallInterruptPriority)
    {i : Irq} (hi : s.canStart i = true) : i = .uart0 := by
  simp only [CritSys.canStart, h, Bool.and_eq_true, Bool.or_eq_true, decide_eq_true_eq] at hi
  obtain ⟨⟨-, hprio⟩, -⟩ := hi
  cases i with
  | uart0 => rfl
  | enet => exact absurd hprio (by decide)
  | sysTick => exact absurd hprio (by decide)
  | pendSV => exact absurd hprio (by decide)

/-- A step of the task level. -/
theorem CritInv.of_task {t : CritSys} (hnil : t.handlers = [])
    (h : t.inside → t.basepri = configMaxSyscallInterruptPriority) : CritInv t where
  raised := h
  uart := by
    intro _ x hx
    rw [hnil] at hx
    cases hx

/-- A step that changes the innermost handler and `BASEPRI`, but neither the
count nor the task level. -/
theorem CritInv.of_handler {s : CritSys} (h : CritInv s) {x : Handler} {hs : List Handler}
    (basepri : ℕ) (pending : Irq → Bool) (hsub : ∀ y ∈ hs, y ∈ s.handlers)
    (hx : s.inside → basepri = configMaxSyscallInterruptPriority ∧ x.irq = .uart0 ∧
      ∀ b ∈ x.saved, b = configMaxSyscallInterruptPriority) :
    CritInv { s with basepri := basepri, pending := pending, handlers := x :: hs } where
  raised := fun hin => (hx hin).1
  uart := by
    intro hin y hy
    rcases List.mem_cons.mp hy with rfl | hy
    · exact (hx hin).2
    · exact h.uart hin y (hsub y hy)

theorem CritInv.step {s t : CritSys} {a : CritAct} (h : CritInv s)
    (hstep : critStep s a = some t) : CritInv t := by
  cases a with
  | enterRaise =>
      obtain ⟨hg, rfl⟩ := of_guard hstep
      exact .of_task hg.1 fun _ => rfl
  | enterCount =>
      obtain ⟨hg, rfl⟩ := of_guard hstep
      exact .of_task hg.1 fun _ => h.raised (.inr hg.2)
  | exitCount =>
      obtain ⟨hg, rfl⟩ := of_guard hstep
      exact .of_task hg.1 fun _ => h.raised (.inl hg.2.2)
  | exitLower =>
      obtain ⟨hg, rfl⟩ := of_guard hstep
      refine .of_task hg.1 fun hin => ?_
      -- `BASEPRI` is cleared only where the count is 0
      rcases hin with hpos | hpc
      · show (if s.uxCriticalNesting = 0 then 0 else s.basepri) = _
        rw [if_neg (Nat.ne_of_gt hpos)]
        exact h.raised (.inl hpos)
      · cases hpc
  | setEnabled i on =>
      obtain ⟨hg, rfl⟩ := of_guard hstep
      exact .of_task hg h.raised
  | arrive i =>
      obtain rfl := Option.some.inj hstep
      exact ⟨h.raised, h.uart⟩
  | start i =>
      obtain ⟨hcan, rfl⟩ := of_guard hstep
      refine h.of_handler _ _ (fun _ hy => hy) fun hin => ?_
      exact ⟨h.raised hin, canStart_raised (h.raised hin) hcan, fun b hb => nomatch hb⟩
  | mask =>
      simp only [critStep] at hstep
      split at hstep
      next i hs hhs =>
        obtain rfl := Option.some.inj hstep
        have hmem : { irq := i, saved := none } ∈ s.handlers := by
          rw [hhs]
          exact List.mem_cons_self
        refine h.of_handler _ _ (fun y hy => by rw [hhs]; exact List.mem_cons_of_mem _ hy)
          fun hin => ⟨rfl, (h.uart hin _ hmem).1, ?_⟩
        · rintro b hb
          obtain rfl := Option.some.inj hb
          exact h.raised hin
      next => cases hstep
  | unmask =>
      simp only [critStep] at hstep
      split at hstep
      next i b hs hhs =>
        obtain rfl := Option.some.inj hstep
        refine h.of_handler _ _ (fun y hy => by rw [hhs]; exact List.mem_cons_of_mem _ hy)
          fun hin => ?_
        obtain ⟨rfl, hsaved⟩ := h.uart hin _ (by rw [hhs]; exact List.mem_cons_self)
        exact ⟨hsaved b rfl, rfl, fun b hb => nomatch hb⟩
      next => cases hstep
  | finish =>
      simp only [critStep] at hstep
      split at hstep
      next i hs hhs =>
        obtain rfl := Option.some.inj hstep
        refine ⟨h.raised, fun hin y hy => h.uart hin y ?_⟩
        rw [hhs]
        exact List.mem_cons_of_mem _ hy
      next => cases hstep

/-! ### States and runs -/

/-- **In every state, kernel-calling handlers are excluded from critical
sections iff UART0 has no request to serve there.** -/
theorem CritInv.excluded_iff {s : CritSys} (h : CritInv s) : KernelExcluded s ↔ UartQuiet s := by
  constructor
  · intro hex hpos hnil
    have hcan := hex hpos .uart0 rfl
    have hbase := h.raised (.inl hpos)
    simpa [CritSys.canStart, hbase, hnil, configMaxSyscallInterruptPriority,
      configLibraryMaxSyscallInterruptPriority, nvicPrioBits, Irq.priority, nvicSetPriority]
      using hcan
  · intro hquiet hpos i hi
    by_contra hcan
    rw [Bool.not_eq_false] at hcan
    obtain rfl := canStart_raised (h.raised (.inl hpos)) hcan
    simp only [CritSys.canStart, Bool.and_eq_true] at hcan
    obtain ⟨⟨hreq, -⟩, hall⟩ := hcan
    -- a handler that is active already is that of UART0 itself
    rcases hhs : s.handlers with - | ⟨x, hs⟩
    · have := hquiet hpos hhs
      simp [hreq] at this
    · have hx := (h.uart (.inl hpos) x (by rw [hhs]; exact List.mem_cons_self)).1
      rw [hhs, List.all_cons, hx] at hall
      simp at hall

/-- **Throughout a run no handler that calls the kernel can start in a critical
section iff UART0 has no request to serve there**; and in such a run none
starts. -/
theorem kernel_excluded_iff (acts : List CritAct) :
    (Along critStep (fun _ _ t => KernelExcluded t) .start acts ↔
        Along critStep (fun _ _ t => UartQuiet t) .start acts) ∧
      (Along critStep (fun _ _ t => UartQuiet t) .start acts →
        Along critStep NoKernelStart .start acts) := by
  refine ⟨along_iff ?_ ?_ critInv_start, fun hquiet => ?_⟩
  · intro s a t h hstep
    exact (h.step hstep).excluded_iff
  · intro s a t h hstep _
    exact h.step hstep
  · refine Along.of_invariant (I := fun s => CritInv s ∧ UartQuiet s) ?_
      ⟨critInv_start, fun hpos => absurd hpos (by decide)⟩ hquiet
    rintro s a t ⟨h, hs⟩ hstep ht
    refine ⟨?_, h.step hstep, ht⟩
    cases a with
    | start i =>
        intro hi
        by_contra hne
        have hcan := h.excluded_iff.mpr hs (Nat.pos_of_ne_zero hne) i hi
        simp [critStep, hcan] at hstep
    | _ => trivial

/-- A UART0 request inside a critical section is taken at once. -/
theorem uart_in_critical_section :
    ¬ Along critStep NoKernelStart .start [.enterRaise, .enterCount, .arrive .uart0, .start .uart0] ∧
      ¬ Along critStep (fun _ _ t => UartQuiet t) .start
        [.enterRaise, .enterCount, .arrive .uart0, .start .uart0] := by
  decide

end Lpc1768
