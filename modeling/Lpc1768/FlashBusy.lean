/-
Lpc1768/FlashBusy.lean

Interrupts during flash programming.  While the boot ROM erases or writes, the
flash cannot be read, and the vectors and the handlers are in the flash.  So no
handler should be entered between the start and the completion of these
commands.

`vDeviceInfoSave` runs in a task, outside critical sections, and nothing on its
way to the ROM masks an interrupt; so a handler can be entered as soon as one
enabled interrupt has a request (`flash_excluded_iff`).  The processor and its
interrupts are those of the critical sections.
-/
import Lpc1768.BootRecord
import Lpc1768.Critical

namespace Lpc1768

/-! ### The system -/

/-- `inRom`: the erase or the copy at `pc` has started and is not complete.
`switched`: a handler has been entered since, so that another task may run. -/
structure FlashSys where
  cpu : CritSys
  pc : SavePc
  inRom : Bool
  switched : Bool

inductive FlashAct
  /-- the processor, its interrupts and the other tasks -/
  | cpu (a : CritAct)
  /-- the saving task performs the next part of `set_dev_net`; `ok` is whether
  the command succeeds -/
  | save (ok : Bool)
  deriving DecidableEq, Repr

/-- The actions of a task. -/
def CritAct.taskLevel : CritAct → Bool
  | .enterRaise | .enterCount | .exitCount | .exitLower | .setEnabled .. => true
  | _ => false

def CritAct.isStart : CritAct → Bool
  | .start _ => true
  | _ => false

/-- The next part of `set_dev_net`: the erase and the copy start in one step and
complete in another. -/
def saveNext (s : FlashSys) (ok : Bool) : Option FlashSys :=
  match s.pc with
  | .idle => some { s with pc := .readSerial }
  | .readSerial => some { s with pc := if ok then .erasePrepare else .idle }
  | .erasePrepare => some { s with pc := if ok then .erase else .idle }
  | .erase =>
      if s.inRom then some { s with pc := if ok then .copyPrepare else .idle, inRom := false }
      else some { s with inRom := true, switched := false }
  | .copyPrepare => some { s with pc := if ok then .copy else .idle }
  | .copy =>
      if s.inRom then some { s with pc := if ok then .compare else .idle, inRom := false }
      else some { s with inRom := true, switched := false }
  | .compare => some { s with pc := if ok then .systemReset else .idle }
  | .systemReset | .fault => none

def flashStep (s : FlashSys) : FlashAct → Option FlashSys
  | .cpu a =>
      -- until a handler switches tasks, the processor is in the ROM
      if a.taskLevel && s.inRom && !s.switched then none
      else
        (critStep s.cpu a).map fun cpu =>
          { s with cpu := cpu, switched := s.switched || a.isStart }
  | .save ok =>
      -- the saving task has the processor, outside critical sections
      if s.cpu.handlers = [] ∧ s.cpu.pc = .run ∧ s.cpu.uxCriticalNesting = 0 ∧
          s.cpu.basepri = 0 then
        saveNext s ok
      else none

/-- The scheduler is running, and every interrupt is enabled. -/
def FlashSys.start : FlashSys where
  cpu := .start
  pc := .idle
  inRom := false
  switched := false

/-! ### The property and the condition -/

/-- No handler is entered while a command is in progress. -/
def NoEntry (s : FlashSys) (a : FlashAct) (_ : FlashSys) : Prop :=
  ∀ i, a = .cpu (.start i) → s.inRom = false

/-- In this state no handler can be entered while a command is in progress. -/
def EntryExcluded (s : FlashSys) : Prop := s.inRom = true → ∀ i, s.cpu.canStart i = false

/-- While a command is in progress, no enabled interrupt has a request. -/
def FlashQuiet (s : FlashSys) : Prop :=
  s.inRom = true → ∀ i, (s.cpu.pending i && s.cpu.enabled i) = false

/-- The processor is in the ROM, unmasked. -/
structure FlashInv (s : FlashSys) : Prop where
  quiet : FlashQuiet s
  rom : s.inRom = true → s.switched = false ∧ s.cpu.handlers = [] ∧ s.cpu.basepri = 0

/-- **Unmasked, the processor takes every enabled interrupt that has a
request.** -/
theorem canStart_unmasked {s : CritSys} (hh : s.handlers = []) (hb : s.basepri = 0) (i : Irq) :
    s.canStart i = (s.pending i && s.enabled i) := by
  simp [CritSys.canStart, hh, hb]

/-! ### Steps -/

/-- The saving task neither masks nor unmasks anything, and while a command is
in progress it has started it itself. -/
theorem saveNext_spec {s t : FlashSys} {ok : Bool} (h : saveNext s ok = some t) :
    t.cpu = s.cpu ∧ (t.inRom = true → s.inRom = true ∧ t.switched = s.switched ∨
      t.switched = false) := by
  simp only [saveNext] at h
  split at h
  case h_4 | h_6 =>
    split at h
    · obtain rfl := Option.some.inj h
      exact ⟨rfl, by rintro ⟨⟩⟩
    · obtain rfl := Option.some.inj h
      exact ⟨rfl, fun _ => .inr rfl⟩
  case h_8 | h_9 => cases h
  all_goals
    obtain rfl := Option.some.inj h
    exact ⟨rfl, fun hrom => .inl ⟨hrom, rfl⟩⟩

/-- **A step from a quiet state enters no handler** and leaves the processor in
the ROM, unmasked. -/
theorem FlashInv.step {s t : FlashSys} {a : FlashAct} (h : FlashInv s)
    (hstep : flashStep s a = some t) :
    NoEntry s a t ∧
      (t.inRom = true → t.switched = false ∧ t.cpu.handlers = [] ∧ t.cpu.basepri = 0) := by
  cases a with
  | save ok =>
      obtain ⟨hg, hsave⟩ := Option.ite_none_right_eq_some.mp hstep
      obtain ⟨hcpu, hrom⟩ := saveNext_spec hsave
      refine ⟨by rintro i ⟨⟩, fun ht => ?_⟩
      rw [hcpu]
      refine ⟨?_, hg.1, hg.2.2.2⟩
      rcases hrom ht with ⟨hs, hsw⟩ | hsw
      · exact hsw.trans (h.rom hs).1
      · exact hsw
  | cpu a =>
      simp only [flashStep] at hstep
      split at hstep
      next => cases hstep
      next hg =>
        obtain ⟨cpu, hcpu, rfl⟩ := Option.map_eq_some_iff.mp hstep
        rcases hin : s.inRom with - | -
        · exact ⟨fun _ _ => hin, by rintro ⟨⟩⟩
        obtain ⟨hsw, hnil, hbase⟩ := h.rom hin
        have htask : a.taskLevel = false := by simpa [hin, hsw] using hg
        cases a with
        | arrive i =>
            obtain rfl := Option.some.inj hcpu
            exact ⟨by rintro j ⟨⟩, fun _ => ⟨by simp [hsw, CritAct.isStart], hnil, hbase⟩⟩
        | start i =>
            -- nothing that is enabled has a request
            have hcan : s.cpu.canStart i = false :=
              (canStart_unmasked hnil hbase i).trans (h.quiet hin i)
            rw [critStep, hcan, if_neg Bool.false_ne_true] at hcpu
            cases hcpu
        | mask | unmask | finish =>
            -- no handler is active
            simp only [critStep, hnil] at hcpu
            cases hcpu
        | _ => cases htask

/-! ### Runs -/

/-- **No handler can be entered during an erase or a copy iff no enabled
interrupt has a request while one is in progress**; and in such a run none is
entered. -/
theorem flash_excluded_iff (acts : List FlashAct) :
    (Along flashStep (fun _ _ t => EntryExcluded t) .start acts ↔
        Along flashStep (fun _ _ t => FlashQuiet t) .start acts) ∧
      (Along flashStep (fun _ _ t => FlashQuiet t) .start acts →
        Along flashStep NoEntry .start acts) := by
  have hstart : FlashInv .start := ⟨by rintro ⟨⟩, by rintro ⟨⟩⟩
  refine ⟨along_iff ?_ ?_ hstart, Along.of_invariant ?_ hstart⟩
  · intro s a t h hstep
    apply forall_congr'
    intro hin
    obtain ⟨-, hnil, hbase⟩ := (h.step hstep).2 hin
    apply forall_congr'
    intro i
    rw [canStart_unmasked hnil hbase]
  · intro s a t h hstep hquiet
    exact ⟨hquiet, (h.step hstep).2⟩
  · intro s a t h hstep hquiet
    obtain ⟨hno, hrom⟩ := h.step hstep
    exact ⟨hno, hquiet, hrom⟩

/-- A tick during the erase. -/
def tickInErase : List FlashAct :=
  [.save true, .save true, .save true, .save true, .cpu (.arrive .sysTick), .cpu (.start .sysTick)]

theorem tick_entered_in_erase :
    ¬ Along flashStep NoEntry .start tickInErase ∧
      ¬ Along flashStep (fun _ _ t => EntryExcluded t) .start tickInErase := by
  refine ⟨fun h => ?_, fun h => ?_⟩
  · obtain ⟨-, -, -, -, -, hno, -⟩ := h
    cases hno .sysTick rfl
  · obtain ⟨-, -, -, -, hex, -⟩ := h
    cases hex rfl .sysTick

end Lpc1768
