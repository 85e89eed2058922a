/-
Lpc1768/EventGroup.lean

FreeRTOS event groups, as far as tasks set bits and wait for them.  A task that
blocks leaves the bits it waits for in its event list item, with the manner of
waiting in the control byte; who unblocks it replaces the value by the bits that
were set and a mark, and clears the bits on its behalf.  A task whose block time
expires finds its own value there, and looks at the group once more.

`xEventGroupWaitBits` is in two parts, before and after the task has been blocked.
Each part, and each call of `xEventGroupSetBits`, runs with the scheduler suspended
or in a critical section.
-/
import Mathlib.Tactic.Common

namespace Lpc1768

/-! ### Constants of event_groups.c and tasks.c -/

def eventClearEventsOnExitBit : BitVec 32 := 0x01000000
def eventUnblockedDueToBitSet : BitVec 32 := 0x02000000
def eventWaitForAllBits : BitVec 32 := 0x04000000
def eventEventBitsControlBytes : BitVec 32 := 0xff000000
def taskEventListItemValueInUse : BitVec 32 := 0x80000000

/-- An event group; the tasks on the list come with the value of their event list
item. -/
structure EventGroup (τ : Type*) where
  uxEventBits : BitVec 32
  xTasksWaitingForBits : List (τ × BitVec 32)

variable {τ : Type*} [DecidableEq τ]

/-! ### Waiting -/

def prvTestWaitCondition (uxCurrentEventBits uxBitsToWaitFor : BitVec 32)
    (xWaitForAllBits : Bool) : Bool :=
  if xWaitForAllBits = false then uxCurrentEventBits &&& uxBitsToWaitFor ≠ 0
  else uxCurrentEventBits &&& uxBitsToWaitFor = uxBitsToWaitFor

/-- The value that a task puts into its event list item. -/
def waitItem (uxBitsToWaitFor : BitVec 32) (xClearOnExit xWaitForAllBits : Bool) : BitVec 32 :=
  uxBitsToWaitFor ||| (if xClearOnExit then eventClearEventsOnExitBit else 0) |||
    (if xWaitForAllBits then eventWaitForAllBits else 0) ||| taskEventListItemValueInUse

/-- `xEventGroupWaitBits` up to where it blocks; `none` says that it does. -/
def xEventGroupWaitBits (g : EventGroup τ) (task : τ) (uxBitsToWaitFor : BitVec 32)
    (xClearOnExit xWaitForAllBits : Bool) (xTicksToWait : ℕ) : EventGroup τ × Option (BitVec 32) :=
  if prvTestWaitCondition g.uxEventBits uxBitsToWaitFor xWaitForAllBits then
    ({ g with
        uxEventBits :=
          if xClearOnExit then g.uxEventBits &&& ~~~uxBitsToWaitFor else g.uxEventBits },
      some g.uxEventBits)
  else if xTicksToWait = 0 then (g, some g.uxEventBits)
  else
    ({ g with
        xTasksWaitingForBits := g.xTasksWaitingForBits ++
          [(task, waitItem uxBitsToWaitFor xClearOnExit xWaitForAllBits)] },
      none)

/-- The rest of it, which the task comes to with the value `item` in its event list
item. -/
def waitBitsResume (g : EventGroup τ) (item uxBitsToWaitFor : BitVec 32)
    (xClearOnExit xWaitForAllBits : Bool) : EventGroup τ × BitVec 32 :=
  if item &&& eventUnblockedDueToBitSet = 0 then
    -- the bits may have been set since the task was taken off the list
    ({ g with
        uxEventBits :=
          if prvTestWaitCondition g.uxEventBits uxBitsToWaitFor xWaitForAllBits && xClearOnExit then
            g.uxEventBits &&& ~~~uxBitsToWaitFor
          else g.uxEventBits },
      g.uxEventBits &&& ~~~eventEventBitsControlBytes)
  else (g, item &&& ~~~eventEventBitsControlBytes)

/-- The block time of a task expires: it is taken off the list as it is. -/
def EventGroup.expire (g : EventGroup τ) (task : τ) : EventGroup τ :=
  { g with xTasksWaitingForBits := g.xTasksWaitingForBits.filter (·.1 ≠ task) }

/-! ### Setting bits -/

/-- `xMatchFound`: the task is unblocked by these bits. -/
def matchFound (uxEventBits item : BitVec 32) : Bool :=
  let uxControlBits := item &&& eventEventBitsControlBytes
  let uxBitsWaitedFor := item &&& ~~~eventEventBitsControlBytes
  if uxControlBits &&& eventWaitForAllBits = 0 then uxBitsWaitedFor &&& uxEventBits ≠ 0
  else uxBitsWaitedFor &&& uxEventBits = uxBitsWaitedFor

/-- The loop over the list: the bits to be cleared, the tasks unblocked with the
new values of their items, and the tasks that stay on the list. -/
def setBitsLoop (uxEventBits : BitVec 32) :
    List (τ × BitVec 32) → BitVec 32 × List (τ × BitVec 32) × List (τ × BitVec 32)
  | [] => (0, [], [])
  | (task, item) :: rest =>
      let r := setBitsLoop uxEventBits rest
      if matchFound uxEventBits item then
        ((if item &&& eventEventBitsControlBytes &&& eventClearEventsOnExitBit ≠ 0 then
            item &&& ~~~eventEventBitsControlBytes
          else 0) ||| r.1,
          (task, uxEventBits ||| eventUnblockedDueToBitSet ||| taskEventListItemValueInUse) ::
            r.2.1,
          r.2.2)
      else (r.1, r.2.1, (task, item) :: r.2.2)

/-- `xEventGroupSetBits`, and the tasks that it unblocks. -/
def xEventGroupSetBits (g : EventGroup τ) (uxBitsToSet : BitVec 32) :
    EventGroup τ × List (τ × BitVec 32) :=
  let uxEventBits := g.uxEventBits ||| uxBitsToSet
  let r := setBitsLoop uxEventBits g.xTasksWaitingForBits
  ({ uxEventBits := uxEventBits &&& ~~~r.1, xTasksWaitingForBits := r.2.2 }, r.2.1)

end Lpc1768
