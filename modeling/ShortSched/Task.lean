import ShortSched.Params
import Mathlib.Data.Int.Order.Basic
import Mathlib.Data.Fintype.Card

/-!
# `task_struct`

The fields of `task_struct` that the scheduler, `do_fork` and the short-process system calls
read or write. They come in three groups: `TaskSched` holds policy, priorities and time
slices, on which the class of a task and its budget depend; `TaskInfo` holds what is recorded
about the task; `Task` adds the two fields that `enqueue_task` writes.
-/

namespace ShortSched

/-- A `task_t *`. -/
abbrev TaskId := ℕ

/-- The scheduling policies, `SCHED_OTHER` (0), `SCHED_FIFO` (1), `SCHED_RR` (2) and
`SCHED_SHORT` (5). -/
inductive Policy
  | other
  | fifo
  | rr
  | short
deriving DecidableEq, Repr

/-- The policy a system call names, if it is one. -/
def Policy.ofInt? (policy : ℤ) : Option Policy :=
  if policy = 1 then some .fifo
  else if policy = 2 then some .rr
  else if policy = 0 then some .other
  else if policy = 5 then some .short
  else none

inductive TaskState
  | running
  | interruptible
  | uninterruptible
  | zombie
  | stopped
deriving DecidableEq, Repr

/-- The four priority arrays of a runqueue, `arrays[2]` and `shortArrays[2]`. -/
inductive PrioArrayPtr
  | arrays0
  | arrays1
  | shortArrays0
  | shortArrays1
deriving DecidableEq, Repr

instance : Fintype PrioArrayPtr where
  elems := {.arrays0, .arrays1, .shortArrays0, .shortArrays1}
  complete array := by cases array <;> decide

/-- Policy, priorities and time slices of a task. -/
structure TaskSched where
  policy : Policy := .other
  prio : ℤ := 120
  staticPrio : ℤ := 120
  rtPriority : ℤ := 0
  timeSlice : UInt32
  firstTimeSlice : UInt32 := 0
  /-- `requestedTime`: the time a SHORT process asked for, in jiffies -/
  requestedTime : Int32 := 0
  /-- 0 = normal or just short, 1 = short overdue -/
  iAmOverdue : ℤ := 0
  /-- was this ever a short process? -/
  iWasShort : ℤ := 0
  /-- the real static priority of an overdue task -/
  overdueStaticPrio : ℤ := 0
deriving DecidableEq

/-- State, signals, credentials, relations and sleep times of a task. -/
structure TaskInfo where
  state : TaskState := .running
  sigpending : Bool := false
  needResched : ℤ := 0
  flags : UInt32 := 0
  ptrace : UInt32 := 0
  cpu : ℕ := 0
  cpusAllowed : UInt32 := 0xffffffff
  sleepAvg : UInt32 := 0
  sleepTimestamp : UInt32 := 0
  pid : ℤ
  pOpptr : TaskId := 0
  pPptr : TaskId := 0
  uid : ℕ := 0
  euid : ℕ := 0
  /-- `CAP_SYS_NICE` is raised in `cap_effective` -/
  capSysNice : Bool := false
deriving DecidableEq

/-- A `task_struct`; the default values are those of `INIT_TASK`. -/
structure Task extends TaskSched, TaskInfo where
  /-- the array the task is queued in; `none` is `NULL` -/
  array : Option PrioArrayPtr := none
  justGotForked : ℤ := 0
deriving DecidableEq

namespace TaskSched

/-! ## Classes -/

/-- `short_task` -/
abbrev ShortTask (p : TaskSched) : Prop := p.policy = .short ∧ p.iAmOverdue = 0

/-- `overdue_task` -/
abbrev OverdueTask (p : TaskSched) : Prop := p.policy = .short ∧ p.iAmOverdue = 1

/-- `other_task` -/
abbrev OtherTask (p : TaskSched) : Prop := p.policy = .other

/-- `rt_task`: decided by the priority, not by the policy. -/
abbrev RtTask (p : TaskSched) : Prop := p.prio < maxRtPrio

/-- `TASK_NICE` -/
@[simp] def taskNice (p : TaskSched) : ℤ := prioToNice p.staticPrio

/-- `DELTA` -/
def delta (p : TaskSched) : ℤ :=
  scale p.taskNice 40 (maxUserPrio * prioBonusRatio / 100) + interactiveDelta

/-- `TASK_INTERACTIVE` -/
abbrev TaskInteractive (p : TaskSched) : Prop := p.prio ≤ p.staticPrio - p.delta

variable [Param]

/-- `TASK_TIMESLICE`, an `int` that the callers store in an `unsigned int`. -/
def taskTimeslice (p : TaskSched) : UInt32 :=
  UInt32.ofInt
    (minTimeslice + ((maxTimeslice - minTimeslice) * (maxPrio - 1 - p.staticPrio)).tdiv 39)

/-- `OS_TASK_TIMESLICE` -/
def osTaskTimeslice (p : TaskSched) : UInt32 :=
  if p.ShortTask then p.requestedTime.toUInt32
  else if p.OverdueTask then (2 * p.requestedTime).toUInt32
  else p.taskTimeslice

end TaskSched

namespace Task

variable [Param]

/-- `effective_prio`. The bonus is computed in `unsigned long` and stored in an `int`. -/
def effectivePrio (p : Task) : ℤ :=
  if p.ShortTask then p.staticPrio
  else if p.OverdueTask then overduePrio
  else
    let weight := UInt32.ofInt (maxUserPrio * prioBonusRatio)
    let bonus := (weight * p.sleepAvg / maxSleepAvg / 100 - weight / 100 / 2).toInt32.toInt
    let prio := p.staticPrio - bonus
    let prio := if prio < maxRtPrio then maxRtPrio else prio
    if prio > maxPrio - 1 then maxPrio - 1 else prio

/-- The bonus `activate_task` gives a task that slept for `sleepTime` jiffies. -/
def creditSleep (sleepTime : UInt32) (p : Task) : Task :=
  let p := { p with sleepAvg := p.sleepAvg + sleepTime }
  let p := if p.sleepAvg > maxSleepAvg then { p with sleepAvg := maxSleepAvg } else p
  { p with prio := p.effectivePrio }

/-- What every tick takes from a running task that is not real-time. -/
def tick (p : Task) : Task :=
  let p := if p.sleepAvg ≠ 0 then { p with sleepAvg := p.sleepAvg - 1 } else p
  { p with timeSlice := p.timeSlice - 1 }

/-- The class change of a task that has used up its time slice. -/
def expireClass (p : Task) : Task :=
  if p.OverdueTask then
    { p with
      policy := .other
      iAmOverdue := 0
      staticPrio := p.overdueStaticPrio
      requestedTime := invalidRequestedTime }
  else if p.ShortTask then
    { p with
      iAmOverdue := 1
      overdueStaticPrio := p.staticPrio
      staticPrio := overduePrio }
  else p

/-- The fields that `scheduler_tick` writes when a time slice is used up. The new slice is
computed from the fields already updated. -/
def expire (p : Task) : Task :=
  let p := p.expireClass
  let p := { p with prio := p.effectivePrio, firstTimeSlice := 0 }
  { p with timeSlice := p.osTaskTimeslice }

/-- What `sched_exit` does to the parent `t` of the exited child `p`. -/
def reapChild (p t : Task) : Task :=
  let t := if p.firstTimeSlice ≠ 0 then
      let t := { t with timeSlice := t.timeSlice + p.timeSlice }
      if t.timeSlice > UInt32.ofInt maxTimeslice then
        { t with timeSlice := UInt32.ofInt maxTimeslice }
      else t
    else t
  if p.sleepAvg < t.sleepAvg then
    { t with sleepAvg := (t.sleepAvg * exitWeight + p.sleepAvg) / (exitWeight + 1) }
  else t

end Task

/-! ## System call arguments -/

/-- `struct sched_param` -/
structure SchedParam where
  schedPriority : Int32
  requestedTime : Int32
deriving DecidableEq

/-- The `struct sched_param *` of a system call: `NULL`, an address `copy_from_user` fails on,
or an address it reads a parameter block from. -/
inductive UserParam
  | null
  | fault
  | valid (lp : SchedParam)
deriving DecidableEq

/-- A `struct sched_param *` that a system call writes to: `NULL`, an address `copy_to_user` fails
on, or one that it fills. -/
inductive UserBuffer
  | null
  | fault
  | valid
deriving DecidableEq

end ShortSched
