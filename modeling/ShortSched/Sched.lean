import ShortSched.Runqueue

/-!
# `sched.c`: wake-ups, the tick, `schedule` and the system calls

Functions that can only run to their end give a `Sys`; functions that the kernel would leave
through an oops or a `BUG()` give an `Option Sys`.
-/

namespace ShortSched
namespace Sys

variable [Param]

/-! ## Wake-ups and exits -/

/-- `smp_processor_id()` on one CPU. -/
def smpProcessorId : ℕ := 0

/-- The test of `try_to_wake_up` for a fast migration. -/
abbrev FastMigrate (s : Sys) (p : TaskId) (sync : Bool) : Prop :=
  sync = true ∧ s.rq.curr ≠ p ∧ (s.task p).cpu ≠ smpProcessorId ∧
    (s.task p).cpusAllowed &&& 1 ≠ 0

/-- `try_to_wake_up`, with its return value `success`. -/
def tryToWakeUp (p : TaskId) (sync : Bool) (s : Sys) : Bool × Sys :=
  let oldState := (s.task p).state
  if (s.task p).array = none then
    let s := if s.FastMigrate p sync then s.modify p fun t => { t with cpu := smpProcessorId } else s
    let s := if oldState = .uninterruptible then
        s.modifyRq fun rq => { rq with nrUninterruptible := rq.nrUninterruptible - 1 }
      else s
    let s := s.activateTask p
    let s := if (s.task p).prio < s.current.prio then s.setTskNeedResched s.rq.curr else s
    (true, s.modify p fun t => { t with state := .running })
  else
    (false, s.modify p fun t => { t with state := .running })

/-- `wake_up_forked_process` -/
def wakeUpForkedProcess (p : TaskId) (s : Sys) : Sys :=
  let s := s.modify p fun t => { t with state := .running }
  let s := if ¬(s.task p).RtTask then
      let s := s.modify s.rq.curr fun t => { t with sleepAvg := t.sleepAvg * parentPenalty / 100 }
      s.modify p fun t =>
        let t := { t with sleepAvg := t.sleepAvg * childPenalty / 100 }
        { t with prio := t.effectivePrio }
    else s
  let s := s.modify p fun t => { t with cpu := smpProcessorId }
  s.activateTask p

/-- `sched_exit` -/
def schedExit (p : TaskId) (s : Sys) : Sys :=
  s.modify s.rq.curr (s.task p).reapChild

/-! ## The tick -/

/-- `EXPIRED_STARVING` -/
abbrev ExpiredStarving (s : Sys) : Prop :=
  s.rq.expiredTimestamp ≠ 0 ∧
    starvationLimit * s.rq.nrRunning + 1 ≤ ((s.jiffies - s.rq.expiredTimestamp).toNat : ℤ)

/-- `scheduler_tick` from `if (!--p->time_slice)` on, for a slice that is used up. -/
def tickExpire (p : TaskId) (s : Sys) : Sys :=
  let s := s.dequeueTask p (pointerToMyActivePrioArray (s.task p).toTaskSched s.rq.toRqPtrs)
  let s := s.setTskNeedResched p
  let s := s.modify p Task.expire
  if (s.task p).OtherTask ∧ (¬(s.task p).TaskInteractive ∨ s.ExpiredStarving) then
    let s := if s.rq.expiredTimestamp = 0 then
        s.modifyRq fun rq => { rq with expiredTimestamp := s.jiffies }
      else s
    s.enqueueTask p s.rq.expired
  else
    s.enqueueTask p (pointerToMyActivePrioArray (s.task p).toTaskSched s.rq.toRqPtrs)

/-- `scheduler_tick` for a real-time task: only round-robin tasks have time slices. -/
def tickRt (p : TaskId) (s : Sys) : Sys :=
  if (s.task p).policy = .rr then
    let s := s.modify p fun t => { t with timeSlice := t.timeSlice - 1 }
    if (s.task p).timeSlice = 0 then
      let s := s.modify p fun t => { t with timeSlice := t.taskTimeslice, firstTimeSlice := 0 }
      let s := s.setTskNeedResched p
      let s := s.dequeueTask p (pointerToMyActivePrioArray (s.task p).toTaskSched s.rq.toRqPtrs)
      s.enqueueTask p (pointerToMyActivePrioArray (s.task p).toTaskSched s.rq.toRqPtrs)
    else s
  else s

/-- `scheduler_tick`; the counters of `kstat` are left out. -/
def schedulerTick (s : Sys) : Sys :=
  let p := s.rq.curr
  if p = s.rq.idle then s
  else if (s.task p).array = some s.rq.expired then s.setTskNeedResched p
  else if (s.task p).RtTask then s.tickRt p
  else
    let s := s.modify p Task.tick
    if (s.task p).timeSlice = 0 then s.tickExpire p else s

/-! ## `schedule` -/

/-- The `switch (prev->state)` of `schedule`. -/
def deactivatePrev (prev : TaskId) (s : Sys) : Option Sys :=
  match (s.task prev).state with
  | .interruptible =>
    if (s.task prev).sigpending then some (s.modify prev fun t => { t with state := .running })
    else s.deactivateTask prev
  | .running => some s
  | _ => s.deactivateTask prev

/-- `list_entry` of the first task of the best queue of `array`: there is none when the queue
that the bitmap names is empty. -/
def firstTask (array : PrioArrayPtr) (s : Sys) : Option TaskId :=
  (s.queue array (schedFindFirstBit (s.rq.arrays array).bitmap)).head?

/-- `schedule` from `pick_next_task` to `switch_tasks`. -/
def pickNext (s : Sys) : Option (TaskId × Sys) :=
  if s.rq.nrRunning = 0 then
    some (s.rq.idle, s.modifyRq fun rq => { rq with expiredTimestamp := 0 })
  else if (s.rq.arrays s.rq.rtShort).nrActive ≠ 0 then
    (s.firstTask s.rq.rtShort).map (·, s)
  else if (s.rq.arrays s.rq.active).nrActive ≠ 0 then
    (s.firstTask s.rq.active).map (·, s)
  else if (s.rq.arrays s.rq.expired).nrActive ≠ 0 then
    let s := s.modifyRq Runqueue.swapArrays
    (s.firstTask s.rq.active).map (·, s)
  else
    (s.firstTask s.rq.overdue).map (·, s)

/-- `schedule` at `switch_tasks`. -/
def switchTasks (prev next : TaskId) (s : Sys) : Sys :=
  let s := s.clearTskNeedResched prev
  if prev ≠ next then
    s.modifyRq fun rq => { rq with nrSwitches := rq.nrSwitches + 1, curr := next }
  else s

/-- One pass of `schedule`, from `need_resched:` to the test of `need_resched()`. -/
def schedulePass (s : Sys) : Option Sys := do
  let prev := s.rq.curr
  let s := s.modify prev fun t => { t with sleepTimestamp := s.jiffies }
  let s ← s.deactivatePrev prev
  let (next, s) ← s.pickNext
  return s.switchTasks prev next

/-- `goto need_resched`, at most `n` times. -/
def scheduleLoop : ℕ → Sys → Option Sys
  | 0, _ => none
  | n + 1, s => do
    let s ← s.schedulePass
    if s.current.needResched ≠ 0 then scheduleLoop n s else return s

/-- `schedule`. Each pass lowers one `need_resched` flag of a queued task or of the idle task,
so that the bound is never reached (`schedule_returns`). -/
def schedule (s : Sys) : Option Sys := s.scheduleLoop (s.rq.nrRunning.toNat + 3)

/-! ## `set_user_nice` -/

/-- `set_user_nice` -/
def setUserNice (p : TaskId) (nice : ℤ) (s : Sys) : Sys :=
  if (s.task p).taskNice = nice ∨ nice < -20 ∨ nice > 19 then s
  else if (s.task p).RtTask then s.modify p fun t => { t with staticPrio := niceToPrio nice }
  else if (s.task p).OverdueTask then
    s.modify p fun t => { t with overdueStaticPrio := niceToPrio nice }
  else if (s.task p).ShortTask ∧ (s.task p).staticPrio = niceToPrio nice then s
  else
    let array := (s.task p).array
    let s := match array with
      | some a => s.dequeueTask p a
      | none => s
    let s := s.modify p fun t => { t with staticPrio := niceToPrio nice, prio := niceToPrio nice }
    match array with
    | some a =>
      let s := s.enqueueTask p a
      if niceToPrio nice < (s.task p).staticPrio ∨ p = s.rq.curr then
        s.setTskNeedResched s.rq.curr
      else s
    | none => s

/-! ## `sys_nice` -/

/-- `capable(CAP_SYS_NICE)`, which marks a caller that has used the privilege. -/
def capableSysNice (s : Sys) : Bool × Sys :=
  if s.current.capSysNice then
    (true, s.modify s.rq.curr fun t => { t with flags := t.flags ||| pfSuperpriv })
  else (false, s)

/-- `sys_nice`, a `set_user_nice` of `current` relative to the value that `static_prio` shows. -/
def sysNice (increment : ℤ) (s : Sys) : ℤ × Sys :=
  let (ok, s) := if increment < 0 then s.capableSysNice else (true, s)
  if ¬ok then (-ePERM, s)
  else
    let increment := if increment < -40 then -40 else increment
    let increment := if increment > 40 then 40 else increment
    let nice := s.current.taskNice + increment
    let nice := if nice < -20 then -20 else nice
    let nice := if nice > 19 then 19 else nice
    (0, s.setUserNice s.rq.curr nice)

/-! ## `setscheduler` -/

/-- `find_task_by_pid` -/
def findTaskByPid (pid : ℤ) (s : Sys) : Option TaskId :=
  s.tasklist.find? fun p => (s.task p).pid = pid

/-- `find_process_by_pid` -/
def findProcessByPid (pid : ℤ) (s : Sys) : Option TaskId :=
  if pid ≠ 0 then s.findTaskByPid pid else some s.rq.curr

/-- `if (array) deactivate_task(p)`, the update `f` of `p`, `if (array) activate_task(p)`: how
`setscheduler` changes a policy. -/
def requeue (p : TaskId) (f : Task → Task) (s : Sys) : Option Sys := do
  let array := (s.task p).array
  let s ← if array.isSome then s.deactivateTask p else some s
  let s := s.modify p f
  return if array.isSome then s.activateTask p else s

/-- `setscheduler` from the label `change_to_short:` to the end of that block. -/
def changeToShort (p : TaskId) (lp : SchedParam) (s : Sys) : Option (ℤ × Sys) := do
  if s.current.euid ≠ (s.task p).euid ∧ s.current.euid ≠ 0 then return (-ePERM, s)
  let requested := changeMsToJiffis lp.requestedTime
  let s ← if (s.task p).policy = .short then
      let difference := requested - (s.task p).requestedTime
      some (s.modify p fun t =>
        { t with requestedTime := requested, timeSlice := t.timeSlice + difference.toUInt32 })
    else
      s.requeue p fun t =>
        { t with
          policy := .short
          requestedTime := requested
          iWasShort := 1
          timeSlice := requested.toUInt32 }
  return (0, s.setTskNeedResched s.rq.curr)

/-- `setscheduler` from `Valid priorities for SCHED_FIFO and SCHED_RR` on. -/
def changePolicy (p : TaskId) (policy : Policy) (lp : SchedParam) (s : Sys) :
    Option (ℤ × Sys) := do
  if lp.schedPriority.toInt < 0 ∨ lp.schedPriority.toInt > maxUserRtPrio - 1 then
    return (-eINVAL, s)
  if ¬(policy = .other ↔ lp.schedPriority.toInt = 0) then return (-eINVAL, s)
  let (ok, s) := if policy = .fifo ∨ policy = .rr then s.capableSysNice else (true, s)
  if ¬ok then return (-ePERM, s)
  let (ok, s) :=
    if s.current.euid ≠ (s.task p).euid ∧ s.current.euid ≠ (s.task p).uid then s.capableSysNice
    else (true, s)
  if ¬ok then return (-ePERM, s)
  let s ← s.requeue p fun t =>
    let t := { t with policy := policy, rtPriority := lp.schedPriority.toInt }
    if policy ≠ .other then { t with prio := maxUserRtPrio - 1 - t.rtPriority }
    else { t with prio := t.staticPrio }
  return (0, s)

/-- `setscheduler` once it holds the lock of the target's runqueue. -/
def setschedulerTask (p : TaskId) (policy : ℤ) (lp : SchedParam) (s : Sys) :
    Option (ℤ × Sys) :=
  let policy? := if policy < 0 then some (s.task p).policy else Policy.ofInt? policy
  match policy? with
  | none => some (-eINVAL, s)
  | some policy =>
    if (s.task p).policy = .short then
      if policy = .short then
        -- `int` against `int - unsigned int`: the comparison is unsigned
        if lp.requestedTime ≤ 3000 ∧ (changeMsToJiffis lp.requestedTime).toUInt32 >
            (s.task p).requestedTime.toUInt32 - (s.task p).timeSlice then
          s.changeToShort p lp
        else some (-eINVAL, s)
      else some (-ePERM, s)
    else if policy = .short then
      if (s.task p).policy = .fifo ∨ (s.task p).policy = .rr then some (-eINVAL, s)
      else if lp.requestedTime > 3000 ∨
          changeMsToJiffis lp.requestedTime < minRequestedTime then
        some (-eINVAL, s)
      else s.changeToShort p lp
    else s.changePolicy p policy lp

/-- `setscheduler` -/
def setscheduler (pid policy : ℤ) (param : UserParam) (s : Sys) : Option (ℤ × Sys) :=
  if param = .null ∨ pid < 0 then some (-eINVAL, s)
  else match param with
    | .valid lp =>
      match s.findProcessByPid pid with
      | none => some (-eSRCH, s)
      | some p => s.setschedulerTask p policy lp
    | _ => some (-eFAULT, s)

/-- `sys_sched_setscheduler` -/
def sysSchedSetscheduler (pid policy : ℤ) (param : UserParam) (s : Sys) : Option (ℤ × Sys) :=
  s.setscheduler pid policy param

/-- `sys_sched_setparam` -/
def sysSchedSetparam (pid : ℤ) (param : UserParam) (s : Sys) : Option (ℤ × Sys) :=
  s.setscheduler pid (-1) param

/-- `sys_sched_getparam`, with the structure that it has copied out. `lp` is what the local
variable of that name holds on entry: the function does not initialise it. -/
def sysSchedGetparam (pid : ℤ) (param : UserBuffer) (lp : SchedParam) (s : Sys) :
    ℤ × Option SchedParam :=
  if param = .null ∨ pid < 0 then (-eINVAL, none)
  else match s.findProcessByPid pid with
    | none => (-eSRCH, none)
    | some p =>
      let lp := { lp with schedPriority := Int32.ofInt (s.task p).rtPriority }
      let lp := if (s.task p).ShortTask then
          { lp with requestedTime := changeJiffisToMs (s.task p).requestedTime }
        else lp
      if param = .fault then (-eFAULT, none) else (0, some lp)

/-! ## `sched_yield` -/

/-- `sys_sched_yield` for a task that is not real-time. -/
def yieldTail (curr : TaskId) (array : PrioArrayPtr) (s : Sys) : Sys :=
  let prio := (s.task curr).prio
  let s := s.listDel curr
  if s.queue array prio ≠ [] then s.listAddNext curr array prio
  else
    let s := s.setBit prio false array
    let i := schedFindFirstBit (s.rq.arrays array).bitmap
    let i := if i = maxPrio ∨ i ≤ prio then prio else i
    let s := s.modify curr fun t => { t with prio := i }
    let s := s.listAddNext curr array i
    s.setBit i true array

/-- `sys_sched_yield` up to its call of `schedule`. -/
def yieldRequeue (s : Sys) : Option Sys := do
  let curr := s.rq.curr
  let array ← (s.task curr).array
  if (s.task curr).RtTask then
    return (s.listDel curr).listAddTail curr array (s.task curr).prio
  else return s.yieldTail curr array

/-- `sys_sched_yield` -/
def sysSchedYield (s : Sys) : Option Sys := do
  let s ← s.yieldRequeue
  s.schedule

end Sys
end ShortSched
