import ShortSched.General.LevelQueues
import ShortSched.Task

/-!
# The runqueue of one CPU

The state of the machine and the primitives that edit it: `list_add`, `list_del` and the
bitmap operations, and over them `dequeue_task`, `enqueue_task`, `activate_task` and
`deactivate_task`. A step that would dereference `NULL` has no next state (`none`).
-/

namespace ShortSched

open General

/-- `struct prio_array`. The delimiter bit `MAX_PRIO` of the bitmap is left out: it only stops
`sched_find_first_bit`. -/
structure PrioArray where
  nrActive : ℤ
  bitmap : ℤ → Bool
  queue : ℤ → List TaskId

/-- The array pointers of `struct runqueue`; `sched_init` points them at four different arrays. -/
structure ArrayPtrs where
  active : PrioArrayPtr
  expired : PrioArrayPtr
  rtShort : PrioArrayPtr
  overdue : PrioArrayPtr
  distinct : [active, expired, rtShort, overdue].Nodup

/-- The counters and pointers of `struct runqueue`. -/
structure RqPtrs extends ArrayPtrs where
  nrRunning : ℤ
  nrSwitches : ℕ
  expiredTimestamp : UInt32
  nrUninterruptible : ℤ
  curr : TaskId
  idle : TaskId

/-- `struct runqueue`; `arrays` holds `arrays[2]` and `shortArrays[2]`. -/
structure Runqueue extends RqPtrs where
  arrays : PrioArrayPtr → PrioArray

/-- How `schedule` exchanges `active` and `expired`. -/
def Runqueue.swapArrays (rq : Runqueue) : Runqueue :=
  { rq with
    expired := rq.active
    active := rq.expired
    expiredTimestamp := 0
    distinct := (List.Perm.swap _ _ _).nodup_iff.mp rq.distinct }

/-- A `do_fork` of `current` that has copied the task and not yet made the child visible. -/
structure PendingFork where
  child : TaskId
  cloneFlags : UInt32
  /-- the time slice has been split -/
  split : Bool
deriving DecidableEq

/-- The machine: one CPU. `forking` says whether `current` is inside `do_fork`, between
`*p = *current` and the lock of `wake_up_forked_process`. -/
structure Sys where
  task : TaskId → Task
  rq : Runqueue
  jiffies : UInt32
  tasklist : List TaskId
  forking : Option PendingFork := none

namespace Sys

/-- The task that `current` points to. -/
abbrev current (s : Sys) : Task := s.task s.rq.curr

/-- `array->queue[prio]` -/
abbrev queue (s : Sys) (array : PrioArrayPtr) (prio : ℤ) : List TaskId :=
  (s.rq.arrays array).queue prio

/-- A task exists from `alloc_task_struct` on. -/
def IsTask (s : Sys) (p : TaskId) : Prop := p ∈ s.tasklist ∨ ∃ f ∈ s.forking, f.child = p

/-! ## Field updates -/

def modify (p : TaskId) (f : Task → Task) (s : Sys) : Sys :=
  { s with task := Function.update s.task p (f (s.task p)) }

def modifyRq (f : Runqueue → Runqueue) (s : Sys) : Sys := { s with rq := f s.rq }

def modifyArray (array : PrioArrayPtr) (f : PrioArray → PrioArray) (s : Sys) : Sys :=
  s.modifyRq fun rq =>
    { rq with arrays := Function.update rq.arrays array (f (rq.arrays array)) }

/-! ## `list.h` and the bitmap -/

/-- `list_del(&p->run_list)`: `p` leaves whichever queue it is linked into. The links of a task
that is in no queue are stale, and `list_del` would write to its former neighbours; here it does
nothing then. Only a `justGotForked` flag that a fork has left raised gets a task dequeued that is
in no queue. -/
def listDel (p : TaskId) (s : Sys) : Sys :=
  s.modifyRq fun rq =>
    { rq with arrays := fun a => { rq.arrays a with queue := remove p (rq.arrays a).queue } }

def setQueue (array : PrioArrayPtr) (prio : ℤ) (l : List TaskId) (s : Sys) : Sys :=
  s.modifyArray array fun a => { a with queue := Function.update a.queue prio l }

/-- `list_add(&p->run_list, array->queue + prio)` -/
def listAdd (p : TaskId) (array : PrioArrayPtr) (prio : ℤ) (s : Sys) : Sys :=
  s.setQueue array prio (p :: s.queue array prio)

/-- `list_add_tail(&p->run_list, array->queue + prio)` -/
def listAddTail (p : TaskId) (array : PrioArrayPtr) (prio : ℤ) (s : Sys) : Sys :=
  s.setQueue array prio (s.queue array prio ++ [p])

/-- `list_add(&p->run_list, array->queue[prio].next)`: right behind the first entry. The
`next` of an empty queue is its own head. -/
def listAddNext (p : TaskId) (array : PrioArrayPtr) (prio : ℤ) (s : Sys) : Sys :=
  s.setQueue array prio (pushSecond p (s.queue array prio))

/-- `__set_bit` and `__clear_bit` -/
def setBit (prio : ℤ) (bit : Bool) (array : PrioArrayPtr) (s : Sys) : Sys :=
  s.modifyArray array fun a => { a with bitmap := Function.update a.bitmap prio bit }

/-- The first set bit at or above `i` among the next `n`, or `i + n`. -/
def findBit (bitmap : ℤ → Bool) : ℤ → ℕ → ℤ
  | i, 0 => i
  | i, n + 1 => if bitmap i then i else findBit bitmap (i + 1) n

/-- `sched_find_first_bit`, as `find_first_bit(map, MAX_PRIO)`. -/
def schedFindFirstBit (bitmap : ℤ → Bool) : ℤ := findBit bitmap 0 140

/-! ## `resched_task` -/

/-- `set_tsk_need_resched`, which is all of `resched_task` on one CPU. -/
def setTskNeedResched (p : TaskId) (s : Sys) : Sys :=
  s.modify p fun t => { t with needResched := 1 }

def clearTskNeedResched (p : TaskId) (s : Sys) : Sys :=
  s.modify p fun t => { t with needResched := 0 }

/-! ## Enqueueing and dequeueing -/

/-- `dequeue_task`, also of a task that is in no queue (see `listDel`). -/
def dequeueTask (p : TaskId) (array : PrioArrayPtr) (s : Sys) : Sys :=
  let s := s.modifyArray array fun a => { a with nrActive := a.nrActive - 1 }
  let s := s.listDel p
  if s.queue array (s.task p).prio = [] then s.setBit (s.task p).prio false array else s

/-- The test at the head of `enqueue_task`. -/
abbrev ForkBranch (s : Sys) (p : TaskId) : Prop :=
  s.current.policy = .short ∧ s.current.justGotForked ≠ 0 ∧
    (s.task p).iAmOverdue = 0 ∧ (s.task (s.task p).pOpptr).justGotForked ≠ 0

/-- The statements of `enqueue_task` after its `if`. -/
def enqueueFinish (p : TaskId) (array : PrioArrayPtr) (s : Sys) : Sys :=
  let s := s.setBit (s.task p).prio true array
  let s := s.modifyArray array fun a => { a with nrActive := a.nrActive + 1 }
  s.modify p fun t => { t with array := some array }

/-- `enqueue_task` without the fork branch. -/
def enqueueTail (p : TaskId) (array : PrioArrayPtr) (s : Sys) : Sys :=
  (s.listAddTail p array (s.task p).prio).enqueueFinish p array

/-- `enqueue_task` with a bound on the depth of its recursion. Each level lowers one
`justGotForked` flag, so as many levels as there are tasks are enough
(`enqueueTaskRec_stable`). -/
def enqueueTaskRec : ℕ → TaskId → PrioArrayPtr → Sys → Sys
  | 0, p, array, s => s.enqueueTail p array
  | n + 1, p, array, s =>
    if s.ForkBranch p then
      let parent := (s.task p).pOpptr
      let s := s.modify parent fun t => { t with justGotForked := 0 }
      let s := s.dequeueTask parent array
      let s := enqueueTaskRec n parent array s
      (s.listAdd p array (s.task p).prio).enqueueFinish p array
    else s.enqueueTail p array

/-- `enqueue_task` -/
def enqueueTask (p : TaskId) (array : PrioArrayPtr) (s : Sys) : Sys :=
  s.enqueueTaskRec s.tasklist.length p array

/-- `pointer_to_my_active_prio_array` -/
def pointerToMyActivePrioArray (p : TaskSched) (rq : RqPtrs) : PrioArrayPtr :=
  if p.ShortTask ∨ p.RtTask then rq.rtShort
  else if p.OverdueTask then rq.overdue
  else rq.active

/-- `activate_task` -/
def activateTask [Param] (p : TaskId) (s : Sys) : Sys :=
  let sleepTime := s.jiffies - (s.task p).sleepTimestamp
  let array := pointerToMyActivePrioArray (s.task p).toTaskSched s.rq.toRqPtrs
  let s := if ¬(s.task p).RtTask ∧ sleepTime ≠ 0 then s.modify p (Task.creditSleep sleepTime) else s
  let s := s.enqueueTask p array
  s.modifyRq fun rq => { rq with nrRunning := rq.nrRunning + 1 }

/-- `deactivate_task`; a `NULL` array is an oops. -/
def deactivateTask (p : TaskId) (s : Sys) : Option Sys := do
  let s := s.modifyRq fun rq => { rq with nrRunning := rq.nrRunning - 1 }
  let s := if (s.task p).state = .uninterruptible then
      s.modifyRq fun rq => { rq with nrUninterruptible := rq.nrUninterruptible + 1 }
    else s
  let array ← (s.task p).array
  let s := s.dequeueTask p array
  return s.modify p fun t => { t with array := none }

end Sys

end ShortSched
