import ShortSched.Sched

/-!
# `sched.c` on several CPUs: `load_balance`

Under `CONFIG_SMP` every CPU has a runqueue of its own, and a CPU that runs out of tasks pulls one
from the busiest other runqueue. The primitives are those of one CPU, applied to the runqueue that
they are called for. A call of `load_balance` is one step, so that its locks are left out.
-/

namespace ShortSched

/-- The machine with several CPUs. `p->array` points into the runqueue of `p->cpu`, so that its
name within that runqueue is enough. -/
structure Smp where
  task : TaskId → Task
  /-- `runqueues[NR_CPUS]` -/
  runqueues : ℕ → Runqueue
  /-- `prev_nr_running[NR_CPUS]` of each runqueue -/
  prevNrRunning : ℕ → ℕ → ℤ
  jiffies : UInt32
  tasklist : List TaskId
  /-- `cpu_logical_map(i)` for `i < smp_num_cpus` -/
  cpuLogicalMap : List ℕ
  cacheDecayTicks : UInt32

namespace Smp

open Sys

/-- What a function that runs on the runqueue `cpu_rq(cpu)` sees of the machine. -/
def cpuRq (cpu : ℕ) (s : Smp) : Sys where
  task := s.task
  rq := s.runqueues cpu
  jiffies := s.jiffies
  tasklist := s.tasklist

/-- A function runs on the runqueue `cpu_rq(cpu)`. -/
def onRq (cpu : ℕ) (f : Sys → Sys) (s : Smp) : Smp :=
  let s' := f (s.cpuRq cpu)
  { s with task := s'.task, runqueues := Function.update s.runqueues cpu s'.rq }

/-- `set_need_resched()` on `thisCpu`. -/
def setNeedResched (thisCpu : ℕ) (s : Smp) : Smp :=
  s.onRq thisCpu fun s => s.setTskNeedResched s.rq.curr

/-! ## The busiest runqueue -/

/-- One round of the loop over all runqueues, with its variables `busiest` and `max_load`. -/
def considerRq (thisCpu : ℕ) (idle : Bool) (acc : Option ℕ × ℤ × Smp) (logical : ℕ) :
    Option ℕ × ℤ × Smp :=
  let (busiest, maxLoad, s) := acc
  let nrRunning := (s.runqueues logical).nrRunning
  let load := if idle ∨ nrRunning < s.prevNrRunning thisCpu logical then nrRunning
    else s.prevNrRunning thisCpu logical
  let s := { s with
    prevNrRunning := Function.update s.prevNrRunning thisCpu
      (Function.update (s.prevNrRunning thisCpu) logical nrRunning) }
  if load > maxLoad ∧ logical ≠ thisCpu then (some logical, load, s) else (busiest, maxLoad, s)

/-- The loop over all runqueues. -/
def findBusiest (thisCpu : ℕ) (idle : Bool) (s : Smp) : Option ℕ × ℤ × Smp :=
  s.cpuLogicalMap.foldl (considerRq thisCpu idle) (none, 1, s)

/-! ## The search for tasks -/

/-- `CAN_MIGRATE_TASK(p, rq, this_cpu)` with `rq` the runqueue of the CPU `busiest`. -/
abbrev CanMigrateTask (s : Smp) (p : TaskId) (busiest thisCpu : ℕ) : Prop :=
  s.jiffies - (s.task p).sleepTimestamp > s.cacheDecayTicks ∧ p ≠ (s.runqueues busiest).curr ∧
    (s.task p).cpusAllowed &&& ((1 : UInt32) <<< UInt32.ofNat thisCpu) ≠ 0

/-- Take the task `next` out of the other runqueue and put it into this one. -/
def pullTask (next : TaskId) (array : PrioArrayPtr) (busiest thisCpu : ℕ) (s : Smp) : Smp :=
  let s := s.onRq busiest (dequeueTask next array)
  let s := s.onRq busiest (modifyRq fun rq => { rq with nrRunning := rq.nrRunning - 1 })
  let s := s.onRq thisCpu (modify next fun t => { t with cpu := thisCpu })
  let s := s.onRq thisCpu (modifyRq fun rq => { rq with nrRunning := rq.nrRunning + 1 })
  let s := s.onRq thisCpu (enqueueTask next (s.runqueues thisCpu).active)
  if (s.task next).prio < (s.task (s.runqueues thisCpu).curr).prio then s.setNeedResched thisCpu
  else s

/-- How a part of the search ends: at the label `out_unlock`, or with the search going on. -/
inductive Search
  | outUnlock (s : Smp)
  | goOn (imbalance : ℤ) (s : Smp)

variable (busiest thisCpu : ℕ) (idle : Bool) (array : PrioArrayPtr)

/-- `skip_queue:` the tasks of one queue from its tail on. Pulling a task leaves the tasks before
it in the queue, so that the rest of the list is still what is left to look at. -/
def skipQueue : List TaskId → ℤ → Smp → Search
  | [], imbalance, s => .goOn imbalance s
  | tmp :: rest, imbalance, s =>
    if ¬s.CanMigrateTask tmp busiest thisCpu then skipQueue rest imbalance s
    else
      let s := s.pullTask tmp array busiest thisCpu
      -- `if (!idle && --imbalance)`
      if idle = false ∧ imbalance - 1 ≠ 0 then skipQueue rest (imbalance - 1) s
      else .outUnlock s

/-- `find_next_bit(bitmap, MAX_PRIO, idx)` -/
def findNextBit (bitmap : ℤ → Bool) (idx : ℤ) : ℤ := findBit bitmap idx (maxPrio - idx).toNat

/-- `skip_bitmap:` the queues of one array from the priority `idx` on, at most `n` of them. The
head of an empty queue is no task. -/
def skipBitmap : ℕ → ℤ → ℤ → Smp → Option Search
  | 0, _, _, _ => none
  | n + 1, idx, imbalance, s =>
    let prioArray := (s.runqueues busiest).arrays array
    let idx := if idx = 0 then schedFindFirstBit prioArray.bitmap
      else findNextBit prioArray.bitmap idx
    if idx = maxPrio then some (.goOn imbalance s)
    else match (prioArray.queue idx).reverse with
      | [] => none
      | curr :: rest =>
        match skipQueue busiest thisCpu idle array (curr :: rest) imbalance s with
        | .outUnlock s => some (.outUnlock s)
        | .goOn imbalance s => skipBitmap n (idx + 1) imbalance s

/-- `new_array:` one array. There are `MAX_PRIO` queues and the end of the bitmap to look at. -/
def newArray (imbalance : ℤ) (s : Smp) : Option Search :=
  skipBitmap busiest thisCpu idle array 141 0 imbalance s

/-- The search, which goes on from `expired` to `active`. -/
def searchTasks (imbalance : ℤ) (s : Smp) : Option Smp := do
  let rq := s.runqueues busiest
  -- We first consider expired tasks.
  let array := if (rq.arrays rq.expired).nrActive ≠ 0 then rq.expired else rq.active
  match ← newArray busiest thisCpu idle array imbalance s with
  | .outUnlock s => return s
  | .goOn imbalance s =>
    if array = rq.expired then
      match ← newArray busiest thisCpu idle rq.active imbalance s with
      | .outUnlock s => return s
      | .goOn _ s => return s
    else return s

/-- `load_balance(this_rq, idle)` on the CPU `thisCpu`. -/
def loadBalance (s : Smp) : Option Smp :=
  let rq := s.runqueues thisCpu
  let nrRunning := if idle ∨ rq.nrRunning > s.prevNrRunning thisCpu thisCpu then rq.nrRunning
    else s.prevNrRunning thisCpu thisCpu
  match s.findBusiest thisCpu idle with
  | (none, _, s) => some s
  | (some busiest, maxLoad, s) =>
    let imbalance := (maxLoad - nrRunning).tdiv 2
    -- It needs an at least ~25% imbalance to trigger balancing.
    if idle = false ∧ imbalance < (maxLoad + 3).tdiv 4 then some s
    -- `double_lock_balance` gives `nr_running` back: the lock is free
    else if (s.runqueues busiest).nrRunning ≤ nrRunning + 1 then some s
    else searchTasks busiest thisCpu idle imbalance s

end Smp
end ShortSched
