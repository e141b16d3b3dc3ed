import Mathlib.Logic.Function.Basic
import ShortSched.General.Runs
import ShortSched.Task

/-!
# CPU affinity: `set_cpus_allowed` and the migration threads

`set_cpus_allowed` cannot move a task that is queued or runs. It puts a request on the list
`migration_queue` of the task's runqueue, wakes the migration thread of that CPU, and waits at the
semaphore of the request until the thread has moved the task. A step is a critical section under the
locks of the runqueues, or a read without a lock. The queues themselves are left out, but for whether
`p->array` is `NULL`. A CPU in the kernel is not preempted.
-/

namespace ShortSched

open General

/-! ## Masks -/

/-- `mask & (1UL << cpu)` -/
abbrev MaskHas (mask : UInt32) (cpu : ℕ) : Prop := mask &&& ((1 : UInt32) <<< UInt32.ofNat cpu) ≠ 0

/-- `__ffs`: the lowest bit that is set. -/
def ffs (mask : UInt32) : ℕ := ((List.range 32).find? fun cpu => MaskHas mask cpu).getD 0

/-! ## The state -/

/-- What affinity depends on of a task; the default values are those of `INIT_TASK`. -/
structure MigTask where
  cpu : ℕ := 0
  cpusAllowed : UInt32 := 0xffffffff
  /-- the most that `sched_setaffinity` may set without `CAP_SYS_NICE` -/
  cpusAllowedMask : UInt32 := 0xffffffff
  /-- `p->array` is not `NULL` -/
  queued : Bool := false
  uid : ℕ := 0
  euid : ℕ := 0
  capSysNice : Bool := false
deriving DecidableEq

/-- `migration_req_t`, which lies on the stack of the task that calls `set_cpus_allowed`. -/
structure MigrationReq where
  caller : TaskId
  task : TaskId
deriving DecidableEq

/-- Where a task is. -/
inductive TaskPc
  | outside
  /-- in `do_fork`, with the copy made -/
  | forking (child : TaskId)
  /-- `sys_sched_setaffinity`: about to call `set_cpus_allowed` -/
  | setting (p : TaskId) (newMask : UInt32)
  /-- `set_cpus_allowed`: has put a request on the list of `rq`, about to wake its migration thread -/
  | requested (p : TaskId) (rq : ℕ)
  /-- `set_cpus_allowed`: in `down(&req.sem)` -/
  | waits (p : TaskId) (rq : ℕ)
deriving DecidableEq

/-- Where a migration thread is. -/
inductive ThreadPc
  /-- at the beginning of the loop, awake -/
  | loop
  /-- in `schedule`, in state `TASK_INTERRUPTIBLE` -/
  | sleeps
  /-- has taken a request off the list -/
  | took (req : MigrationReq)
  /-- has read `cpu_dest` -/
  | chosen (req : MigrationReq) (cpuDest : ℕ)
  /-- about to call `up(&req->sem)` -/
  | moved (req : MigrationReq)
deriving DecidableEq

/-- The tasks and CPUs. The idle tasks and the migration threads stay on their CPUs; they are never
marked as queued here. -/
structure MigSys where
  task : TaskId → MigTask
  pc : TaskId → TaskPc
  /-- the count of the semaphore in the task's request -/
  sem : TaskId → ℕ
  /-- `rq->curr` -/
  curr : ℕ → TaskId
  migrationQueue : ℕ → List MigrationReq
  thread : ℕ → ThreadPc
  /-- `rq->idle` -/
  idle : ℕ → TaskId
  /-- `rq->migration_thread` -/
  migrationThread : ℕ → TaskId
  cpuOnlineMap : UInt32

namespace MigSys

def modify (p : TaskId) (f : MigTask → MigTask) (s : MigSys) : MigSys :=
  { s with task := Function.update s.task p (f (s.task p)) }

def goto (t : TaskId) (pc : TaskPc) (s : MigSys) : MigSys :=
  { s with pc := Function.update s.pc t pc }

def setThread (c : ℕ) (pc : ThreadPc) (s : MigSys) : MigSys :=
  { s with thread := Function.update s.thread c pc }

/-- Neither an idle task nor a migration thread. -/
def Ordinary (s : MigSys) (p : TaskId) : Prop :=
  ∀ c, p ≠ s.idle c ∧ p ≠ s.migrationThread c

/-- The task on CPU `c` may be switched from: it is not in the middle of `sys_sched_setaffinity` or of
the loop of a migration thread. -/
def MaySwitch (s : MigSys) (c : ℕ) : Prop :=
  (∀ p newMask, s.pc (s.curr c) ≠ .setting p newMask) ∧
    (∀ p rq, s.pc (s.curr c) ≠ .requested p rq) ∧
      (s.curr c = s.migrationThread c → s.thread c = .sleeps)

/-- `schedule` on CPU `c`: the current task goes to sleep or stays queued, `next` runs. Priorities are
left out, so that `next` may be any task that can run. -/
def schedule (c : ℕ) (next : TaskId) (sleep : Bool) (s : MigSys) : MigSys :=
  let s := s.modify (s.curr c) fun t => { t with queued := t.queued && !sleep }
  { s with curr := Function.update s.curr c next }

/-- One round of `try_to_wake_up`, called on CPU `c`. -/
def tryToWakeUp (c : ℕ) (p : TaskId) (sync : Bool) (s : MigSys) : MigSys :=
  if (s.task p).queued then s
  else if sync ∧ s.curr (s.task p).cpu ≠ p ∧ (s.task p).cpu ≠ c ∧
      MaskHas (s.task p).cpusAllowed c then
    -- fast migration: `goto repeat_lock_task`
    s.modify p fun t => { t with cpu := c }
  else s.modify p fun t => { t with queued := true }

/-- `do_fork` by the task on CPU `c`: the copy. -/
def copyTask (c : ℕ) (child : TaskId) (s : MigSys) : MigSys :=
  let current := s.task (s.curr c)
  let copy := { current with
    cpusAllowedMask := current.cpusAllowedMask &&& current.cpusAllowed
    queued := false }
  { s with task := Function.update s.task child copy }.goto (s.curr c) (.forking child)

/-- `do_fork`: `wake_up_forked_process`. -/
def wakeUpForkedProcess (c : ℕ) (s : MigSys) : MigSys :=
  match s.pc (s.curr c) with
  | .forking child =>
    (s.modify child fun t => { t with cpu := c, queued := true }).goto (s.curr c) .outside
  | _ => s

/-- `sys_sched_setaffinity` by the task on CPU `c`, up to the call of `set_cpus_allowed`, with the mask
copied from user space and `p` found. -/
def sysSchedSetaffinity (c : ℕ) (p : TaskId) (userMask : UInt32) (s : MigSys) : MigSys :=
  let current := s.task (s.curr c)
  let newMask := userMask &&& s.cpuOnlineMap
  if newMask = 0 then s
  else
    let newMask := if current.capSysNice then newMask else newMask &&& (s.task p).cpusAllowedMask
    let s := if current.capSysNice then
        s.modify p fun t => { t with cpusAllowedMask := t.cpusAllowedMask ||| newMask }
      else s
    if newMask = 0 then s
    else if current.euid ≠ (s.task p).euid ∧ current.euid ≠ (s.task p).uid ∧
        current.capSysNice = false then s
    else s.goto (s.curr c) (.setting p newMask)

/-- `set_cpus_allowed` by the task on CPU `c`, under the lock of the runqueue of `p`. With an empty
mask the machine would stop at `BUG()`. -/
def setCpusAllowed (c : ℕ) (s : MigSys) : MigSys :=
  let caller := s.curr c
  match s.pc caller with
  | .setting p newMask =>
    let newMask := newMask &&& s.cpuOnlineMap
    if newMask = 0 then s
    else
      let rq := (s.task p).cpu
      let s := s.modify p fun t => { t with cpusAllowed := newMask }
      -- Can the task run on the task's current CPU?
      if MaskHas newMask rq then s.goto caller .outside
      -- not on a runqueue, and not running
      else if (s.task p).queued = false ∧ p ≠ s.curr rq then
        (s.modify p fun t => { t with cpu := ffs t.cpusAllowed }).goto caller .outside
      else
        { s with
          sem := Function.update s.sem caller 0
          migrationQueue := Function.update s.migrationQueue rq
            (⟨caller, p⟩ :: s.migrationQueue rq) }.goto caller (.requested p rq)
  | _ => s

/-- `wake_up_process(rq->migration_thread)` -/
def wakeThread (c : ℕ) (s : MigSys) : MigSys :=
  let caller := s.curr c
  match s.pc caller with
  | .requested p rq =>
    let s := if s.thread rq = .sleeps then s.setThread rq .loop else s
    s.goto caller (.waits p rq)
  | _ => s

/-- `down(&req.sem)` returns. -/
def down (c : ℕ) (s : MigSys) : MigSys :=
  let caller := s.curr c
  { s with sem := Function.update s.sem caller (s.sem caller - 1) }.goto caller .outside

/-- `up(&req->sem)` -/
def up (caller : TaskId) (s : MigSys) : MigSys :=
  { s with sem := Function.update s.sem caller (s.sem caller + 1) }.modify caller fun t =>
    { t with queued := true }

/-- A step of the migration thread of CPU `c`. -/
def migrationThreadStep (c : ℕ) (s : MigSys) : MigSys :=
  match s.thread c with
  | .loop =>
    match s.migrationQueue c with
    | [] => s.setThread c .sleeps
    | req :: rest =>
      { s with migrationQueue := Function.update s.migrationQueue c rest }.setThread c (.took req)
  | .took req => s.setThread c (.chosen req (ffs (s.task req.task).cpusAllowed))
  | .chosen req cpuDest =>
    -- `rq_src == rq`; otherwise the task has left this CPU already
    let s := if (s.task req.task).cpu = c then s.modify req.task fun t => { t with cpu := cpuDest }
      else s
    s.setThread c (.moved req)
  | .moved req => (s.up req.caller).setThread c .loop
  | .sleeps => s

end MigSys

/-! ## Steps -/

/-- The steps; the first argument is the CPU. -/
inductive MigOp
  | schedule (c : ℕ) (next : TaskId) (sleep : Bool)
  | tryToWakeUp (c : ℕ) (p : TaskId) (sync : Bool)
  /-- `load_balance` pulls a task -/
  | pull (c : ℕ) (p : TaskId)
  | copyTask (c : ℕ) (child : TaskId)
  | wakeUpForkedProcess (c : ℕ)
  /-- `do_fork` fails after the copy -/
  | badFork (c : ℕ)
  | sysSchedSetaffinity (c : ℕ) (p : TaskId) (userMask : UInt32)
  | setCpusAllowed (c : ℕ)
  | wakeThread (c : ℕ)
  | down (c : ℕ)
  | migrationThread (c : ℕ)
deriving DecidableEq

namespace MigOp

/-- The structure of a new task is not in use. -/
structure Fresh (s : MigSys) (child : TaskId) : Prop where
  ordinary : s.Ordinary child
  unqueued : (s.task child).queued = false
  asleep : ∀ c, s.curr c ≠ child
  outside : s.pc child = .outside
  unforked : ∀ t, s.pc t ≠ .forking child
  unset : ∀ t newMask, s.pc t ≠ .setting child newMask
  unrequested : ∀ t rq, s.pc t ≠ .requested child rq ∧ s.pc t ≠ .waits child rq

/-- Where the code takes a step. `schedule` runs a queued task of its CPU, its migration thread, unless
that sleeps, or the idle task; a task in `down` sleeps only while the count is zero. -/
def Enabled (s : MigSys) : MigOp → Prop
  | schedule c next sleep =>
    s.MaySwitch c ∧ ((s.schedule c next sleep).task next).cpu = c ∧
      (next = s.idle c ∨ next = s.migrationThread c ∧ s.thread c ≠ .sleeps ∨
        s.Ordinary next ∧ ((s.schedule c next sleep).task next).queued = true) ∧
      (sleep = true → ∀ p rq, s.pc (s.curr c) = .waits p rq → s.sem (s.curr c) = 0)
  | tryToWakeUp _ p _ => s.Ordinary p ∧ ∀ t, s.pc t ≠ .forking p
  | pull c p =>
    s.Ordinary p ∧ (s.task p).queued = true ∧ (s.task p).cpu ≠ c ∧ s.curr (s.task p).cpu ≠ p ∧
      MaskHas (s.task p).cpusAllowed c
  | copyTask c child => s.Ordinary (s.curr c) ∧ s.pc (s.curr c) = .outside ∧ Fresh s child
  | wakeUpForkedProcess c | badFork c => ∃ child, s.pc (s.curr c) = .forking child
  | sysSchedSetaffinity c _ _ => s.Ordinary (s.curr c) ∧ s.pc (s.curr c) = .outside
  | setCpusAllowed c => ∃ p newMask, s.pc (s.curr c) = .setting p newMask
  | wakeThread c => ∃ p rq, s.pc (s.curr c) = .requested p rq
  | down c => (∃ p rq, s.pc (s.curr c) = .waits p rq) ∧ s.sem (s.curr c) ≠ 0
  | migrationThread c => s.curr c = s.migrationThread c ∧ s.thread c ≠ .sleeps

def exec : MigOp → MigSys → MigSys
  | schedule c next sleep, s => s.schedule c next sleep
  | tryToWakeUp c p sync, s => s.tryToWakeUp c p sync
  | pull c p, s => s.modify p fun t => { t with cpu := c }
  | copyTask c child, s => s.copyTask c child
  | wakeUpForkedProcess c, s => s.wakeUpForkedProcess c
  | badFork c, s => s.goto (s.curr c) .outside
  | sysSchedSetaffinity c p userMask, s => s.sysSchedSetaffinity c p userMask
  | setCpusAllowed c, s => s.setCpusAllowed c
  | wakeThread c, s => s.wakeThread c
  | down c, s => s.down c
  | migrationThread c, s => s.migrationThreadStep c

end MigOp

/-- One step of the machine. -/
def MigStep (s : MigSys) (op : MigOp) (s' : MigSys) : Prop :=
  op.Enabled s ∧ op.exec s = s'

/-- `sched_setaffinity` spares the idle tasks and the migration threads. The source has no such test: a
migration thread that is sent away leaves the requests of its CPU unanswered. -/
def MigOp.Spares (s : MigSys) : MigOp → Prop
  | sysSchedSetaffinity _ p _ => s.Ordinary p
  | _ => True

/-- A step that spares the idle tasks and the migration threads. -/
abbrev SparingStep : MigSys → MigOp → MigSys → Prop :=
  Guarded MigOp.Spares MigStep

end ShortSched
