import ShortSched.General.Runs
import ShortSched.General.SpinLocks
import ShortSched.Task

/-!
# The locks of the runqueues

Every runqueue has a spinlock. A CPU takes the lock of a task's runqueue (`task_rq_lock`), of its own
(`this_rq_lock`, `schedule`, the tick), of its own and the busiest one (`double_lock_balance`), or of
the two runqueues between which its migration thread moves a task (`double_rq_lock`), always with its
interrupts off. The runqueues lie in one array, so that a runqueue stands here for its CPU and for its
address. What the holders do to the queues is left out, but for the assignments to `p->cpu`, on which
`task_rq` depends.
-/

namespace ShortSched

/-- Where a CPU is in the functions that take locks. -/
inductive LockPc
  /-- no lock, interrupts on -/
  | outside
  /-- `task_rq_lock(p)`: about to read `task_rq(p)` -/
  | taskRqRead (p : TaskId)
  | taskRqSpin (p : TaskId) (rq : ℕ)
  /-- about to compare `rq` with `task_rq(p)` again -/
  | taskRqCheck (p : TaskId) (rq : ℕ)
  /-- `task_rq_lock(p)` has returned `rq` -/
  | taskRqLocked (p : TaskId) (rq : ℕ)
  /-- `p->cpu` has been set, about to unlock -/
  | taskRqMoved (rq : ℕ)
  | thisRqSpin
  | thisRqLocked
  /-- `double_lock_balance`: about to try to lock the other runqueue -/
  | balanceTry (busiest : ℕ)
  /-- spins on the other runqueue, which lies above this one -/
  | balanceSpin (busiest : ℕ)
  /-- has unlocked this runqueue, spins on the other one, which lies below -/
  | balanceFirst (busiest : ℕ)
  /-- spins on this runqueue again -/
  | balanceSecond (busiest : ℕ)
  | balanceLocked (busiest : ℕ)
  /-- `migration_thread` at `repeat`: about to read `p->cpu` -/
  | doubleRead (p : TaskId) (dest : ℕ)
  /-- `double_rq_lock`: spins on the lower runqueue -/
  | doubleFirst (p : TaskId) (src dest : ℕ)
  /-- spins on the upper one -/
  | doubleSecond (p : TaskId) (src dest : ℕ)
  /-- about to compare `p->cpu` with `cpu_src` -/
  | doubleCheck (p : TaskId) (src dest : ℕ)
  | doubleLocked (p : TaskId) (src dest : ℕ)
  /-- `p->cpu` has been set, about to unlock both -/
  | doubleMoved (src dest : ℕ)
deriving DecidableEq

/-- The locks of all runqueues, where each CPU is, and `p->cpu`. -/
structure LockSys where
  owner : ℕ → Option ℕ
  pc : ℕ → LockPc
  cpuOf : TaskId → ℕ

namespace LockSys

def goto (c : ℕ) (pc : LockPc) (s : LockSys) : LockSys :=
  { s with pc := Function.update s.pc c pc }

/-- One round of `spin_lock`: with the lock, CPU `c` goes on to `pc`. -/
def spinLock (c l : ℕ) (pc : LockPc) (s : LockSys) : LockSys :=
  if s.owner l = none then { s with owner := Function.update s.owner l (some c) }.goto c pc else s

/-- `spin_unlock` -/
def spinUnlock (l : ℕ) (s : LockSys) : LockSys :=
  { s with owner := Function.update s.owner l none }

/-- `p->cpu = cpu` -/
def setCpu (p : TaskId) (cpu : ℕ) (s : LockSys) : LockSys :=
  { s with cpuOf := Function.update s.cpuOf p cpu }

/-- `double_rq_unlock` -/
def doubleRqUnlock (rq₁ rq₂ : ℕ) (s : LockSys) : LockSys :=
  let s := s.spinUnlock rq₁
  if rq₁ ≠ rq₂ then s.spinUnlock rq₂ else s

/-- The next step of a function that takes locks. -/
def proceed (c : ℕ) (s : LockSys) : LockSys :=
  match s.pc c with
  -- `task_rq_lock`
  | .taskRqRead p => s.goto c (.taskRqSpin p (s.cpuOf p))
  | .taskRqSpin p rq => s.spinLock c rq (.taskRqCheck p rq)
  | .taskRqCheck p rq =>
    if rq ≠ s.cpuOf p then (s.spinUnlock rq).goto c (.taskRqRead p)
    else s.goto c (.taskRqLocked p rq)
  -- `this_rq_lock`
  | .thisRqSpin => s.spinLock c c .thisRqLocked
  -- `double_lock_balance`: the locks are taken in the order of the runqueues
  | .balanceTry busiest =>
    if s.owner busiest = none then s.spinLock c busiest (.balanceLocked busiest)
    else if busiest < c then (s.spinUnlock c).goto c (.balanceFirst busiest)
    else s.goto c (.balanceSpin busiest)
  | .balanceSpin busiest => s.spinLock c busiest (.balanceLocked busiest)
  | .balanceFirst busiest => s.spinLock c busiest (.balanceSecond busiest)
  | .balanceSecond busiest => s.spinLock c c (.balanceLocked busiest)
  -- the migration thread from `repeat` on, with `double_rq_lock`
  | .doubleRead p dest => s.goto c (.doubleFirst p (s.cpuOf p) dest)
  | .doubleFirst p src dest =>
    if src = dest then s.spinLock c src (.doubleCheck p src dest)
    else if src < dest then s.spinLock c src (.doubleSecond p src dest)
    else s.spinLock c dest (.doubleSecond p src dest)
  | .doubleSecond p src dest =>
    if src < dest then s.spinLock c dest (.doubleCheck p src dest)
    else s.spinLock c src (.doubleCheck p src dest)
  | .doubleCheck p src dest =>
    if s.cpuOf p ≠ src then (s.doubleRqUnlock src dest).goto c (.doubleRead p dest)
    else s.goto c (.doubleLocked p src dest)
  | .outside | .taskRqLocked _ _ | .taskRqMoved _ | .thisRqLocked | .balanceLocked _
  | .doubleLocked _ _ _ | .doubleMoved _ _ => s

/-- CPU `c` leaves a critical section. -/
def unlock (c : ℕ) (s : LockSys) : LockSys :=
  match s.pc c with
  | .taskRqLocked _ rq | .taskRqMoved rq => (s.spinUnlock rq).goto c .outside
  | .thisRqLocked => (s.spinUnlock c).goto c .outside
  | .balanceLocked busiest => (s.spinUnlock busiest).goto c .thisRqLocked
  | .doubleLocked _ src dest | .doubleMoved src dest =>
    (s.doubleRqUnlock src dest).goto c .outside
  | _ => s

end LockSys

/-- The steps of the CPUs; the first argument is the CPU. -/
inductive LockOp
  /-- calls `task_rq_lock` -/
  | taskRqLock (c : ℕ) (p : TaskId)
  /-- calls `this_rq_lock`, or `schedule` or the tick begins -/
  | thisRqLock (c : ℕ)
  /-- calls `load_balance`, which finds this runqueue -/
  | loadBalance (c busiest : ℕ)
  /-- the migration thread begins with a request -/
  | migrate (c : ℕ) (p : TaskId) (dest : ℕ)
  | proceed (c : ℕ)
  /-- `try_to_wake_up` or `set_cpus_allowed` sets `p->cpu` -/
  | setTaskCpu (c cpu : ℕ)
  /-- `wake_up_forked_process` sets `p->cpu` -/
  | wakeForked (c : ℕ) (p : TaskId)
  /-- `load_balance` pulls the task -/
  | pull (c : ℕ) (p : TaskId)
  /-- the migration thread moves the task -/
  | move (c : ℕ)
  | unlock (c : ℕ)
deriving DecidableEq

namespace LockOp

/-- `load_balance` pulls tasks of the busiest runqueue, and the migration thread moves those that are
still on its own. -/
def Enabled (s : LockSys) : LockOp → Prop
  | taskRqLock c _ | thisRqLock c | migrate c _ _ => s.pc c = .outside
  | loadBalance c busiest => s.pc c = .thisRqLocked ∧ busiest ≠ c
  | proceed _ | unlock _ => True
  | setTaskCpu c _ => ∃ p rq, s.pc c = .taskRqLocked p rq
  | wakeForked c _ => s.pc c = .thisRqLocked
  | pull c p => s.pc c = .balanceLocked (s.cpuOf p)
  | move c => ∃ p dest, s.pc c = .doubleLocked p c dest

def exec : LockOp → LockSys → LockSys
  | taskRqLock c p, s => s.goto c (.taskRqRead p)
  | thisRqLock c, s => s.goto c .thisRqSpin
  | loadBalance c busiest, s => s.goto c (.balanceTry busiest)
  | migrate c p dest, s => s.goto c (.doubleRead p dest)
  | proceed c, s => s.proceed c
  | setTaskCpu c cpu, s =>
    match s.pc c with
    | .taskRqLocked p rq => (s.setCpu p cpu).goto c (.taskRqMoved rq)
    | _ => s
  | wakeForked c p, s => s.setCpu p c
  | pull c p, s => s.setCpu p c
  | move c, s =>
    match s.pc c with
    | .doubleLocked p src dest => (s.setCpu p dest).goto c (.doubleMoved src dest)
    | _ => s
  | unlock c, s => s.unlock c

end LockOp

/-- One step of the machine. -/
def LockStep (s : LockSys) (op : LockOp) (s' : LockSys) : Prop :=
  op.Enabled s ∧ op.exec s = s'

end ShortSched
