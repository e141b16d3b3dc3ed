import ShortSched.SleepStates

/-!
# Wait queues and completions

A task that waits sets its own state, puts an entry that lives on its stack on a wait queue and
calls `schedule`. Interrupts are on between these pieces. A task is preempted inside none of them,
so every task but `current` is outside or behind its call of `schedule`. `Place` says between which
two pieces a task is, and `WaitSys.proceed` is the next piece of `current`.
-/

namespace ShortSched

/-! ## Wait queues -/

/-- `wait_queue_t`, with `WQ_FLAG_EXCLUSIVE` as a truth value. -/
structure WaitEntry where
  task : TaskId
  exclusive : Bool
deriving DecidableEq

/-- The wait queue header is not part of the repository. This is what it does to the list of a
wait queue. -/
class WaitHeader where
  /-- `__add_wait_queue` -/
  addWaitQueue : WaitEntry → List WaitEntry → List WaitEntry
  /-- `__add_wait_queue_tail` -/
  addWaitQueueTail : WaitEntry → List WaitEntry → List WaitEntry
  /-- `__remove_wait_queue` -/
  removeWaitQueue : WaitEntry → List WaitEntry → List WaitEntry
  addWaitQueue_eq : ∀ wait q, addWaitQueue wait q = wait :: q
  addWaitQueueTail_eq : ∀ wait q, addWaitQueueTail wait q = q ++ [wait]
  removeWaitQueue_eq : ∀ wait q, removeWaitQueue wait q = q.erase wait

/-- The entries that are woken all come before those that are woken one at a time. -/
def ExclusiveLast (q : List WaitEntry) : Prop :=
  q.Pairwise fun wait wait' => wait.exclusive = true → wait'.exclusive = true

/-- `wait_queue_head_t` -/
structure WaitQueueHead where
  taskList : List WaitEntry
  exclusiveLast : ExclusiveLast taskList

namespace WaitQueueHead

/-- `init_waitqueue_head` -/
def init : WaitQueueHead := ⟨[], List.Pairwise.nil⟩

variable [WaitHeader]

theorem exclusiveLast_add {wait : WaitEntry} (h : wait.exclusive = false) (q : WaitQueueHead) :
    ExclusiveLast (WaitHeader.addWaitQueue wait q.taskList) := by
  rw [WaitHeader.addWaitQueue_eq]
  refine List.pairwise_cons.mpr ⟨fun _ _ hc => ?_, q.exclusiveLast⟩
  rw [h] at hc
  cases hc

theorem exclusiveLast_addTail {wait : WaitEntry} (h : wait.exclusive = true) (q : WaitQueueHead) :
    ExclusiveLast (WaitHeader.addWaitQueueTail wait q.taskList) := by
  rw [WaitHeader.addWaitQueueTail_eq]
  refine List.pairwise_append.mpr ⟨q.exclusiveLast, List.pairwise_singleton _ _, ?_⟩
  intro _ _ wait' hwait' _
  rw [List.mem_singleton.mp hwait']
  exact h

theorem exclusiveLast_remove (wait : WaitEntry) (q : WaitQueueHead) :
    ExclusiveLast (WaitHeader.removeWaitQueue wait q.taskList) := by
  rw [WaitHeader.removeWaitQueue_eq]
  exact q.exclusiveLast.sublist List.erase_sublist

/-- `add_wait_queue` -/
def addWaitQueue (wait : WaitEntry) (q : WaitQueueHead) : WaitQueueHead :=
  let wait := { wait with exclusive := false }
  ⟨WaitHeader.addWaitQueue wait q.taskList, exclusiveLast_add rfl q⟩

/-- `add_wait_queue_exclusive` -/
def addWaitQueueExclusive (wait : WaitEntry) (q : WaitQueueHead) : WaitQueueHead :=
  let wait := { wait with exclusive := true }
  ⟨WaitHeader.addWaitQueueTail wait q.taskList, exclusiveLast_addTail rfl q⟩

/-- `remove_wait_queue` -/
def removeWaitQueue (wait : WaitEntry) (q : WaitQueueHead) : WaitQueueHead :=
  ⟨WaitHeader.removeWaitQueue wait q.taskList, exclusiveLast_remove wait q⟩

end WaitQueueHead

/-! ## Wake-ups -/

/-- The bits of a state. -/
def TaskState.bits : TaskState → UInt32
  | running => 0
  | interruptible => 1
  | uninterruptible => 2
  | zombie => 4
  | stopped => 8

/-- `TASK_UNINTERRUPTIBLE | TASK_INTERRUPTIBLE`, the mode of `wake_up`. -/
abbrev anySleep : UInt32 :=
  TaskState.bits .uninterruptible ||| TaskState.bits .interruptible

namespace Sys

variable [Param]

/-- The loop of `__wake_up_common` over the rest of a queue. -/
def wakeUpCommon (mode : UInt32) (sync : Bool) : List WaitEntry → ℤ → Sys → Sys
  | [], _, s => s
  | curr :: rest, nrExclusive, s =>
    if (s.task curr.task).state.bits &&& mode ≠ 0 then
      let (success, s) := s.tryToWakeUp curr.task sync
      if success ∧ curr.exclusive then
        -- `!--nr_exclusive`
        if nrExclusive - 1 = 0 then s else wakeUpCommon mode sync rest (nrExclusive - 1) s
      else wakeUpCommon mode sync rest nrExclusive s
    else wakeUpCommon mode sync rest nrExclusive s

/-- `__wake_up` -/
def wakeUp (q : WaitQueueHead) (mode : UInt32) (nrExclusive : ℤ) (s : Sys) : Sys :=
  s.wakeUpCommon mode false q.taskList nrExclusive

/-- `__wake_up_sync` -/
def wakeUpSync (q : WaitQueueHead) (mode : UInt32) (nrExclusive : ℤ) (s : Sys) : Sys :=
  if nrExclusive ≠ 0 then s.wakeUpCommon mode true q.taskList nrExclusive
  else s.wakeUpCommon mode false q.taskList nrExclusive

end Sys

/-- `struct completion` -/
structure Completion where
  done : UInt32
  wait : WaitQueueHead

/-- `init_completion` -/
def Completion.init : Completion := ⟨0, WaitQueueHead.init⟩

/-- A completion is the variable `vfork` of a `do_fork` on the stack of `parent`, or another one. -/
inductive CompletionPtr
  | vfork (parent : TaskId)
  | other (x : ℕ)
deriving DecidableEq

/-! ## Where a task is -/

inductive CompletionPhase
  /-- about to call `wait_for_completion` -/
  | call
  /-- about to call `schedule` -/
  | sleep
  /-- back from `schedule` -/
  | wake
deriving DecidableEq

inductive EventPhase
  /-- about to add the entry to the queue -/
  | add
  /-- about to set the state, at the begin of the loop -/
  | set
  /-- about to look at the condition -/
  | check
  /-- about to look for signals -/
  | signal
  /-- about to call `schedule` -/
  | sleep
  /-- about to remove the entry from the queue -/
  | out
deriving DecidableEq

/-- The function of this file a task is in, and where. -/
inductive Place
  | outside
  /-- `wait_for_completion` -/
  | completion (x : CompletionPtr) (phase : CompletionPhase)
  /-- `do_fork` after its `wait_for_completion` -/
  | vforkOut
  /-- `sleep_on` and `interruptible_sleep_on`, before and after the call of `schedule` -/
  | sleepOn (q : ℕ) (slept : Bool)
  /-- `wait_event` and `wait_event_interruptible` -/
  | event (q : ℕ) (interruptible : Bool) (phase : EventPhase)
deriving DecidableEq

/-- Where `wait_for_completion` returns to. -/
def CompletionPtr.after : CompletionPtr → Place
  | vfork _ => .vforkOut
  | other _ => .outside

/-- What `current` may call. -/
inductive WaitCall
  | waitForCompletion (x : ℕ)
  | sleepOn (q : ℕ)
  | interruptibleSleepOn (q : ℕ)
  | waitEvent (q : ℕ)
  | waitEventInterruptible (q : ℕ)
deriving DecidableEq

/-- The machine with its wait queues, each with the condition its `wait_event`s wait for, and its
completions. -/
structure WaitSys where
  sys : Sys
  place : TaskId → Place
  queue : ℕ → WaitQueueHead
  condition : ℕ → Bool
  completion : CompletionPtr → Completion
  /-- `vfork_done` of a task, which points to the stack of its parent -/
  vforkDone : TaskId → Option TaskId

namespace WaitSys

abbrev curr (w : WaitSys) : TaskId := w.sys.rq.curr

/-- The place of `current`. -/
abbrev here (w : WaitSys) : Place := w.place w.curr

def goto (place : Place) (w : WaitSys) : WaitSys :=
  { w with place := Function.update w.place w.curr place }

/-- `set_current_state` -/
def setCurrentState (state : TaskState) (w : WaitSys) : WaitSys :=
  { w with sys := w.sys.modify w.curr fun t => { t with state := state } }

def setCompletion (x : CompletionPtr) (c : Completion) (w : WaitSys) : WaitSys :=
  { w with completion := Function.update w.completion x c }

def setQueue (q : ℕ) (head : WaitQueueHead) (w : WaitSys) : WaitSys :=
  { w with queue := Function.update w.queue q head }

variable [WaitHeader]

/-- The entry of `current` that `init_waitqueue_entry` sets up goes on the queue. -/
def addEntry (q : ℕ) (w : WaitSys) : WaitSys :=
  w.setQueue q ((w.queue q).addWaitQueue ⟨w.curr, false⟩)

def removeEntry (q : ℕ) (w : WaitSys) : WaitSys :=
  w.setQueue q ((w.queue q).removeWaitQueue ⟨w.curr, false⟩)

/-- `wait_for_completion` up to its call of `schedule`, or to its end. -/
def waitForCompletion (x : CompletionPtr) (w : WaitSys) : WaitSys :=
  let c := w.completion x
  if c.done = 0 then
    let w := w.setCompletion x { c with wait := c.wait.addWaitQueueExclusive ⟨w.curr, false⟩ }
    (w.setCurrentState .uninterruptible).goto (.completion x .sleep)
  else (w.setCompletion x { c with done := c.done - 1 }).goto x.after

/-- `wait_for_completion` after its call of `schedule`. -/
def waitForCompletionWoken (x : CompletionPtr) (w : WaitSys) : WaitSys :=
  let c := w.completion x
  -- `while (!x->done)`
  if c.done = 0 then (w.setCurrentState .uninterruptible).goto (.completion x .sleep)
  else
    let wait := c.wait.removeWaitQueue ⟨w.curr, true⟩
    (w.setCompletion x ⟨c.done - 1, wait⟩).goto x.after

/-- `current` calls a function of this file. -/
def enter (call : WaitCall) (w : WaitSys) : WaitSys :=
  match call with
  | .waitForCompletion x => w.goto (.completion (.other x) .call)
  | .sleepOn q => (w.setCurrentState .uninterruptible).goto (.sleepOn q false)
  | .interruptibleSleepOn q => (w.setCurrentState .interruptible).goto (.sleepOn q false)
  | .waitEvent q => if w.condition q then w else w.goto (.event q false .add)
  | .waitEventInterruptible q => if w.condition q then w else w.goto (.event q true .add)

variable [Param]

/-- `current` calls `schedule`, and will be at `place` when it runs again. -/
def scheduleTo (place : Place) (w : WaitSys) : Option WaitSys :=
  w.sys.schedule.map fun s => { w.goto place with sys := s }

/-- The next piece of the function that `current` is in. -/
def proceed (w : WaitSys) : Option WaitSys :=
  match w.here with
  | .outside | .vforkOut => none
  | .completion x .call => some (w.waitForCompletion x)
  | .completion x .sleep => w.scheduleTo (.completion x .wake)
  | .completion x .wake => some (w.waitForCompletionWoken x)
  -- interrupts stay off between `__add_wait_queue` and `schedule`
  | .sleepOn q false => (w.addEntry q).scheduleTo (.sleepOn q true)
  | .sleepOn q true => some ((w.removeEntry q).goto .outside)
  | .event q intr .add => some ((w.addEntry q).goto (.event q intr .set))
  | .event q intr .set =>
    let state := if intr then .interruptible else .uninterruptible
    some ((w.setCurrentState state).goto (.event q intr .check))
  -- `if (condition) break;`
  | .event q intr .check =>
    if w.condition q then some ((w.setCurrentState .running).goto (.event q intr .out))
    else some (w.goto (.event q intr (if intr then .signal else .sleep)))
  | .event q intr .signal =>
    if w.sys.current.sigpending then
      some ((w.setCurrentState .running).goto (.event q intr .out))
    else some (w.goto (.event q intr .sleep))
  | .event q intr .sleep => w.scheduleTo (.event q intr .set)
  | .event q _ .out => some ((w.removeEntry q).goto .outside)

/-- `complete` -/
def complete (x : CompletionPtr) (w : WaitSys) : WaitSys :=
  let c := w.completion x
  { w.setCompletion x { c with done := c.done + 1 } with
    sys := w.sys.wakeUpCommon anySleep false c.wait.taskList 1 }

/-- `mm_release` -/
def mmRelease (w : WaitSys) : WaitSys :=
  match w.vforkDone w.curr with
  | none => w
  | some parent =>
    { w with vforkDone := Function.update w.vforkDone w.curr none }.complete (.vfork parent)

/-- `do_fork` up to `copy_thread`, with the `vfork_done` of the child. -/
def doFork (cloneFlags : UInt32) (env : ForkEnv) (w : WaitSys) : WaitSys :=
  let s := (w.sys.doFork cloneFlags env).2
  let w' := { w with sys := s }
  -- `do_fork` has failed, and `p` is freed
  if s.forking = none then w'
  else if cloneFlags &&& cloneVfork ≠ 0 then
    { w'.setCompletion (.vfork w.curr) Completion.init with
      vforkDone := Function.update w.vforkDone env.child (some w.curr) }
  -- `p->vfork_done = NULL`
  else { w' with vforkDone := Function.update w.vforkDone env.child none }

/-- `do_fork` from `__restore_flags` up to its `wait_for_completion`, or to its end. -/
def doForkWake (w : WaitSys) : Option WaitSys := do
  let f ← w.sys.forking
  let s ← w.sys.doForkWake
  let w' := { w with sys := s }
  return if f.cloneFlags &&& cloneVfork ≠ 0 then w'.goto (.completion (.vfork w.curr) .call) else w'

end WaitSys

/-! ## The machine -/

inductive WaitOp
  /-- a step of the scheduler -/
  | sched (op : Op)
  | enter (call : WaitCall)
  | proceed
  /-- an interrupt or `current` completes a completion -/
  | complete (x : ℕ)
  | mmRelease
  | wakeUp (q : ℕ) (mode : UInt32) (nrExclusive : ℤ)
  | wakeUpSync (q : ℕ) (mode : UInt32) (nrExclusive : ℤ)
  | setCondition (q : ℕ) (holds : Bool)
deriving DecidableEq

namespace WaitOp

/-- Interrupts come at any time. `current` does nothing else while it is inside a function that
waits, and `do_exit` calls `exit_mm` before the task becomes a zombie. -/
def Allows (w : WaitSys) : Op → Prop
  | .tryToWakeUp _ _ | .schedulerTick | .setSigpending _ _ | .setJiffies _ => True
  | .vforkReturn => w.here = .vforkOut
  | .doExit _ => w.here = .outside ∧ w.vforkDone w.curr = none
  | .schedule | .setUserNice _ _ | .setscheduler _ _ _ | .sysSchedYield | .doFork _ _
  | .doForkSplit | .doForkWake | .schedExit _ | .setCurrentState _ => w.here = .outside

def Enabled (w : WaitSys) : WaitOp → Prop
  | sched op => op.Enabled w.sys ∧ Allows w op
  | enter _ => Op.InProcess w.sys ∧ w.here = .outside ∧ w.sys.current.state = .running
  | proceed => w.here ≠ .outside ∧ w.here ≠ .vforkOut
  | mmRelease => Op.InProcess w.sys ∧ w.here = .outside
  | complete _ | wakeUp _ _ _ | wakeUpSync _ _ _ | setCondition _ _ => True

variable [WaitHeader] [Param]

/-- What an operation does; `none` is an oops. -/
def exec : WaitOp → WaitSys → Option WaitSys
  | sched (.doFork cloneFlags env), w => some (w.doFork cloneFlags env)
  | sched .doForkWake, w => w.doForkWake
  | sched .vforkReturn, w => some ({ w with sys := w.sys.vforkReturn }.goto .outside)
  | sched op, w => (op.exec w.sys).map fun s => { w with sys := s }
  | enter call, w => some (w.enter call)
  | proceed, w => w.proceed
  | complete x, w => some (w.complete (.other x))
  | mmRelease, w => some w.mmRelease
  | wakeUp q mode nrExclusive, w =>
    some { w with sys := w.sys.wakeUp (w.queue q) mode nrExclusive }
  | wakeUpSync q mode nrExclusive, w =>
    some { w with sys := w.sys.wakeUpSync (w.queue q) mode nrExclusive }
  | setCondition q holds, w => some { w with condition := Function.update w.condition q holds }

instance (w : WaitSys) : DecidablePred (Allows w)
  | .tryToWakeUp _ _ | .schedulerTick | .setSigpending _ _ | .setJiffies _ => instDecidableTrue
  | .doExit _ => inferInstanceAs (Decidable (_ ∧ _))
  | .schedule | .setUserNice _ _ | .setscheduler _ _ _ | .sysSchedYield | .doFork _ _
  | .doForkSplit | .doForkWake | .vforkReturn | .schedExit _ | .setCurrentState _ =>
    inferInstanceAs (Decidable (_ = _))

instance (w : WaitSys) : (op : WaitOp) → Decidable (op.Enabled w)
  | sched _ | proceed | mmRelease => inferInstanceAs (Decidable (_ ∧ _))
  | enter _ => inferInstanceAs (Decidable (_ ∧ _ ∧ _))
  | complete _ | wakeUp _ _ _ | wakeUpSync _ _ _ | setCondition _ _ => instDecidableTrue

end WaitOp

variable [WaitHeader] [Param]

/-- One step of the machine. -/
def WaitStep (w : WaitSys) (op : WaitOp) (w' : WaitSys) : Prop :=
  op.Enabled w ∧ op.exec w = some w'

end ShortSched
