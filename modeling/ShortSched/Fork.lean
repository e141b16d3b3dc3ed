import ShortSched.Sched

/-!
# `do_fork`

`do_fork` copies the task with interrupts on, disables them to split the time slice, and enables
them again before `wake_up_forked_process` takes the runqueue lock. It is modelled as three steps
with two windows between them: `doFork` is the copy, `doForkSplit` goes from `__cli` to
`__restore_flags`, and `doForkWake` is the rest. What comes in the windows is interrupts: that a
`copy_*` function may sleep in the first one is left out.
-/

namespace ShortSched

/-- What `do_fork` gets from the code around the scheduler: the structure of
`alloc_task_struct`, the pid of `get_pid`, and the outcome of the process limits and of the
`copy_*` functions (0, or a negative error number). -/
structure ForkEnv where
  child : TaskId
  pid : ℤ
  retval : ℤ
deriving DecidableEq

/-- The child as `*p = *current` and the assignments up to `copy_thread` leave it. -/
def Task.copyForChild (cloneFlags : UInt32) (pid : ℤ) (current : Task) : Task :=
  { current with
    state := .uninterruptible
    flags := (current.flags &&& ~~~(pfSuperpriv ||| pfUsedfpu)) ||| pfForknoexec
    ptrace := if cloneFlags &&& clonePtrace = 0 then 0 else current.ptrace
    pid := pid
    sigpending := false
    array := none }

/-- The child's share of the time slice that the parent has by then. -/
def Task.childSplit (current p : Task) : Task :=
  if current.policy = .short then
    let p := { p with policy := .short }
    let p := if current.ShortTask then
        { p with timeSlice := current.timeSlice / 2 + current.timeSlice % 2 }
      else p
    { p with firstTimeSlice := 1 }
  else { p with timeSlice := (current.timeSlice + 1) >>> 1, firstTimeSlice := 1 }

/-- What the split leaves to the parent. -/
def Task.parentSplit (current : Task) : Task :=
  if current.policy = .short then
    if current.ShortTask then
      { current with timeSlice := current.timeSlice >>> 1, justGotForked := 1 }
    else current
  else { current with timeSlice := current.timeSlice >>> 1 }

namespace Sys

variable [Param]

/-- The synthetic tick of a parent whose single jiffy went to the child. -/
def lastJiffy (s : Sys) : Sys :=
  if s.current.timeSlice = 0 then
    let s := s.modify s.rq.curr fun t => { t with justGotForked := 0, timeSlice := 1 }
    s.schedulerTick
  else s

/-- `do_fork` up to `copy_thread`, with the return value of the whole call. -/
def doFork (cloneFlags : UInt32) (env : ForkEnv) (s : Sys) : ℤ × Sys :=
  if cloneFlags &&& (cloneNewns ||| cloneFs) = cloneNewns ||| cloneFs then (-eINVAL, s)
  else if cloneFlags &&& clonePid ≠ 0 ∧ s.current.pid ≠ 0 then (-ePERM, s)
  else if env.retval < 0 then (env.retval, s)
  else
    let parent := s.current
    let s := s.modify env.child fun _ => parent.copyForChild cloneFlags env.pid
    (env.pid, { s with forking := some ⟨env.child, cloneFlags, false⟩ })

/-- `do_fork` from `__cli` to `__restore_flags`; a parent without a time slice is a `BUG()`. -/
def doForkSplit (s : Sys) : Option Sys := do
  let f ← s.forking
  if s.current.timeSlice = 0 then none
  else
    let parent := s.current
    let s := s.modify f.child fun p => { parent.childSplit p with sleepTimestamp := s.jiffies }
    let s := s.modify s.rq.curr Task.parentSplit
    let s := s.lastJiffy
    return { s with forking := some { f with split := true } }

/-- The links of the child to its parents, and `SET_LINKS`. -/
def linkChild (f : PendingFork) (s : Sys) : Sys :=
  let curr := s.rq.curr
  let parent := s.current
  let s := s.modify f.child fun t => { t with pOpptr := parent.pOpptr, pPptr := parent.pPptr }
  let s := if f.cloneFlags &&& cloneParent = 0 then
      s.modify f.child fun t =>
        { t with
          pOpptr := curr
          pPptr := if t.ptrace &&& ptPtraced = 0 then curr else t.pPptr }
    else s
  { s with tasklist := s.tasklist ++ [f.child], forking := none }

/-- The end of `do_fork`. A parent that waits for a `CLONE_VFORK` child does so in
`wait_for_completion`: it sets its state and calls `schedule`, which are steps of their own. -/
def forkOut (cloneFlags : UInt32) (s : Sys) : Sys :=
  if cloneFlags &&& cloneVfork ≠ 0 then s
  else if s.current.OverdueTask then s
  else s.setTskNeedResched s.rq.curr

/-- `send_sig(SIGSTOP, p, 1)` for the child: the signal is pending. -/
def sendSigstop (p : TaskId) (s : Sys) : Sys := s.modify p fun t => { t with sigpending := true }

/-- `do_fork` from the links of the child to the return of `wake_up_forked_process`. -/
def forkWake (f : PendingFork) (s : Sys) : Sys :=
  let s := s.linkChild f
  let s := if (s.task f.child).ptrace &&& ptPtraced ≠ 0 then s.sendSigstop f.child else s
  s.wakeUpForkedProcess f.child

/-- `do_fork` from `__restore_flags` on. -/
def doForkWake (s : Sys) : Option Sys := do
  let f ← s.forking
  return (s.forkWake f).forkOut f.cloneFlags

/-- `do_fork` after the wait for a `CLONE_VFORK` child. -/
def vforkReturn (s : Sys) : Sys :=
  if s.current.ShortTask then s.setTskNeedResched s.rq.curr else s

end Sys
end ShortSched
