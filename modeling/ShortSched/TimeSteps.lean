import ShortSched.LifeCycle

/-!
# What a step does to the time of a task

The statements about time slices do not look at priorities. `TimeStep` is `SchedStep` without
them: most operations leave a task the time it had, and a tick, a fork, a request or a child
that is reaped do one thing each.
-/

namespace ShortSched

open General Sys

/-- Two tasks that differ at most in their priorities. -/
structure SameTime (p p' : TaskSched) : Prop where
  policy : p'.policy = p.policy
  iAmOverdue : p'.iAmOverdue = p.iAmOverdue
  timeSlice : p'.timeSlice = p.timeSlice
  firstTimeSlice : p'.firstTimeSlice = p.firstTimeSlice
  requestedTime : p'.requestedTime = p.requestedTime
  iWasShort : p'.iWasShort = p.iWasShort

namespace SameTime

variable {p p' : TaskSched}

theorem refl (p : TaskSched) : SameTime p p := ⟨rfl, rfl, rfl, rfl, rfl, rfl⟩

/-- The time stays the same over two steps that keep it. -/
theorem trans {p'' : TaskSched} (h : SameTime p p') (h' : SameTime p' p'') : SameTime p p'' where
  policy := h'.policy.trans h.policy
  iAmOverdue := h'.iAmOverdue.trans h.iAmOverdue
  timeSlice := h'.timeSlice.trans h.timeSlice
  firstTimeSlice := h'.firstTimeSlice.trans h.firstTimeSlice
  requestedTime := h'.requestedTime.trans h.requestedTime
  iWasShort := h'.iWasShort.trans h.iWasShort

theorem shortTask_iff (h : SameTime p p') : p'.ShortTask ↔ p.ShortTask := by
  unfold TaskSched.ShortTask
  rw [h.policy, h.iAmOverdue]

theorem renice (nice : ℤ) (p : TaskSched) : SameTime p (p.renice nice) := by
  obtain ⟨prio, staticPrio, overdueStaticPrio, heq⟩ := p.renice_eq nice
  rw [heq]
  exact ⟨rfl, rfl, rfl, rfl, rfl, rfl⟩

end SameTime

variable [Param] {s s' : Sys} {op : Op} {t : TaskId}

theorem SameTime.woken (jiffies : UInt32) (u : Task) :
    SameTime u.toTaskSched (u.woken jiffies).toTaskSched := by
  rw [Task.woken_sched]
  exact ⟨rfl, rfl, rfl, rfl, rfl, rfl⟩

/-- `requeue` gives its target the time of the update. -/
theorem SameTime.requeued {f : Task → Task}
    (hf : ∀ t : Task, f { t with array := none } = { f t with array := none }) (p : TaskId)
    (s : Sys) : SameTime (f (s.task p)).toTaskSched ((s.requeued p f).task p).toTaskSched := by
  rw [requeued_sched hf, if_pos rfl]
  split
  · exact .refl _
  · exact .woken _ _

/-! ## The slice of a parent that reaps -/

/-- The time slice of the parent `t` after `sched_exit` for its child `p`. -/
def Task.reapSlice (p t : Task) : UInt32 :=
  if p.firstTimeSlice ≠ 0 then
    if t.timeSlice + p.timeSlice > UInt32.ofInt maxTimeslice then UInt32.ofInt maxTimeslice
    else t.timeSlice + p.timeSlice
  else t.timeSlice

/-- Reaping a child changes the slice, and no other scheduling field. -/
theorem Task.reapChild_sched (p t : Task) : (p.reapChild t).toTaskSched =
    { t.toTaskSched with timeSlice := p.reapSlice t } := by
  unfold reapChild reapSlice
  dsimp only
  by_cases hfirst : p.firstTimeSlice ≠ 0
  · rw [if_pos hfirst, if_pos hfirst]
    by_cases hmax : t.timeSlice + p.timeSlice > UInt32.ofInt maxTimeslice
    · rw [if_pos hmax, if_pos hmax]
      split <;> rfl
    · rw [if_neg hmax, if_neg hmax]
      split <;> rfl
  · rw [if_neg hfirst, if_neg hfirst]
    split <;> rfl

/-! ## Steps -/

/-- The operation does not touch the time of `t`, whichever tasks it is about. -/
def Untouched (s : Sys) (t : TaskId) : Op → Prop
  | .schedulerTick => ¬(t = s.rq.curr ∧ s.Charged)
  | .doFork cloneFlags env => s.ForkRefused cloneFlags env ∨ t ≠ env.child
  | .doForkSplit => t ≠ s.rq.curr ∧ ∀ f ∈ s.forking, t ≠ f.child
  | .schedExit _ => t ≠ s.rq.curr
  | _ => True

/-- What an operation can do to the time of the task `t`. -/
inductive TimeStep (s : Sys) (t : TaskId) : Op → TaskSched → Prop
  | same {op : Op} {p' : TaskSched} (hop : Untouched s t op)
      (h : SameTime (s.task t).toTaskSched p') : TimeStep s t op p'
  | tick (ht : t = s.rq.curr) (h : s.Charged) :
      TimeStep s t .schedulerTick (s.task t).afterTick.toTaskSched
  | adjust {pid policy : ℤ} {param : UserParam} {lp : SchedParam} (target : Target s pid param t lp)
      (hshort : (s.task t).policy = .short)
      (hgt : (changeMsToJiffis lp.requestedTime).toUInt32 >
        (s.task t).requestedTime.toUInt32 - (s.task t).timeSlice) :
      TimeStep s t (.setscheduler pid policy param) ((s.task t).adjustShort lp).toTaskSched
  | make {pid policy : ℤ} {param : UserParam} {lp : SchedParam} {p' : TaskSched}
      (target : Target s pid param t lp) (hother : (s.task t).policy = .other)
      (hle : lp.requestedTime ≤ 3000) (hge : minRequestedTime ≤ changeMsToJiffis lp.requestedTime)
      (h : SameTime ((s.task t).makeShort lp).toTaskSched p') :
      TimeStep s t (.setscheduler pid policy param) p'
  | setPolicy {pid policy : ℤ} {param : UserParam} {lp : SchedParam} {policy' : Policy}
      {p' : TaskSched} (target : Target s pid param t lp) (hnot : (s.task t).policy ≠ .short)
      (hnew : policy' ≠ .short) (h : SameTime ((s.task t).setPolicy policy' lp).toTaskSched p') :
      TimeStep s t (.setscheduler pid policy param) p'
  | forkCopy {cloneFlags : UInt32} {env : ForkEnv} (hnot : ¬s.ForkRefused cloneFlags env)
      (ht : t = env.child) : TimeStep s t (.doFork cloneFlags env) s.current.toTaskSched
  | forkSlice (ht : t = s.rq.curr) (hsome : (s.task t).timeSlice ≠ 0)
      (hslice : (s.task t).parentSlice ≠ 0) :
      TimeStep s t .doForkSplit
        { (s.task t).toTaskSched with timeSlice := (s.task t).parentSlice }
  | forkExpired (ht : t = s.rq.curr) (hsome : (s.task t).timeSlice ≠ 0)
      (hslice : (s.task t).parentSlice = 0) (h : (s.task t).array = some s.rq.expired) :
      TimeStep s t .doForkSplit { (s.task t).toTaskSched with timeSlice := 1 }
  | forkTick (ht : t = s.rq.curr) (hsome : (s.task t).timeSlice ≠ 0)
      (hslice : (s.task t).parentSlice = 0) (h : (s.task t).array ≠ some s.rq.expired) :
      TimeStep s t .doForkSplit
        (Task.afterTick { s.task t with
          timeSlice := 1
          justGotForked := 0 }).toTaskSched
  | forkChild {f : PendingFork} (hf : s.forking = some f) (ht : t = f.child)
      (hsome : s.current.timeSlice ≠ 0) :
      TimeStep s t .doForkSplit
        { (s.task t).toTaskSched with
          timeSlice := s.current.childSlice (s.task t)
          firstTimeSlice := 1 }
  | reap {p : TaskId} (ht : t = s.rq.curr) :
      TimeStep s t (.schedExit p)
        { (s.task t).toTaskSched with timeSlice := (s.task p).reapSlice (s.task t) }

/-- A tick charges `current`, if anyone. -/
theorem schedulerTick_timeStep (s : Sys) (t : TaskId) :
    TimeStep s t .schedulerTick (s.schedulerTick.task t).toTaskSched := by
  rw [schedulerTick_sched]
  by_cases ht : t = s.rq.curr ∧ s.Charged
  · rw [if_pos ht]
    obtain ⟨rfl, hcharged⟩ := ht
    exact .tick rfl hcharged
  · rw [if_neg ht]
    exact .same ht (.refl _)

/-- The copy gives the child the time of its parent. -/
theorem doFork_timeStep {cloneFlags : UInt32} {env : ForkEnv} (s : Sys) (t : TaskId) :
    TimeStep s t (.doFork cloneFlags env) ((s.doFork cloneFlags env).2.task t).toTaskSched := by
  rcases doFork_cases cloneFlags env s with ⟨hrefused, hsame⟩ | ⟨hnot, hcopied⟩
  · rw [hsame]
    exact .same (.inl hrefused) (.refl _)
  rw [hcopied]
  by_cases ht : t = env.child
  · subst ht
    rw [copied_child]
    exact .forkCopy hnot rfl
  · rw [copied_of_ne ht]
    exact .same (.inr ht) (.refl _)

/-- **The split** divides the time of the parent that it finds. -/
theorem doForkSplit_timeStep (hfork : Step s .doForkSplit s') (t : TaskId) :
    TimeStep s t .doForkSplit (s'.task t).toTaskSched := by
  obtain ⟨f, hf, -, hidle, hcopy, hsome, rfl⟩ := doForkSplit_step hfork
  by_cases hchild : t = f.child
  · subst hchild
    rw [forked_child hcopy.ne_curr, Task.forkChild_sched _ hcopy.policy]
    exact .forkChild hf rfl hsome
  by_cases hcurr : t = s.rq.curr
  swap
  · rw [forked_of_ne hchild hcurr]
    refine .same ⟨hcurr, fun f' hf' => ?_⟩ (.refl _)
    rw [hf, Option.mem_some_iff] at hf'
    rwa [← hf']
  subst hcurr
  rw [forked_current_sched hidle hcopy.ne_curr]
  by_cases hslice : s.current.parentSlice = 0
  swap
  · rw [if_pos hslice]
    exact .forkSlice rfl hsome hslice
  rw [if_neg (not_not.mpr hslice)]
  by_cases harray : s.current.array = some s.rq.expired
  · rw [if_pos harray]
    exact .forkExpired rfl hsome hslice harray
  · rw [if_neg harray]
    exact .forkTick rfl hsome hslice harray

/-- `sched_exit` gives time back to the parent. -/
theorem schedExit_timeStep (p : TaskId) (s : Sys) (t : TaskId) :
    TimeStep s t (.schedExit p) ((s.schedExit p).task t).toTaskSched := by
  rw [schedExit, modify_task]
  by_cases ht : t = s.rq.curr
  · subst ht
    rw [Function.update_self, Task.reapChild_sched]
    exact .reap rfl
  · rw [Function.update_of_ne ht]
    exact .same ht (.refl _)

/-- The operations that cannot change the time of any task. -/
def KeepsTimes : Op → Prop
  | .schedulerTick | .doFork _ _ | .doForkSplit | .schedExit _ | .setscheduler _ _ _ => False
  | _ => True

/-- Every other step keeps the time of all tasks. -/
theorem SchedStep.sameTime {p' : TaskSched} (h : SchedStep s t op p') (hop : KeepsTimes op) :
    SameTime (s.task t).toTaskSched p' := by
  cases h with
  | same => exact .refl _
  | woken => exact .woken _ _
  | renice nice => exact .renice nice _
  | yield | forkWoken => exact ⟨rfl, rfl, rfl, rfl, rfl, rfl⟩
  | tick | adjust | make | setPolicy | forkCopy | forkSlice | forkExpired | forkTick | forkChild
  | reap => exact hop.elim

/-- **A step** changes the time of a task in one of these ways. -/
theorem step_time (h : Step s op s') (t : TaskId) : TimeStep s t op (s'.task t).toTaskSched := by
  have hsched := step_sched h t
  cases op with
  | schedulerTick =>
    obtain rfl := Option.some.inj h.2
    exact schedulerTick_timeStep s t
  | doFork cloneFlags env =>
    obtain rfl := Option.some.inj h.2
    exact doFork_timeStep s t
  | doForkSplit => exact doForkSplit_timeStep h t
  | schedExit p =>
    obtain rfl := Option.some.inj h.2
    exact schedExit_timeStep p s t
  | setscheduler pid policy param =>
    generalize (s'.task t).toTaskSched = p' at hsched
    cases hsched with
    | same => exact .same trivial (.refl _)
    | adjust target hshort hgt => exact .adjust target hshort hgt
    | make target hother _ hle hge =>
      refine .make target hother hle hge ?_
      split
      · exact .refl _
      · exact .woken _ _
    | setPolicy target hnot hnew =>
      refine .setPolicy target hnot hnew ?_
      split
      · exact .refl _
      · exact .woken _ _
  | _ => exact .same trivial (hsched.sameTime trivial)

/-! ## Successful forks -/

section fork

variable {cloneFlags : UInt32} {env : ForkEnv} {f : PendingFork}

/-- A fork that is not refused copies the task. -/
theorem doFork_step (hfork : Step s (.doFork cloneFlags env) s')
    (hnot : ¬s.ForkRefused cloneFlags env) : s' = s.copied cloneFlags env := by
  obtain rfl := Option.some.inj hfork.2
  rw [doFork_of_not_refused hnot]

theorem doFork_child_sched (hfork : Step s (.doFork cloneFlags env) s')
    (hnot : ¬s.ForkRefused cloneFlags env) :
    (s'.task env.child).toTaskSched = s.current.toTaskSched := by
  rw [doFork_step hfork hnot, copied_child]
  rfl

/-- What the child has after the split. -/
theorem doForkSplit_child_sched (hfork : Step s .doForkSplit s') (hf : s.forking = some f) :
    (s'.task f.child).toTaskSched =
      { (s.task f.child).toTaskSched with
        timeSlice := s.current.childSlice (s.task f.child)
        firstTimeSlice := 1 } := by
  obtain ⟨f', hf', -, -, hcopy, -, rfl⟩ := doForkSplit_step hfork
  obtain rfl := Option.some.inj (hf.symm.trans hf')
  rw [forked_child hcopy.ne_curr, Task.forkChild_sched _ hcopy.policy]

end fork

/-- What a split leaves of the time of the parent. -/
inductive ParentTime (s : Sys) : TaskSched → Prop
  | slice (hsome : s.current.timeSlice ≠ 0) (hslice : s.current.parentSlice ≠ 0) :
      ParentTime s { s.current.toTaskSched with timeSlice := s.current.parentSlice }
  | expired (hsome : s.current.timeSlice ≠ 0) (hslice : s.current.parentSlice = 0)
      (h : s.current.array = some s.rq.expired) :
      ParentTime s { s.current.toTaskSched with timeSlice := 1 }
  | tick (hsome : s.current.timeSlice ≠ 0) (hslice : s.current.parentSlice = 0)
      (h : s.current.array ≠ some s.rq.expired) :
      ParentTime s (Task.afterTick { s.current with
        timeSlice := 1
        justGotForked := 0 }).toTaskSched

/-- What the parent has after the split. -/
theorem doForkSplit_curr_time (hfork : Step s .doForkSplit s') :
    ParentTime s (s'.task s.rq.curr).toTaskSched := by
  have htime := step_time hfork s.rq.curr
  generalize (s'.task s.rq.curr).toTaskSched = p' at htime ⊢
  cases htime with
  | same hop => exact absurd rfl hop.1
  | forkSlice _ hsome hslice => exact .slice hsome hslice
  | forkExpired _ hsome hslice harray => exact .expired hsome hslice harray
  | forkTick _ hsome hslice harray => exact .tick hsome hslice harray
  | forkChild hf hchild =>
    obtain ⟨f', hf', -, -, hcopy, -⟩ := doForkSplit_step hfork
    obtain rfl := Option.some.inj (hf.symm.trans hf')
    exact absurd hchild.symm hcopy.ne_curr

end ShortSched
