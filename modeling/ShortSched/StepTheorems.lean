import ShortSched.ForkTheorems
import ShortSched.NiceTheorems
import ShortSched.SetschedulerTheorems
import ShortSched.YieldTheorems

/-!
# What a step of the machine changes

`SchedStep` lists what an operation can do to the scheduling fields of a task, and `step_sched`
says that there is nothing else. The invariants of tasks are derived from this list alone.
-/

namespace ShortSched

open General Sys

variable [Param] {s s' : Sys} {op : Op} {t : TaskId}

/-- What an operation can do to the scheduling fields of the task `t`. -/
inductive SchedStep (s : Sys) (t : TaskId) : Op → TaskSched → Prop
  | same (op : Op) : SchedStep s t op (s.task t).toTaskSched
  | woken (sync : Bool) (h : (s.task t).array = none) :
      SchedStep s t (.tryToWakeUp t sync) ((s.task t).woken s.jiffies).toTaskSched
  | tick (ht : t = s.rq.curr) (h : s.Charged) :
      SchedStep s t .schedulerTick (s.task t).afterTick.toTaskSched
  | renice (nice : ℤ) : SchedStep s t (.setUserNice t nice) ((s.task t).renice nice)
  | adjust {pid policy : ℤ} {param : UserParam} {lp : SchedParam} (target : Target s pid param t lp)
      (hshort : (s.task t).policy = .short)
      (hgt : (changeMsToJiffis lp.requestedTime).toUInt32 >
        (s.task t).requestedTime.toUInt32 - (s.task t).timeSlice) :
      SchedStep s t (.setscheduler pid policy param) ((s.task t).adjustShort lp).toTaskSched
  | make {pid policy : ℤ} {param : UserParam} {lp : SchedParam} (target : Target s pid param t lp)
      (hother : (s.task t).policy = .other)
      (hpolicy : 0 ≤ policy ∧ Policy.ofInt? policy = some .short) (hle : lp.requestedTime ≤ 3000)
      (hge : minRequestedTime ≤ changeMsToJiffis lp.requestedTime) (hmay : s.MayShorten t) :
      SchedStep s t (.setscheduler pid policy param)
        (if (s.task t).array = none then ((s.task t).makeShort lp).toTaskSched
        else (((s.task t).makeShort lp).woken s.jiffies).toTaskSched)
  | setPolicy {pid policy : ℤ} {param : UserParam} {lp : SchedParam} {policy' : Policy}
      (target : Target s pid param t lp) (hnot : (s.task t).policy ≠ .short)
      (hnew : policy' ≠ .short)
      (hprio : 0 ≤ lp.schedPriority.toInt ∧ lp.schedPriority.toInt ≤ maxUserRtPrio - 1)
      (hiff : policy' = .other ↔ lp.schedPriority.toInt = 0) :
      SchedStep s t (.setscheduler pid policy param)
        (if (s.task t).array = none then ((s.task t).setPolicy policy' lp).toTaskSched
        else (((s.task t).setPolicy policy' lp).woken s.jiffies).toTaskSched)
  | yield {array : PrioArrayPtr} (ht : t = s.rq.curr) (harray : (s.task t).array = some array) :
      SchedStep s t .sysSchedYield
        { (s.task t).toTaskSched with prio := s.yieldPrio t array }
  | forkCopy (cloneFlags : UInt32) (env : ForkEnv) (ht : t = env.child) :
      SchedStep s t (.doFork cloneFlags env) s.current.toTaskSched
  | forkSlice (ht : t = s.rq.curr) (hslice : (s.task t).parentSlice ≠ 0) :
      SchedStep s t .doForkSplit
        { (s.task t).toTaskSched with timeSlice := (s.task t).parentSlice }
  | forkExpired (ht : t = s.rq.curr) (hslice : (s.task t).parentSlice = 0)
      (h : (s.task t).array = some s.rq.expired) :
      SchedStep s t .doForkSplit { (s.task t).toTaskSched with timeSlice := 1 }
  | forkTick (ht : t = s.rq.curr) (hsome : (s.task t).timeSlice ≠ 0)
      (hslice : (s.task t).parentSlice = 0) (h : (s.task t).array ≠ some s.rq.expired) :
      SchedStep s t .doForkSplit
        (Task.afterTick { s.task t with
          timeSlice := 1
          justGotForked := 0 }).toTaskSched
  | forkChild {f : PendingFork} (hf : s.forking = some f) (ht : t = f.child) :
      SchedStep s t .doForkSplit
        { (s.task t).toTaskSched with
          timeSlice := s.current.childSlice (s.task t)
          firstTimeSlice := 1 }
  | forkWoken {f : PendingFork} (hf : s.forking = some f) (ht : t = f.child) (prio : ℤ)
      (hprio : prio = (s.task t).prio ∨ ¬(s.task t).RtTask ∧
        ∃ sleepAvg, prio = Task.effectivePrio { s.task t with sleepAvg := sleepAvg }) :
      SchedStep s t .doForkWake { (s.task t).toTaskSched with prio := prio }
  | reap (p : TaskId) (ht : t = s.rq.curr) (timeSlice : UInt32) :
      SchedStep s t (.schedExit p) { (s.task t).toTaskSched with timeSlice := timeSlice }

/-! ## The operations that keep all scheduling fields -/

omit [Param] in
theorem schedule_sched (h : s.schedule = some s') (t : TaskId) :
    (s'.task t).toTaskSched = (s.task t).toTaskSched := by
  have hpass : ∀ s₁ s₂ : Sys, (s₁.task t).toTaskSched = (s.task t).toTaskSched →
      s₁.schedulePass = some s₂ → (s₂.task t).toTaskSched = (s.task t).toTaskSched :=
    fun _ _ hs hpass => ((schedulePass_frame hpass).sched t).trans hs
  exact scheduleLoop_induct hpass h rfl

/-- Only the time slice and the sleep average of the parent change. -/
theorem reapChild_eq (p t : Task) : ∃ timeSlice sleepAvg, p.reapChild t =
    { t with
      timeSlice := timeSlice
      sleepAvg := sleepAvg } := by
  unfold Task.reapChild
  dsimp only
  split
  · split
    · split
      · exact ⟨_, _, rfl⟩
      · exact ⟨_, _, rfl⟩
    · split
      · exact ⟨_, _, rfl⟩
      · exact ⟨_, _, rfl⟩
  · split
    · exact ⟨_, _, rfl⟩
    · exact ⟨_, _, rfl⟩

omit [Param] in
/-- The end of `do_fork` sets `need_resched` at most. -/
theorem sameTasks_forkOut (cloneFlags : UInt32) (s : Sys) : SameTasks s (s.forkOut cloneFlags) := by
  unfold forkOut
  split
  · exact .of_task rfl
  split
  · exact .of_task rfl
  · exact .setTskNeedResched _ s

/-! ## The operations that change one -/

/-- **`setscheduler`** changes its target, and wakes up the parents that it pulls along. -/
theorem setscheduler_schedStep {pid policy : ℤ} {param : UserParam} {r : ℤ}
    (h : s.setscheduler pid policy param = some (r, s')) (t : TaskId) :
    SchedStep s t (.setscheduler pid policy param) (s'.task t).toTaskSched := by
  cases SetschedCase.of_eq_some h with
  | refused _ hsame =>
    rw [hsame.sameTasks.sched]
    exact .same _
  | @adjusted p lp target hshort hpolicy hle hgt =>
    rw [(SameTasks.setTskNeedResched _ _).sched, modify_task]
    by_cases ht : t = p
    · subst ht
      rw [Function.update_self]
      exact .adjust target hshort hgt
    · rw [Function.update_of_ne ht]
      exact .same _
  | @madeShort p lp target hother hpolicy hle hge hmay =>
    rw [(SameTasks.setTskNeedResched _ _).sched, requeued_sched fun _ => rfl]
    by_cases ht : t = p
    · subst ht
      rw [if_pos rfl]
      exact .make target hother hpolicy hle hge hmay
    · rw [if_neg ht]
      exact .same _
  | @changed p lp policy' s₁ target hnot hnew hprio hiff hsame =>
    rw [requeued_sched fun _ => rfl]
    by_cases ht : t = p
    · subst ht
      -- `capable` has changed the flags at most
      obtain ⟨flags, htask⟩ := hsame.task t
      have hwoken : (((s₁.task t).setPolicy policy' lp).woken s₁.jiffies).toTaskSched =
          (((s.task t).setPolicy policy' lp).woken s.jiffies).toTaskSched := by
        rw [htask, hsame.jiffies]
        exact Task.woken_congr _ rfl rfl rfl
      have hset : ((s₁.task t).setPolicy policy' lp).toTaskSched =
          ((s.task t).setPolicy policy' lp).toTaskSched := by
        rw [htask]
        rfl
      rw [if_pos rfl, hsame.sameTasks.array, hset, hwoken]
      exact .setPolicy target hnot hnew hprio hiff
    · rw [if_neg ht, hsame.sameTasks.sched]
      exact .same _

/-- `sys_sched_yield` changes the priority of `current` at most. -/
theorem sysSchedYield_schedStep (h : s.sysSchedYield = some s') (t : TaskId) :
    SchedStep s t .sysSchedYield (s'.task t).toTaskSched := by
  unfold sysSchedYield at h
  simp only [Option.bind_eq_bind, Option.bind_eq_some_iff] at h
  obtain ⟨s₁, hyield, hsched⟩ := h
  obtain ⟨array, harray, hframe⟩ := yieldRequeue_eq_some hyield
  rw [schedule_sched hsched, hframe.task]
  by_cases ht : t = s.rq.curr
  · subst ht
    rw [Function.update_self]
    exact .yield rfl harray
  · rw [Function.update_of_ne ht]
    exact .same _

/-- **The split** changes the parent and the child. -/
theorem forked_schedStep {f : PendingFork} (hf : s.forking = some f)
    (hidle : s.rq.curr ≠ s.rq.idle) (hcopy : Op.CopiedTask s f.child)
    (hsome : s.current.timeSlice ≠ 0) (t : TaskId) :
    SchedStep s t .doForkSplit ((s.forked f).task t).toTaskSched := by
  by_cases hchild : t = f.child
  · subst hchild
    rw [forked_child hcopy.ne_curr, Task.forkChild_sched _ hcopy.policy]
    exact .forkChild hf rfl
  by_cases hcurr : t = s.rq.curr
  swap
  · rw [forked_of_ne hchild hcurr]
    exact .same _
  subst hcurr
  rw [forked_current_sched hidle hcopy.ne_curr]
  by_cases hslice : s.current.parentSlice = 0
  swap
  · rw [if_pos hslice]
    exact .forkSlice rfl hslice
  -- the parent has given its single jiffy away
  rw [if_neg (not_not.mpr hslice)]
  by_cases harray : s.current.array = some s.rq.expired
  · rw [if_pos harray]
    exact .forkExpired rfl hslice harray
  · rw [if_neg harray]
    exact .forkTick rfl hsome hslice harray

/-- The split finds the copy that `doFork` has made. -/
theorem doForkSplit_step (h : Step s .doForkSplit s') : ∃ f, s.forking = some f ∧
    f.split = false ∧ s.rq.curr ≠ s.rq.idle ∧ Op.CopiedTask s f.child ∧
      s.current.timeSlice ≠ 0 ∧ s' = s.forked f := by
  obtain ⟨⟨hidle, f, hf, hsplit, hcopy⟩, hexec⟩ := h
  obtain ⟨f', hf', hslice, heq⟩ := doForkSplit_eq_some hexec
  obtain rfl := Option.some.inj (hf.symm.trans hf')
  exact ⟨f, hf, hsplit, hidle, hcopy, hslice, heq⟩

/-- The end of a fork wakes up the child. -/
theorem doForkWake_schedStep (h : s.doForkWake = some s') (t : TaskId) :
    SchedStep s t .doForkWake (s'.task t).toTaskSched := by
  obtain ⟨f, hf, rfl⟩ := doForkWake_eq_some h
  have hprep := forkPrepared f s
  rw [(sameTasks_forkOut _ _).sched, activateTask_sched]
  by_cases ht : t = f.child
  swap
  · rw [modify_task, Function.update_of_ne ht, hprep.sched t ht]
    exact .same _
  subst ht
  obtain ⟨sleepAvg, hchild⟩ := hprep.child_sched
  rw [modify_task, Function.update_self, Task.woken_sched]
  set c := (s.forkPrepare f).task f.child
  by_cases hrt : (s.task f.child).RtTask
  · -- a real-time child is not touched
    rw [if_pos hrt] at hchild
    rw [hchild]
    refine .forkWoken hf rfl _ ?_
    rcases Task.woken_prio (s.forkPrepare f).jiffies c with hsame | ⟨hc, -⟩
    · exact .inl (hsame.trans (congrArg TaskSched.prio hchild))
    · rw [hchild] at hc
      exact absurd hrt hc
  · rw [if_neg hrt] at hchild
    have hprio : ∃ sleepAvg, (c.woken (s.forkPrepare f).jiffies).prio =
        Task.effectivePrio { s.task f.child with sleepAvg := sleepAvg } := by
      rcases Task.woken_prio (s.forkPrepare f).jiffies c with hsame | ⟨-, avg, havg⟩
      · exact ⟨sleepAvg, hsame.trans (congrArg TaskSched.prio hchild)⟩
      · refine ⟨avg, havg.trans ?_⟩
        -- `effective_prio` does not look at the old priority
        simp only [Task.effectivePrio, hchild]
    rw [hchild]
    exact .forkWoken hf rfl _ (.inr ⟨hrt, hprio⟩)

/-- **A step** changes the scheduling fields of a task in one of these ways. -/
theorem step_sched (h : Step s op s') (t : TaskId) : SchedStep s t op (s'.task t).toTaskSched := by
  obtain ⟨hen, hexec⟩ := h
  cases op with
  | tryToWakeUp p sync =>
    obtain rfl := Option.some.inj hexec
    rw [tryToWakeUp_sched]
    by_cases hp : t = p ∧ (s.task p).array = none
    · obtain ⟨rfl, harray⟩ := hp
      rw [if_pos ⟨rfl, harray⟩]
      exact .woken sync harray
    · rw [if_neg hp]
      exact .same _
  | schedule =>
    rw [schedule_sched hexec]
    exact .same _
  | schedulerTick =>
    obtain rfl := Option.some.inj hexec
    rw [schedulerTick_sched]
    by_cases ht : t = s.rq.curr ∧ s.Charged
    · obtain ⟨rfl, hcharged⟩ := ht
      rw [if_pos ⟨rfl, hcharged⟩]
      exact .tick rfl hcharged
    · rw [if_neg ht]
      exact .same _
  | setUserNice p nice =>
    obtain rfl := Option.some.inj hexec
    rw [setUserNice_sched]
    by_cases ht : t = p
    · subst ht
      rw [if_pos rfl]
      exact .renice nice
    · rw [if_neg ht]
      exact .same _
  | setscheduler pid policy param =>
    obtain ⟨r, hr, rfl⟩ := Option.map_eq_some_iff.mp hexec
    exact setscheduler_schedStep hr t
  | sysSchedYield => exact sysSchedYield_schedStep hexec t
  | doFork cloneFlags env =>
    obtain rfl := Option.some.inj hexec
    rcases doFork_cases cloneFlags env s with ⟨-, hsame⟩ | ⟨-, hcopied⟩
    · rw [hsame]
      exact .same _
    rw [hcopied]
    by_cases ht : t = env.child
    · subst ht
      rw [copied_child]
      exact .forkCopy cloneFlags env rfl
    · rw [copied_of_ne ht]
      exact .same _
  | doForkSplit =>
    obtain ⟨f, hf, -, hidle, hcopy, hsome, rfl⟩ := doForkSplit_step ⟨hen, hexec⟩
    exact forked_schedStep hf hidle hcopy hsome t
  | doForkWake => exact doForkWake_schedStep hexec t
  | vforkReturn =>
    obtain rfl := Option.some.inj hexec
    unfold vforkReturn
    split
    · rw [(SameTasks.setTskNeedResched _ s).sched]
      exact .same _
    · exact .same _
  | schedExit p =>
    obtain rfl := Option.some.inj hexec
    show SchedStep s t _ ((s.modify s.rq.curr (s.task p).reapChild).task t).toTaskSched
    rw [modify_task]
    by_cases ht : t = s.rq.curr
    · subst ht
      obtain ⟨timeSlice, sleepAvg, hreap⟩ := reapChild_eq (s.task p) s.current
      rw [Function.update_self, hreap]
      exact .reap p rfl timeSlice
    · rw [Function.update_of_ne ht]
      exact .same _
  | doExit reaper =>
    obtain rfl := Option.some.inj hexec
    rw [modify_proj Task.toTaskSched rfl]
    dsimp only
    split <;> exact .same _
  | setCurrentState state =>
    obtain rfl := Option.some.inj hexec
    rw [modify_proj Task.toTaskSched rfl]
    exact .same _
  | setSigpending p pending =>
    obtain rfl := Option.some.inj hexec
    rw [modify_proj Task.toTaskSched rfl]
    exact .same _
  | setJiffies jiffies =>
    obtain rfl := Option.some.inj hexec
    exact .same _

/-! ## Pointers -/

omit [Param] in
theorem samePtrsUpToSwap_schedule (h : s.schedule = some s') :
    SamePtrsUpToSwap s.rq.toRqPtrs s'.rq.toRqPtrs := by
  have hpass : ∀ s₁ s₂ : Sys, SamePtrsUpToSwap s.rq.toRqPtrs s₁.rq.toRqPtrs →
      s₁.schedulePass = some s₂ → SamePtrsUpToSwap s.rq.toRqPtrs s₂.rq.toRqPtrs :=
    fun _ _ hs hpass => hs.trans (schedulePass_frame hpass).ptrs
  exact scheduleLoop_induct hpass h (SamePtrs.refl _).upToSwap

omit [Param] in
theorem forkOut_rq (cloneFlags : UInt32) (s : Sys) : (s.forkOut cloneFlags).rq = s.rq := by
  unfold forkOut
  split
  · rfl
  split <;> rfl

/-- `setscheduler` switches neither tasks nor arrays. -/
theorem samePtrs_setscheduler {pid policy : ℤ} {param : UserParam} {r : ℤ}
    (h : s.setscheduler pid policy param = some (r, s')) :
    SamePtrs s.rq.toRqPtrs s'.rq.toRqPtrs := by
  cases SetschedCase.of_eq_some h with
  | refused _ hsame => exact .of_eq (by rw [hsame.rq])
  | adjusted => exact .refl _
  | madeShort => exact samePtrs_requeued _ _ s
  | @changed p lp policy' s₁ _ _ _ _ _ hsame =>
    have hrequeued := samePtrs_requeued p (Task.setPolicy policy' lp) s₁
    rwa [hsame.rq] at hrequeued

theorem samePtrs_doForkWake (h : s.doForkWake = some s') :
    SamePtrs s.rq.toRqPtrs s'.rq.toRqPtrs := by
  obtain ⟨f, -, rfl⟩ := doForkWake_eq_some h
  rw [forkOut_rq, activateTask_ptrs, (forkPrepared f s).rq]
  exact ⟨rfl, rfl, rfl, rfl, rfl, rfl⟩

/-- No step points `idle`, `rt_short` or `overdue` elsewhere, and only `schedule` exchanges
`active` and `expired` or changes `current`. -/
theorem step_ptrs (h : Step s op s') : SamePtrsUpToSwap s.rq.toRqPtrs s'.rq.toRqPtrs ∧
    (SamePtrs s.rq.toRqPtrs s'.rq.toRqPtrs ∨ op = .schedule ∨ op = .sysSchedYield) := by
  suffices hcases : SamePtrs s.rq.toRqPtrs s'.rq.toRqPtrs ∨
      SamePtrsUpToSwap s.rq.toRqPtrs s'.rq.toRqPtrs ∧ (op = .schedule ∨ op = .sysSchedYield) by
    rcases hcases with hsame | ⟨hswap, hop⟩
    · exact ⟨hsame.upToSwap, .inl hsame⟩
    · exact ⟨hswap, .inr hop⟩
  obtain ⟨-, hexec⟩ := h
  cases op with
  | tryToWakeUp p sync =>
    obtain rfl := Option.some.inj hexec
    exact .inl (samePtrs_tryToWakeUp p sync s)
  | schedule => exact .inr ⟨samePtrsUpToSwap_schedule hexec, .inl rfl⟩
  | schedulerTick =>
    obtain rfl := Option.some.inj hexec
    exact .inl (samePtrs_schedulerTick s)
  | setUserNice p nice =>
    obtain rfl := Option.some.inj hexec
    exact .inl (.of_eq (setUserNice_ptrs p nice s))
  | setscheduler pid policy param =>
    obtain ⟨r, hr, rfl⟩ := Option.map_eq_some_iff.mp hexec
    exact .inl (samePtrs_setscheduler hr)
  | sysSchedYield =>
    have hyield : s.sysSchedYield = some s' := hexec
    unfold sysSchedYield at hyield
    simp only [Option.bind_eq_bind, Option.bind_eq_some_iff] at hyield
    obtain ⟨s₁, hyield, hsched⟩ := hyield
    obtain ⟨array, -, hframe⟩ := yieldRequeue_eq_some hyield
    have hptrs := samePtrsUpToSwap_schedule hsched
    rw [hframe.ptrs] at hptrs
    exact .inr ⟨hptrs, .inr rfl⟩
  | doFork cloneFlags env =>
    obtain rfl := Option.some.inj hexec
    rcases doFork_cases cloneFlags env s with ⟨-, hsame⟩ | ⟨-, hcopied⟩
    · exact .inl (.of_eq (by rw [hsame]))
    · exact .inl (.of_eq (by rw [hcopied]; rfl))
  | doForkSplit =>
    obtain ⟨f, -, -, rfl⟩ := doForkSplit_eq_some hexec
    exact .inl samePtrs_forked
  | doForkWake => exact .inl (samePtrs_doForkWake hexec)
  | vforkReturn =>
    obtain rfl := Option.some.inj hexec
    refine .inl (.of_eq ?_)
    unfold vforkReturn
    split <;> rfl
  | schedExit | doExit | setCurrentState | setSigpending | setJiffies =>
    obtain rfl := Option.some.inj hexec
    exact .inl (.refl _)

theorem step_idle (h : Step s op s') : s'.rq.idle = s.rq.idle := (step_ptrs h).1.idle

/-! ## The flags of forks -/

/-- It raises no flag. -/
theorem setscheduler_justGotForked {pid policy : ℤ} {param : UserParam} {r : ℤ}
    (h : s.setscheduler pid policy param = some (r, s')) (hflag : (s.task t).justGotForked = 0) :
    (s'.task t).justGotForked = 0 := by
  have hframe : ∀ t : Task, t.array = t.array ∧ t.justGotForked = t.justGotForked ∧
      t.pOpptr = t.pOpptr ∧ t.state = t.state := fun _ => ⟨rfl, rfl, rfl, rfl⟩
  cases SetschedCase.of_eq_some h with
  | refused _ hsame => exact (hsame.sameTasks.justGotForked t).trans hflag
  | @adjusted q lp =>
    rw [(SameTasks.setTskNeedResched _ _).justGotForked]
    exact (modify_proj (f := Task.adjustShort lp) (fun t => t.justGotForked) rfl t).trans hflag
  | @madeShort q lp =>
    rw [(SameTasks.setTskNeedResched _ _).justGotForked]
    exact (requeued_frame (f := Task.makeShort lp) (fun _ => rfl) hflag (fun t => hframe t) q).2.1
  | @changed q lp policy' s₁ _ _ _ _ _ hsame =>
    have hflag₁ := (hsame.sameTasks.justGotForked t).trans hflag
    exact (requeued_frame (f := Task.setPolicy policy' lp) (fun _ => rfl) hflag₁
      (fun t => hframe t) q).2.1

omit [Param] in
/-- Nor does `sys_sched_yield`, which lowers none either. -/
theorem sysSchedYield_justGotForked (h : s.sysSchedYield = some s') (t : TaskId) :
    (s'.task t).justGotForked = (s.task t).justGotForked := by
  unfold sysSchedYield at h
  simp only [Option.bind_eq_bind, Option.bind_eq_some_iff] at h
  obtain ⟨s₁, hyield, hsched⟩ := h
  obtain ⟨array, -, hframe⟩ := yieldRequeue_eq_some hyield
  rw [schedule_justGotForked hsched, hframe.task]
  exact modify_proj (s := s) (f := fun t => { t with prio := s.yieldPrio s.rq.curr array })
    (fun t => t.justGotForked) rfl t

/-- A flag that is down stays down as long as there is no fork. -/
theorem justGotForked_step (hstep : Step s op s')
    (hfork : ∀ cloneFlags env, op ≠ .doFork cloneFlags env) (hsplit : op ≠ .doForkSplit)
    (hwake : op ≠ .doForkWake)
    (hflag : (s.task t).justGotForked = 0) : (s'.task t).justGotForked = 0 := by
  obtain ⟨-, hexec⟩ := hstep
  cases op with
  | tryToWakeUp q sync =>
    obtain rfl := Option.some.inj hexec
    rw [tryToWakeUp_justGotForked]
    split
    · rfl
    · exact hflag
  | schedule => exact (schedule_justGotForked hexec t).trans hflag
  | schedulerTick =>
    obtain rfl := Option.some.inj hexec
    exact (schedulerTick_frame s t).1.trans hflag
  | setUserNice q nice =>
    obtain rfl := Option.some.inj hexec
    have hpulled : t ∉ s.pulled q := fun ht => justGotForked_of_mem_pulled ht hflag
    exact (setUserNice_frame q t nice s hpulled).2.trans hflag
  | setscheduler pid policy param =>
    obtain ⟨r, hr, rfl⟩ := Option.map_eq_some_iff.mp hexec
    exact setscheduler_justGotForked hr hflag
  | sysSchedYield => exact (sysSchedYield_justGotForked hexec t).trans hflag
  | doFork cloneFlags env => exact absurd rfl (hfork cloneFlags env)
  | doForkSplit => exact absurd rfl hsplit
  | doForkWake => exact absurd rfl hwake
  | vforkReturn =>
    obtain rfl := Option.some.inj hexec
    unfold vforkReturn
    split
    · exact ((SameTasks.setTskNeedResched _ s).justGotForked t).trans hflag
    · exact hflag
  | schedExit q =>
    obtain rfl := Option.some.inj hexec
    obtain ⟨timeSlice, sleepAvg, hreap⟩ := reapChild_eq (s.task q) s.current
    have hsame : ((s.task q).reapChild s.current).justGotForked = s.current.justGotForked := by
      rw [hreap]
    exact (modify_proj (fun t => t.justGotForked) hsame t).trans hflag
  | doExit reaper =>
    obtain rfl := Option.some.inj hexec
    rw [modify_proj (fun t => t.justGotForked) rfl]
    dsimp only
    split <;> exact hflag
  | setCurrentState | setSigpending =>
    obtain rfl := Option.some.inj hexec
    exact (modify_proj (fun t => t.justGotForked) rfl t).trans hflag
  | setJiffies =>
    obtain rfl := Option.some.inj hexec
    exact hflag

end ShortSched
