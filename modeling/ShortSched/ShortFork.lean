import ShortSched.ForkSafety
import ShortSched.Links
import ShortSched.RequestedTime

/-!
# A fork by a SHORT-policy task, end to end

`do_fork`, the synthetic tick, `wake_up_forked_process` and both branches of `enqueue_task` taken
together: what the queues, the two slices and the two classes are when a `do_fork` returns that no
interrupt came into.
-/

namespace ShortSched

open General Sys

variable [Param] {s s' : Sys} {t p : TaskId} {f : PendingFork} {cloneFlags : UInt32} {env : ForkEnv}

/-! ## The priority of a class -/

/-- `effective_prio` of a task of this class and static priority is `prio`, whatever its sleep
average. -/
def ClassPrio (p : TaskSched) (prio : ℤ) : Prop :=
  ∀ u : Task, u.policy = p.policy → u.iAmOverdue = p.iAmOverdue → u.staticPrio = p.staticPrio →
    u.effectivePrio = prio

theorem classPrio_short {p : TaskSched} (h : p.ShortTask) : ClassPrio p p.staticPrio := by
  intro u hpolicy hover hstatic
  have hshort : u.ShortTask := ⟨hpolicy.trans h.1, hover.trans h.2⟩
  rw [Task.effectivePrio, if_pos hshort, hstatic]

theorem classPrio_overdue {p : TaskSched} (h : p.OverdueTask) : ClassPrio p overduePrio := by
  intro u hpolicy hover _
  exact Task.effectivePrio_of_overdue ⟨hpolicy.trans h.1, hover.trans h.2⟩

namespace Sys

/-! ## The queues after `activate_task` -/

omit [Param] in
/-- The fork branch of `enqueue_task` puts the child in front and its parent at the end. -/
theorem queues_enqueueTask_of_parent (array : PrioArrayPtr) (hbranch : s.ForkBranch p)
    (hparent : (s.task p).pOpptr = s.rq.curr) (hlist : s.tasklist ≠ []) :
    (s.enqueueTask p array).queues = enqueueFront p (array, (s.task p).prio)
      (enqueueBack s.rq.curr (array, s.current.prio) (remove s.rq.curr s.queues)) := by
  set s₁ := ((s.modify s.rq.curr fun t => { t with justGotForked := 0 }).dequeueTask s.rq.curr
    array).enqueueTail s.rq.curr array with hs₁
  have hprio : ∀ u, (s₁.task u).prio = (s.task u).prio := by
    intro u
    have hsched : (s₁.task u).toTaskSched = (s.task u).toTaskSched := by
      rw [hs₁, (sameFrame_enqueueTail _ _ _).sched, dequeueTask_task]
      exact modify_proj Task.toTaskSched rfl u
    rw [hsched]
  have hqueues : s₁.queues =
      enqueueBack s.rq.curr (array, s.current.prio) (remove s.rq.curr s.queues) := by
    rw [hs₁, queues_enqueueTail, queues_dequeueTask, dequeueTask_task, queues_modify]
    have hcurr : ((s.modify s.rq.curr fun t => { t with justGotForked := 0 }).task s.rq.curr).prio
        = s.current.prio := modify_proj (fun t => t.prio) rfl _
    rw [hcurr]
  rw [enqueueTask_of_parent hbranch hparent hlist]
  show ((s₁.listAdd p array (s₁.task p).prio).enqueueFinish p array).queues = _
  rw [queues_enqueueFinish, listAdd, queues_setQueue, hprio, ← hqueues]
  rfl

/-- The task is put behind the others of its priority. -/
theorem queues_activateTask_of_not_forkBranch (hbranch : ¬s.ForkBranch p) :
    (s.activateTask p).queues = enqueueBack p
      (pointerToMyActivePrioArray (s.task p).toTaskSched s.rq.toRqPtrs,
        ((s.task p).woken s.jiffies).prio) s.queues := by
  rw [activateTask_eq, enqueueTask_of_not_forkBranch
    (fun hc => hbranch ((sameForks_woken p s).forkBranch_iff.mp hc))]
  refine (queues_enqueueTail (s.modify p (Task.woken s.jiffies)) p _).trans ?_
  rw [modify_task, Function.update_self, queues_modify]

/-- The parent is put behind the others of its priority, and then the task in front of all of
its own. -/
theorem queues_activateTask_of_parent (hbranch : s.ForkBranch p)
    (hparent : (s.task p).pOpptr = s.rq.curr) (hlist : s.tasklist ≠ []) (hne : s.rq.curr ≠ p) :
    (s.activateTask p).queues =
      let array := pointerToMyActivePrioArray (s.task p).toTaskSched s.rq.toRqPtrs
      enqueueFront p (array, ((s.task p).woken s.jiffies).prio)
        (enqueueBack s.rq.curr (array, s.current.prio) (remove s.rq.curr s.queues)) := by
  have hforks := sameForks_woken p s
  have hparent' : ((s.modify p (Task.woken s.jiffies)).task p).pOpptr = s.rq.curr := by
    rw [hforks.pOpptr, hparent]
  rw [activateTask_eq]
  refine (queues_enqueueTask_of_parent (s := s.modify p (Task.woken s.jiffies)) _
    (hforks.forkBranch_iff.mpr hbranch) hparent' hlist).trans ?_
  have hcurr : (s.modify p (Task.woken s.jiffies)).current = s.current := by
    show (s.modify p (Task.woken s.jiffies)).task s.rq.curr = _
    rw [modify_task, Function.update_of_ne hne]
  rw [hcurr, modify_task, Function.update_self, queues_modify, modify_rq]

/-! ## The state at `__restore_flags` -/

/-- A parent that keeps some of its slice stays where it is. -/
theorem forked_queues (hne : f.child ≠ s.rq.curr) (hslice : s.current.parentSlice ≠ 0) :
    (s.forked f).queues = s.queues := by
  have hcurr : (s.forkSplit f).current = s.current.parentSplit := forkSplit_current hne
  show (s.forkSplit f).lastJiffy.queues = s.queues
  rw [lastJiffy_eq, hcurr, if_neg]
  · rfl
  · rwa [Task.parentSplit_eq]

/-- A SHORT parent without a jiffy goes to the overdue queue. -/
theorem forked_queues_toOverdue (hidle : s.rq.curr ≠ s.rq.idle) (hne : f.child ≠ s.rq.curr)
    (hslice : s.current.parentSlice = 0) (hshort : s.current.ShortTask) (hrt : ¬s.current.RtTask)
    (harray : s.current.array ≠ some s.rq.expired) : (s.forked f).queues =
      enqueueBack s.rq.curr (s.rq.overdue, overduePrio) (remove s.rq.curr s.queues) := by
  have hlast : (s.beforeLastTick f).current =
      { s.current with
        timeSlice := 1
        justGotForked := 0 } := beforeLastTick_current hne
  rw [forked_eq_tick hne hslice]
  refine queues_schedulerTick_toOverdue (s := s.beforeLastTick f) ⟨hidle, ?_⟩ ?_ ?_ ?_
  · rw [hlast]
    exact harray
  · rw [hlast]
    exact hrt
  · rw [hlast]
    exact hshort
  · rw [hlast]

/-- A tick takes no task off the runqueue. -/
theorem schedulerTick_nrRunning (s : Sys) : s.schedulerTick.rq.nrRunning = s.rq.nrRunning := by
  have hexpire : s.expireState.rq.toRqPtrs = s.rq.toRqPtrs := dequeueTask_ptrs _ _ _
  have hcase := s.schedulerTick_cases
  generalize s.schedulerTick = s' at hcase ⊢
  cases hcase with
  | idle | fifo | expired | rr | run => rfl
  | rrRefill =>
    rw [enqueueTail_ptrs, dequeueTask_ptrs]
    rfl
  | toExpired =>
    rw [enqueueTail_ptrs, ← hexpire]
    unfold stampExpired
    split <;> rfl
  | requeue => rw [enqueueTail_ptrs, hexpire]

theorem forked_nrRunning (s : Sys) : (s.forked f).rq.nrRunning = s.rq.nrRunning := by
  show (s.forkSplit f).lastJiffy.rq.nrRunning = _
  rw [lastJiffy_eq]
  split
  · exact schedulerTick_nrRunning _
  · rfl

/-- `do_fork` at `__restore_flags` if no interrupt came before the split. -/
def forkedAtOnce (cloneFlags : UInt32) (env : ForkEnv) (s : Sys) : Sys :=
  (s.copied cloneFlags env).forked ⟨env.child, cloneFlags, false⟩

section atOnce

theorem atOnce_ptrs : SamePtrs s.rq.toRqPtrs (s.forkedAtOnce cloneFlags env).rq.toRqPtrs :=
  samePtrs_forked (s := s.copied cloneFlags env)

theorem atOnce_nrRunning :
    (s.forkedAtOnce cloneFlags env).rq.nrRunning = s.rq.nrRunning :=
  forked_nrRunning (s.copied cloneFlags env)

theorem atOnce_tasklist : (s.forkedAtOnce cloneFlags env).tasklist = s.tasklist :=
  forked_tasklist _ (s.copied cloneFlags env)

theorem atOnce_of_ne (hchild : t ≠ env.child) (hcurr : t ≠ s.rq.curr) :
    (s.forkedAtOnce cloneFlags env).task t = s.task t := by
  rw [forkedAtOnce, forked_of_ne (s := s.copied cloneFlags env) hchild hcurr, copied_of_ne hchild]

variable (hne : env.child ≠ s.rq.curr)

include hne

/-- A child that is split at once has its share of the parent's slice. -/
theorem atOnce_child : ((s.forkedAtOnce cloneFlags env).task env.child).toTaskSched =
    { s.current.toTaskSched with
      timeSlice := s.current.childSlice s.current
      firstTimeSlice := 1 } := by
  have hpolicy : (s.copied cloneFlags env).current.policy = .short →
      ((s.copied cloneFlags env).task env.child).policy = .short := by
    rw [copied_current hne, copied_child]
    exact id
  have hchild : (s.forkedAtOnce cloneFlags env).task env.child =
      (s.copied cloneFlags env).current.forkChild s.jiffies
        ((s.copied cloneFlags env).task env.child) :=
    forked_child (s := s.copied cloneFlags env) (f := ⟨env.child, cloneFlags, false⟩) hne
  rw [hchild, Task.forkChild_sched _ hpolicy, copied_child, copied_current hne]
  rfl

theorem atOnce_current (hslice : s.current.parentSlice ≠ 0) :
    (s.forkedAtOnce cloneFlags env).task s.rq.curr = s.current.parentSplit := by
  rw [← @copied_current s cloneFlags env hne] at hslice ⊢
  exact forked_current (s := s.copied cloneFlags env) hne hslice

theorem atOnce_current_flag (hslice : s.current.parentSlice = 0) :
    ((s.forkedAtOnce cloneFlags env).task s.rq.curr).justGotForked = 0 := by
  rw [← @copied_current s cloneFlags env hne] at hslice
  exact forked_current_flag (s := s.copied cloneFlags env) hne hslice

/-- What the split leaves to the parent when no interrupt comes before it. -/
theorem atOnce_current_sched (hidle : s.rq.curr ≠ s.rq.idle) :
    ((s.forkedAtOnce cloneFlags env).task s.rq.curr).toTaskSched =
      if s.current.parentSlice ≠ 0 then
        { s.current.toTaskSched with timeSlice := s.current.parentSlice }
      else if s.current.array = some s.rq.expired then { s.current.toTaskSched with timeSlice := 1 }
      else (Task.afterTick { s.current with
        timeSlice := 1
        justGotForked := 0 }).toTaskSched := by
  rw [← @copied_current s cloneFlags env hne]
  exact forked_current_sched (s := s.copied cloneFlags env) hidle hne

theorem atOnce_queues (hslice : s.current.parentSlice ≠ 0) :
    (s.forkedAtOnce cloneFlags env).queues = s.queues := by
  rw [← @copied_current s cloneFlags env hne] at hslice
  exact forked_queues (s := s.copied cloneFlags env) hne hslice

theorem atOnce_queues_toOverdue (hidle : s.rq.curr ≠ s.rq.idle)
    (hslice : s.current.parentSlice = 0) (hshort : s.current.ShortTask) (hrt : ¬s.current.RtTask)
    (harray : s.current.array ≠ some s.rq.expired) : (s.forkedAtOnce cloneFlags env).queues =
      enqueueBack s.rq.curr (s.rq.overdue, overduePrio) (remove s.rq.curr s.queues) := by
  rw [← @copied_current s cloneFlags env hne] at hslice hshort hrt harray
  exact forked_queues_toOverdue (s := s.copied cloneFlags env) hidle hne hslice hshort hrt harray

end atOnce

/-! ## From `__restore_flags` on -/

/-- `do_fork` from `__restore_flags` on. -/
def forkFinish (f : PendingFork) (s : Sys) : Sys :=
  ((s.forkPrepare f).activateTask f.child).forkOut f.cloneFlags

/-- The links and the signal of the child do not reach other tasks. -/
theorem forkPrepare_of_ne (hchild : t ≠ f.child) (hcurr : t ≠ s.rq.curr) :
    (s.forkPrepare f).task t = s.task t := by
  obtain ⟨pPptr, hlink⟩ := linkChild_task f s
  obtain ⟨hrq, -⟩ := linkChild_rq f s
  have htask : (s.linkChild f).task t = s.task t := by
    rw [hlink, Function.update_of_ne hchild]
  set s₁ := if ((s.linkChild f).task f.child).ptrace &&& ptPtraced ≠ 0 then
    (s.linkChild f).sendSigstop f.child else s.linkChild f with hs₁
  have htask₁ : s₁.task t = s.task t ∧ s₁.rq.curr = s.rq.curr := by
    rw [hs₁]
    split
    · rw [sendSigstop, modify_task, Function.update_of_ne hchild, htask, modify_rq, hrq]
      exact ⟨rfl, rfl⟩
    · exact ⟨htask, by rw [hrq]⟩
  show (s₁.wakeForkedPrepare f.child).task t = s.task t
  have hcurr₁ : t ≠ s₁.rq.curr := by
    rw [htask₁.2]
    exact hcurr
  unfold wakeForkedPrepare
  dsimp only
  rw [modify_task, Function.update_of_ne hchild]
  split
  · rw [modify_task, Function.update_of_ne hchild, modify_task]
    show Function.update _ s₁.rq.curr _ t = _
    rw [Function.update_of_ne hcurr₁, modify_task, Function.update_of_ne hchild, htask₁.1]
  · rw [modify_task, Function.update_of_ne hchild, htask₁.1]

/-- Only the child, its parent and the tasks with a raised flag are touched. -/
theorem forkFinish_of_ne (hchild : t ≠ f.child) (hcurr : t ≠ s.rq.curr)
    (hflag : (s.task t).justGotForked = 0) : (s.forkFinish f).task t = s.task t := by
  have hprep := forkPrepare_of_ne hchild hcurr
  have hpulled : t ∉ (s.forkPrepare f).pulled f.child := by
    intro hc
    apply justGotForked_of_mem_pulled hc
    rw [hprep]
    exact hflag
  have hactivate : ((s.forkPrepare f).activateTask f.child).task t = s.task t := by
    rw [activateTask_task, if_neg hpulled, if_neg fun hc => hc.elim hchild hpulled, modify_task,
      Function.update_of_ne hchild, hprep]
  have hcurr' : t ≠ ((s.forkPrepare f).activateTask f.child).rq.curr := by
    rw [activateTask_ptrs, (forkPrepared f s).rq]
    exact hcurr
  unfold forkFinish forkOut
  split
  · exact hactivate
  split
  · exact hactivate
  · rw [setTskNeedResched, modify_task, Function.update_of_ne hcurr', hactivate]

theorem forkPrepare_queues (f : PendingFork) (s : Sys) : (s.forkPrepare f).queues = s.queues := by
  ext1 l
  show ((s.forkPrepare f).rq.arrays l.1).queue l.2 = _
  rw [(forkPrepared f s).rq]
  rfl

theorem forkFinish_queues (f : PendingFork) (s : Sys) :
    (s.forkFinish f).queues = ((s.forkPrepare f).activateTask f.child).queues := by
  ext1 l
  show ((s.forkFinish f).rq.arrays l.1).queue l.2 = _
  rw [forkFinish, forkOut_rq]
  rfl

/-- The parent keeps its class, its slice and its priority. -/
theorem forkFinish_sched (hchild : t ≠ f.child) :
    ((s.forkFinish f).task t).toTaskSched = (s.task t).toTaskSched := by
  rw [forkFinish, (sameTasks_forkOut _ _).sched, activateTask_sched, modify_task,
    Function.update_of_ne hchild, (forkPrepared f s).sched t hchild]

/-- A task whose flag is not raised stays where it is. -/
theorem forkFinish_array (hchild : t ≠ f.child) (hflag : (s.task t).justGotForked = 0) :
    ((s.forkFinish f).task t).array = (s.task t).array := by
  have hprep := forkPrepared f s
  have hpulled : t ∉ (s.forkPrepare f).pulled f.child := by
    intro hc
    apply justGotForked_of_mem_pulled hc
    rw [hprep.justGotForked]
    exact hflag
  rw [forkFinish, (sameTasks_forkOut _ _).array, activateTask_task]
  dsimp only
  rw [if_neg fun hc => hc.elim hchild hpulled, hprep.array]

/-- The child gets the priority of its class, whatever it is credited with. -/
theorem child_woken {prio : ℤ} (hrt : ¬(s.task f.child).RtTask)
    (hprio : ClassPrio (s.task f.child).toTaskSched prio) :
    ((s.forkPrepare f).task f.child).toTaskSched =
        { (s.task f.child).toTaskSched with prio := prio } ∧
      (((s.forkPrepare f).task f.child).woken (s.forkPrepare f).jiffies).toTaskSched =
        { (s.task f.child).toTaskSched with prio := prio } := by
  obtain ⟨sleepAvg, hsched⟩ := (forkPrepared f s).child_sched
  rw [if_neg hrt, hprio { s.task f.child with sleepAvg := sleepAvg } rfl rfl rfl] at hsched
  refine ⟨hsched, ?_⟩
  have hwoken : (((s.forkPrepare f).task f.child).woken (s.forkPrepare f).jiffies).prio = prio := by
    rcases Task.woken_prio (s.forkPrepare f).jiffies ((s.forkPrepare f).task f.child) with
      h | ⟨-, sleepAvg', h⟩
    · rw [h, hsched]
    · rw [h]
      refine hprio { (s.forkPrepare f).task f.child with sleepAvg := sleepAvg' } ?_ ?_ ?_
      · show ((s.forkPrepare f).task f.child).policy = _
        rw [hsched]
      · show ((s.forkPrepare f).task f.child).iAmOverdue = _
        rw [hsched]
      · show ((s.forkPrepare f).task f.child).staticPrio = _
        rw [hsched]
  rw [Task.woken_sched, hwoken, hsched]

end Sys

/-! ## What a fork leaves -/

/-- The child is one more task of a runqueue that agrees with itself; nothing else changes but
the parent. -/
structure Forked (child : TaskId) (s s' : Sys) : Prop where
  inv : s'.RqInv
  noFlags : s'.NoFlags
  nrRunning : s'.rq.nrRunning = s.rq.nrRunning + 1
  ptrs : SamePtrs s.rq.toRqPtrs s'.rq.toRqPtrs
  tasklist : s'.tasklist = s.tasklist ++ [child]
  others : ∀ t, t ≠ s.rq.curr → t ≠ child → s'.task t = s.task t
  /-- without the two, every queue is what it was, in the same order -/
  order : remove s.rq.curr (remove child s'.queues) = remove s.rq.curr s.queues

/-- The two share the slice, the child in front of its queue and the parent at the end of its
own. -/
structure SharesSlice (child : TaskId) (s s' : Sys) : Prop where
  child_short : (s'.task child).ShortTask
  parent_short : (s'.task s.rq.curr).ShortTask
  child_slice : (s'.task child).timeSlice.toNat = (s.current.timeSlice.toNat + 1) / 2
  slices : (s'.task s.rq.curr).timeSlice.toNat + (s'.task child).timeSlice.toNat =
    s.current.timeSlice.toNat
  child_head : (s'.queue s.rq.rtShort s.current.staticPrio).head? = some child
  parent_tail : (s'.queue s.rq.rtShort s.current.prio).getLast? = some s.rq.curr

/-- The child gets the jiffy, and the parent is overdue. -/
structure GivesLastJiffy (child : TaskId) (s s' : Sys) : Prop where
  child_short : (s'.task child).ShortTask
  child_slice : (s'.task child).timeSlice = 1
  child_tail : (s'.queue s.rq.rtShort s.current.staticPrio).getLast? = some child
  parent_overdue : (s'.task s.rq.curr).OverdueTask
  parent_slice : ((s'.task s.rq.curr).timeSlice.toNat : ℤ) = 2 * s.current.requestedTime.toInt
  parent_tail : (s'.queue s.rq.overdue overduePrio).getLast? = some s.rq.curr

/-- The child is overdue with the slice of its parent, behind all others. -/
structure CopiesOverdue (child : TaskId) (s s' : Sys) : Prop where
  child_overdue : (s'.task child).OverdueTask
  child_slice : (s'.task child).timeSlice = s.current.timeSlice
  child_tail : (s'.queue s.rq.overdue overduePrio).getLast? = some child
  parent_sched : (s'.task s.rq.curr).toTaskSched = s.current.toTaskSched
  parent_array : (s'.task s.rq.curr).array = s.current.array
  /-- without the child, every queue is what it was -/
  parent_place : remove child s'.queues = s.queues

/-- The premises that a fork by a SHORT-policy `current` starts from. -/
structure ShortForks (cloneFlags : UInt32) (env : ForkEnv) (s : Sys) : Prop where
  inv : s.RqInv
  noFlags : s.NoFlags
  forking : s.forking = none
  ne_idle : s.rq.curr ≠ s.rq.idle
  policy : s.current.policy = .short
  slice : s.current.timeSlice ≠ 0
  fresh : Op.FreshTask s env.child
  accepted : ¬s.ForkRefused cloneFlags env
  not_clone_parent : cloneFlags &&& cloneParent = 0

namespace ShortForks

/-- The state when `do_fork` returns. -/
abbrev result (cloneFlags : UInt32) (env : ForkEnv) (s : Sys) : Sys :=
  (s.forkedAtOnce cloneFlags env).forkFinish ⟨env.child, cloneFlags, true⟩

variable (h : ShortForks cloneFlags env s)

include h

/-- The three steps of `do_fork`, taken one after the other. -/
theorem steps : Step s (.doFork cloneFlags env) (s.copied cloneFlags env) ∧
    Step (s.copied cloneFlags env) .doForkSplit (s.forkedAtOnce cloneFlags env) ∧
    Step (s.forkedAtOnce cloneFlags env) .doForkWake (result cloneFlags env s) := by
  refine ⟨⟨⟨⟨h.forking, h.ne_idle⟩, h.fresh⟩, ?_⟩, ⟨⟨h.ne_idle, _, rfl, rfl, ?_⟩, ?_⟩,
    ⟨⟨_, rfl, rfl⟩, rfl⟩⟩
  · show some (s.doFork cloneFlags env).2 = _
    rw [doFork_of_not_refused h.accepted]
  · exact copiedTask_copied h.fresh
  · refine (doForkSplit_of_pending rfl).trans ?_
    rw [copied_current h.fresh.ne_curr, if_neg h.slice]
    rfl

theorem forkInv : ForkInv (s.forkedAtOnce cloneFlags env) :=
  ((forkInv_of_noFlags h.inv h.noFlags h.forking).step h.steps.1 trivial).step h.steps.2.1 trivial

theorem window : ForkWindow (s.forkedAtOnce cloneFlags env) ⟨env.child, cloneFlags, true⟩ :=
  h.forkInv.window _ rfl

omit [Param] in
theorem child_not_mem (l : PrioArrayPtr × ℤ) : env.child ∉ s.queues l := by
  intro hc
  obtain ⟨harray, -⟩ := h.inv.layout.mem_queue.mp hc
  rw [h.fresh.not_queued] at harray
  cases harray

omit [Param] in
theorem not_rtTask : ¬s.current.RtTask :=
  not_lt.mpr ((h.inv.tasks _ h.ne_idle).ok.prio_user (.inr h.policy)).1

theorem child_sched : ((s.forkedAtOnce cloneFlags env).task env.child).toTaskSched =
    { s.current.toTaskSched with timeSlice := s.current.childSlice s.current, firstTimeSlice := 1 } := by
  exact atOnce_child h.fresh.ne_curr

/-- What the three cases of a fork share. -/
theorem forked_result
    (hqueues : remove s.rq.curr (remove env.child (result cloneFlags env s).queues) =
      remove s.rq.curr s.queues) : Forked env.child s (result cloneFlags env s) := by
  have hprep := forkPrepared ⟨env.child, cloneFlags, true⟩ (s.forkedAtOnce cloneFlags env)
  have hsafe : ForkSafe (s.forkedAtOnce cloneFlags env) .doForkWake := by
    rintro ⟨-, -, f, hf, hparent⟩
    rw [← Option.some.inj hf] at hparent
    exact hparent h.not_clone_parent
  obtain ⟨hinv, hflags⟩ := h.forkInv.doForkWake rfl hsafe
  have hptrs : (result cloneFlags env s).rq.toRqPtrs =
      { (s.forkedAtOnce cloneFlags env).rq.toRqPtrs with
        nrRunning := (s.forkedAtOnce cloneFlags env).rq.nrRunning + 1 } := by
    show (forkOut _ _).rq.toRqPtrs = _
    rw [forkOut_rq, activateTask_ptrs, hprep.rq]
  refine ⟨hinv, hflags, ?_, ?_, ?_, fun t hcurr hchild => ?_, hqueues⟩
  · rw [hptrs, atOnce_nrRunning]
  · have hforked : SamePtrs s.rq.toRqPtrs (s.forkedAtOnce cloneFlags env).rq.toRqPtrs := atOnce_ptrs
    apply hforked.trans
    rw [hptrs]
    exact ⟨rfl, rfl, rfl, rfl, rfl, rfl⟩
  · obtain ⟨f, hf, htasklist, -⟩ := doForkWake_lists h.steps.2.2.2
    rw [htasklist, atOnce_tasklist, ← Option.some.inj hf]
  · have htask : (s.forkedAtOnce cloneFlags env).task t = s.task t := atOnce_of_ne hchild hcurr
    rw [forkFinish_of_ne hchild (by rwa [atOnce_ptrs.curr]), htask]
    rw [htask]
    exact h.noFlags t

section child

variable {prio : ℤ} (hprio : ClassPrio s.current.toTaskSched prio)

include hprio

/-- The child as it is activated. -/
theorem child_ready : let f : PendingFork := ⟨env.child, cloneFlags, true⟩
    let p : TaskSched := { s.current.toTaskSched with
      timeSlice := s.current.childSlice s.current
      firstTimeSlice := 1
      prio := prio }
    (((s.forkedAtOnce cloneFlags env).forkPrepare f).task env.child).toTaskSched = p ∧
      ((((s.forkedAtOnce cloneFlags env).forkPrepare f).task env.child).woken
        ((s.forkedAtOnce cloneFlags env).forkPrepare f).jiffies).toTaskSched = p := by
  have hsched := h.child_sched
  intro f p
  have hrt : ¬((s.forkedAtOnce cloneFlags env).task f.child).RtTask := by
    rw [hsched]
    exact h.not_rtTask
  have hprio' : ClassPrio ((s.forkedAtOnce cloneFlags env).task f.child).toTaskSched prio := by
    rw [hsched]
    exact hprio
  have hwoken := child_woken hrt hprio'
  rw [hsched] at hwoken
  exact hwoken

/-- Nothing after the split changes the scheduling fields of the child. -/
theorem result_child : ((result cloneFlags env s).task env.child).toTaskSched =
    { s.current.toTaskSched with
      timeSlice := s.current.childSlice s.current
      firstTimeSlice := 1
      prio := prio } := by
  obtain ⟨-, hwoken⟩ := h.child_ready hprio
  show ((forkOut _ _).task env.child).toTaskSched = _
  rw [(sameTasks_forkOut _ _).sched, activateTask_sched, modify_task, Function.update_self, hwoken]

/-- Without a flag the child goes behind the others of its priority. -/
theorem queues_of_no_flag (hflag : (s.forkedAtOnce cloneFlags env).current.justGotForked = 0) :
    (result cloneFlags env s).queues = enqueueBack env.child
      (pointerToMyActivePrioArray { s.current.toTaskSched with prio := prio } s.rq.toRqPtrs, prio)
      (s.forkedAtOnce cloneFlags env).queues := by
  set f : PendingFork := ⟨env.child, cloneFlags, true⟩ with hf
  set u := s.forkedAtOnce cloneFlags env with hu
  have hprep := forkPrepared f u
  obtain ⟨hready, hwoken⟩ := h.child_ready hprio
  have hbranch : ¬(u.forkPrepare f).ForkBranch f.child := by
    rintro ⟨-, hraised, -⟩
    rw [current, hprep.rq, hprep.justGotForked] at hraised
    exact hraised hflag
  have hprio' : (((u.forkPrepare f).task f.child).woken (u.forkPrepare f).jiffies).prio = prio := by
    rw [hwoken]
  have hptr : pointerToMyActivePrioArray ((u.forkPrepare f).task f.child).toTaskSched
      (u.forkPrepare f).rq.toRqPtrs =
        pointerToMyActivePrioArray { s.current.toTaskSched with prio := prio } s.rq.toRqPtrs := by
    have hptrs : SamePtrs s.rq.toRqPtrs u.rq.toRqPtrs := atOnce_ptrs
    rw [hprep.rq, hready]
    simp only [pointerToMyActivePrioArray, hptrs.rtShort, hptrs.overdue, hptrs.active]
  rw [forkFinish_queues, queues_activateTask_of_not_forkBranch hbranch, hptr, hprio', forkPrepare_queues]

/-- With the flag raised the parent is queued again, and the child goes in front of the others of
its priority. -/
theorem queues_of_flag
    (hflag : (s.forkedAtOnce cloneFlags env).current.justGotForked ≠ 0) :
    (result cloneFlags env s).queues = enqueueFront env.child (s.rq.rtShort, prio)
      (enqueueBack s.rq.curr (s.rq.rtShort, (s.forkedAtOnce cloneFlags env).current.prio)
        (remove s.rq.curr (s.forkedAtOnce cloneFlags env).queues)) := by
  set f : PendingFork := ⟨env.child, cloneFlags, true⟩ with hf
  set u := s.forkedAtOnce cloneFlags env with hu
  have hprep := forkPrepared f u
  have hptrs : SamePtrs s.rq.toRqPtrs u.rq.toRqPtrs := atOnce_ptrs
  obtain ⟨hready, hwoken⟩ := h.child_ready hprio
  obtain ⟨hshort', hflag', hchild'⟩ := h.window.prepared hflag
  have hparent : ((u.forkPrepare f).task f.child).pOpptr = (u.forkPrepare f).rq.curr := by
    rw [hprep.child_pOpptr, if_pos h.not_clone_parent, hprep.rq]
  have hbranch : (u.forkPrepare f).ForkBranch f.child := by
    refine ⟨hshort'.1, hflag', hchild'.2, ?_⟩
    rw [hparent]
    exact hflag'
  have hlist : (u.forkPrepare f).tasklist ≠ [] := by
    rw [hprep.tasklist]
    exact List.append_ne_nil_of_right_ne_nil _ (List.cons_ne_nil _ _)
  have hcurr : (u.forkPrepare f).rq.curr = s.rq.curr := by
    rw [hprep.rq, hptrs.curr]
  have hne : (u.forkPrepare f).rq.curr ≠ f.child := by
    rw [hcurr]
    exact h.fresh.ne_curr.symm
  have hprio' : (((u.forkPrepare f).task f.child).woken (u.forkPrepare f).jiffies).prio = prio := by
    rw [hwoken]
  have hcurrent : (u.forkPrepare f).current.prio = u.current.prio := by
    rw [current, hprep.rq, hprep.sched _ h.window.child_ne_curr.symm]
  have hptr : pointerToMyActivePrioArray ((u.forkPrepare f).task f.child).toTaskSched
      (u.forkPrepare f).rq.toRqPtrs = s.rq.rtShort := by
    rw [pointer_of_shortTask _ hchild', hprep.rq, hptrs.rtShort]
  rw [forkFinish_queues, queues_activateTask_of_parent hbranch hparent hlist hne]
  dsimp only
  rw [hptr, hprio', hcurr, forkPrepare_queues, hcurrent]

end child

/-! ## A SHORT parent with two jiffies or more -/

/-- **A SHORT parent with two jiffies or more** shares its slice with the child. -/
theorem result_sharesSlice (hshort : s.current.ShortTask) (htwo : 2 ≤ s.current.timeSlice.toNat) :
    SharesSlice env.child s (result cloneFlags env s) ∧
      Forked env.child s (result cloneFlags env s) := by
  have hptrs : SamePtrs s.rq.toRqPtrs (s.forkedAtOnce cloneFlags env).rq.toRqPtrs := atOnce_ptrs
  have hparent := Task.toNat_parentSlice (t := s.current) fun _ => hshort
  have hchild := Task.toNat_childSlice_short (p := s.current) hshort
  have hslice : s.current.parentSlice ≠ 0 := by
    intro hc
    rw [hc] at hparent
    have hzero : 0 = s.current.timeSlice.toNat / 2 := hparent
    omega
  -- the parent at `__restore_flags`, and at the end
  have hcurr : (s.forkedAtOnce cloneFlags env).task s.rq.curr = s.current.parentSplit :=
    atOnce_current h.fresh.ne_curr hslice
  have hflag : (s.forkedAtOnce cloneFlags env).current.justGotForked ≠ 0 := by
    rw [current, hptrs.curr, hcurr, Task.parentSplit_eq]
    simp only [if_pos hshort]
    exact one_ne_zero
  have hresult : ((result cloneFlags env s).task s.rq.curr).toTaskSched =
      { s.current.toTaskSched with timeSlice := s.current.parentSlice } := by
    rw [forkFinish_sched h.fresh.ne_curr.symm, hcurr, Task.parentSplit_eq]
  have hprio := classPrio_short hshort
  have hresult' := h.result_child hprio
  have hqueues := h.queues_of_flag hprio hflag
  have hcurrent : (s.forkedAtOnce cloneFlags env).current.prio = s.current.prio := by
    rw [current, hptrs.curr, hcurr, Task.parentSplit_eq]
  rw [atOnce_queues h.fresh.ne_curr hslice, hcurrent] at hqueues
  have hgone : ∀ l, s.rq.curr ∉ remove s.rq.curr s.queues l := fun l => by simp
  have hfresh : ∀ l, env.child ∉ enqueueBack s.rq.curr (s.rq.rtShort, s.current.prio)
      (remove s.rq.curr s.queues) l :=
    (insertedAt_enqueueBack _ _ _).not_mem h.fresh.ne_curr fun l hc =>
      h.child_not_mem l (mem_remove.mp hc).2
  refine ⟨⟨?_, ?_, ?_, ?_, ?_, ?_⟩, h.forked_result ?_⟩
  · rw [hresult']
    exact hshort
  · rw [hresult]
    exact hshort
  · rw [hresult', hchild]
    omega
  · rw [hresult, hresult', Nat.add_comm]
    exact Task.split_slices (fun _ => hshort) (.inl hshort.1)
  · show ((result cloneFlags env s).queues (s.rq.rtShort, s.current.staticPrio)).head? = _
    rw [hqueues, head?_enqueueFront]
  · show ((result cloneFlags env s).queues (s.rq.rtShort, s.current.prio)).getLast? = _
    rw [hqueues, getLast?_enqueueFront]
    exact getLast?_enqueueBack _ _ _
  · rw [hqueues, remove_enqueueFront hfresh, remove_enqueueBack hgone]

/-! ## A SHORT parent with a single jiffy -/

/-- **A SHORT parent with one jiffy** gives it to the child and turns overdue. -/
theorem result_givesLastJiffy (hshort : s.current.ShortTask) (hone : s.current.timeSlice = 1)
    (hrequest : 1 ≤ s.current.requestedTime.toInt) :
    GivesLastJiffy env.child s (result cloneFlags env s) ∧
      Forked env.child s (result cloneFlags env s) := by
  have hptrs : SamePtrs s.rq.toRqPtrs (s.forkedAtOnce cloneFlags env).rq.toRqPtrs := atOnce_ptrs
  have hslice : s.current.parentSlice = 0 := by
    rw [Task.parentSlice, if_neg fun hc => hc.2 hshort, hone]
    decide
  have hchild : s.current.childSlice s.current = 1 := by
    rw [Task.childSlice, if_pos h.policy, if_pos hshort, hone]
    decide
  obtain ⟨-, hre, -, -, -, hro⟩ := ptrs_ne s.rq.toRqPtrs
  have hexpired : s.current.array ≠ some s.rq.expired := by
    rw [h.inv.short_current h.ne_idle hshort]
    exact fun hc => hre (Option.some.inj hc)
  -- the parent after its synthetic tick, and at the end
  have hflag : (s.forkedAtOnce cloneFlags env).current.justGotForked = 0 := by
    rw [current, hptrs.curr]
    exact atOnce_current_flag h.fresh.ne_curr hslice
  have hresult : ((result cloneFlags env s).task s.rq.curr).toTaskSched =
      { s.current.toTaskSched with
        iAmOverdue := 1
        overdueStaticPrio := s.current.staticPrio
        staticPrio := overduePrio
        prio := overduePrio
        firstTimeSlice := 0
        timeSlice := (2 * s.current.requestedTime).toUInt32 } := by
    rw [forkFinish_sched h.fresh.ne_curr.symm, atOnce_current_sched h.fresh.ne_curr h.ne_idle,
      if_neg (not_not.mpr hslice), if_neg hexpired]
    let last : Task := { s.current with
      timeSlice := 1
      justGotForked := 0 }
    exact Task.afterTick_last_short (t := last) h.not_rtTask hshort rfl
  have hprio := classPrio_short hshort
  have hresult' := h.result_child hprio
  have hqueues := h.queues_of_no_flag hprio hflag
  have hshort' : ({ s.current.toTaskSched with prio := s.current.staticPrio } : TaskSched).ShortTask :=
    hshort
  rw [pointer_of_shortTask _ hshort', atOnce_queues_toOverdue h.fresh.ne_curr h.ne_idle hslice hshort
    h.not_rtTask hexpired] at hqueues
  have hgone : ∀ l, s.rq.curr ∉ remove s.rq.curr s.queues l := fun l => by simp
  have hfresh : ∀ l, env.child ∉ enqueueBack s.rq.curr (s.rq.overdue, overduePrio)
      (remove s.rq.curr s.queues) l :=
    (insertedAt_enqueueBack _ _ _).not_mem h.fresh.ne_curr fun l hc =>
      h.child_not_mem l (mem_remove.mp hc).2
  refine ⟨⟨?_, ?_, ?_, ?_, ?_, ?_⟩, h.forked_result ?_⟩
  · rw [hresult']
    exact hshort
  · rw [hresult', hchild]
  · show ((result cloneFlags env s).queues (s.rq.rtShort, s.current.staticPrio)).getLast? = _
    rw [hqueues, getLast?_enqueueBack]
  · rw [hresult]
    exact ⟨h.policy, rfl⟩
  · rw [hresult]
    have hnat := toNat_double (x := s.current.requestedTime)
      (r := s.current.requestedTime.toInt.toNat) (Int.toNat_of_nonneg (by omega)).symm
    show (((2 * s.current.requestedTime).toUInt32.toNat : ℕ) : ℤ) = _
    omega
  · show ((result cloneFlags env s).queues (s.rq.overdue, overduePrio)).getLast? = _
    rw [hqueues, enqueueBack_of_ne, getLast?_enqueueBack]
    exact fun hc => hro (congrArg Prod.fst hc).symm
  · rw [hqueues, remove_enqueueBack hfresh, remove_enqueueBack hgone]

/-! ## An overdue parent -/

/-- **An overdue parent** keeps its slice, and the child has a copy of it. -/
theorem result_copiesOverdue (hover : s.current.OverdueTask) :
    CopiesOverdue env.child s (result cloneFlags env s) ∧
      Forked env.child s (result cloneFlags env s) := by
  have hptrs : SamePtrs s.rq.toRqPtrs (s.forkedAtOnce cloneFlags env).rq.toRqPtrs := atOnce_ptrs
  have hshort : ¬s.current.ShortTask := fun hc => absurd (hc.2.symm.trans hover.2) (by decide)
  have hparent : s.current.parentSlice = s.current.timeSlice := by
    rw [Task.parentSlice, if_pos ⟨h.policy, hshort⟩]
  have hchild : s.current.childSlice s.current = s.current.timeSlice := by
    rw [Task.childSlice, if_pos h.policy, if_neg hshort]
  have hslice : s.current.parentSlice ≠ 0 := by
    rw [hparent]
    exact h.slice
  -- the parent is left as it is
  have hcurr : (s.forkedAtOnce cloneFlags env).task s.rq.curr = s.current := by
    rw [atOnce_current h.fresh.ne_curr hslice, Task.parentSplit_eq, if_neg hshort, hparent]
  have hflag : (s.forkedAtOnce cloneFlags env).current.justGotForked = 0 := by
    rw [current, hptrs.curr, hcurr]
    exact h.noFlags _
  have hprio := classPrio_overdue hover
  have hresult' := h.result_child hprio
  have hqueues := h.queues_of_no_flag hprio hflag
  have hover' : ({ s.current.toTaskSched with prio := overduePrio } : TaskSched).OverdueTask := hover
  have hrt : ¬({ s.current.toTaskSched with prio := overduePrio } : TaskSched).RtTask := by
    show ¬overduePrio < maxRtPrio
    decide
  rw [pointer_of_overdueTask _ hover' hrt, atOnce_queues h.fresh.ne_curr hslice] at hqueues
  refine ⟨⟨?_, ?_, ?_, ?_, ?_, ?_⟩, h.forked_result ?_⟩
  · rw [hresult']
    exact hover
  · rw [hresult', hchild]
  · show ((result cloneFlags env s).queues (s.rq.overdue, overduePrio)).getLast? = _
    rw [hqueues, getLast?_enqueueBack]
  · rw [forkFinish_sched h.fresh.ne_curr.symm, hcurr]
  · rw [forkFinish_array h.fresh.ne_curr.symm, hcurr]
    rw [hcurr]
    exact h.noFlags _
  · rw [hqueues, remove_enqueueBack h.child_not_mem]
  · rw [hqueues, remove_enqueueBack h.child_not_mem]

end ShortForks

/-- **A fork by a SHORT-policy task.** A parent with two jiffies or more shares them, one with a
single jiffy gives it away and is overdue, and an overdue one is copied. The child is queued where
its class says, and no other task is moved. -/
theorem fork_by_short (h : ShortForks cloneFlags env s)
    (hrequest : 1 ≤ s.current.requestedTime.toInt) :
    ∃ s', runOps [.doFork cloneFlags env, .doForkSplit, .doForkWake] s = some s' ∧
      Forked env.child s s' ∧
      (s.current.ShortTask → 2 ≤ s.current.timeSlice.toNat → SharesSlice env.child s s') ∧
      (s.current.ShortTask → s.current.timeSlice.toNat = 1 → GivesLastJiffy env.child s s') ∧
      (s.current.OverdueTask → CopiesOverdue env.child s s') := by
  refine ⟨ShortForks.result cloneFlags env s, ?_, ?_, ?_, ?_, ?_⟩
  · obtain ⟨hfork, hsplit, hwake⟩ := h.steps
    exact run_iff_runOps.mp (.cons hfork (.cons hsplit (.single hwake)))
  · rcases (h.inv.tasks _ h.ne_idle).ok.iAmOverdue_cases h.policy with hshort | hover
    · by_cases hone : s.current.timeSlice.toNat = 1
      · exact (h.result_givesLastJiffy hshort (slice_eq_one.mpr hone) hrequest).2
      · have hpos := slice_pos.mpr h.slice
        exact (h.result_sharesSlice hshort (by omega)).2
    · exact (h.result_copiesOverdue hover).2
  · exact fun hshort htwo => (h.result_sharesSlice hshort htwo).1
  · exact fun hshort hone =>
      (h.result_givesLastJiffy hshort (slice_eq_one.mpr hone) hrequest).1
  · exact fun hover => (h.result_copiesOverdue hover).1

omit [Param] in
theorem shortForks_shortAlone : ShortForks 0 ⟨2, 2, 0⟩ shortAlone where
  inv := rqInv_shortAlone
  noFlags := noFlags_shortAlone
  forking := rfl
  ne_idle := by decide
  policy := rfl
  slice := by decide
  fresh := ⟨by decide, by decide, by decide, rfl⟩
  accepted := not_forkRefused_zero (le_refl 0)
  not_clone_parent := by decide

omit [Param] in
/-- A task with 100 jiffies forks. -/
theorem fork_by_short_hundred :
    ∃ s', @runOps hz100 [.doFork 0 ⟨2, 2, 0⟩, .doForkSplit, .doForkWake] shortAlone = some s' ∧
      Forked 2 shortAlone s' ∧ SharesSlice 2 shortAlone s' := by
  obtain ⟨s', hs', hforked, hshares, -⟩ := @fork_by_short hz100 _ _ _ shortForks_shortAlone (by decide)
  exact ⟨s', hs', hforked, hshares (by decide) (by decide)⟩

end ShortSched
