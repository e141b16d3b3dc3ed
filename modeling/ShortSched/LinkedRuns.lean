import ShortSched.LinkedTheorems
import ShortSched.RunqueueRuns

/-!
# The scheduler runs on linked queues

Whatever the scheduler does with its queues it does by `dequeue_task`, `enqueue_task` and the
moves of `sys_sched_yield`, with writes to tasks, pointers and counters in between (`QueueOp`).
Every operation of the machine is a sequence of these, and linked queues go through the same
sequence: from `sched_init` on they hold the lists of the machine.
-/

namespace ShortSched

open General Sys

/-- One access to the queues, or a write to anything else. -/
inductive QueueOp
  | dequeueTask (p : TaskId) (array : PrioArrayPtr)
  | enqueueTask (p : TaskId) (array : PrioArrayPtr)
  | yieldRequeue
  | write (task : TaskId → Task) (rq : RqPtrs) (jiffies : UInt32)

namespace QueueOp

def exec : QueueOp → Sys → Option Sys
  | dequeueTask p array, s => some (s.dequeueTask p array)
  | enqueueTask p array, s => some (s.enqueueTask p array)
  | yieldRequeue, s => s.yieldRequeue
  | write task rq jiffies, s =>
    some { s with task := task, rq := { toRqPtrs := rq, arrays := s.rq.arrays }, jiffies := jiffies }

def execLinked : QueueOp → LinkedSys → Option LinkedSys
  | dequeueTask p array, c => some (c.dequeueTask p array)
  | enqueueTask p array, c => some (c.enqueueTask p array)
  | yieldRequeue, c => c.yieldRequeue
  | write task rq _, c => some { c with task := task, rq := rq }

/-- The task waits in the array, at its priority. -/
def Waits (s : Sys) (p : TaskId) (array : PrioArrayPtr) : Prop :=
  p ∈ s.queue array (s.task p).prio ∧ (array, (s.task p).prio) ∈ queueHeads

/-- What the callers guarantee: a task is taken off the queue it is in, a task that is put on a
queue is in none, and flags are those of tasks that wait. -/
def Enabled (s : Sys) : QueueOp → Prop
  | dequeueTask p array => Waits s p array
  | enqueueTask p array => (∀ l, p ∉ s.queues l) ∧ (array, (s.task p).prio) ∈ queueHeads ∧
      ∀ t, (s.task t).justGotForked ≠ 0 → ∃ a, Waits s t a
  | yieldRequeue => ∃ array, s.current.array = some array ∧ Waits s s.rq.curr array
  | write .. => True

end QueueOp

/-- A step of the machine with lists. -/
def QueueStep (s : Sys) (op : QueueOp) (s' : Sys) : Prop := op.Enabled s ∧ op.exec s = some s'

/-- A step of the machine with linked queues. -/
def LinkedStep (c : LinkedSys) (op : QueueOp) (c' : LinkedSys) : Prop := op.execLinked c = some c'

/-- The two machines are in step, and no task is queued twice. -/
structure InStep (c : LinkedSys) (s : Sys) : Prop where
  mirrors : Mirrors c s
  placed : ∃ loc, Placed s.queues loc

namespace InStep

variable {c : LinkedSys} {s s' : Sys} {op : QueueOp}

/-- **One access.** -/
theorem step (h : InStep c s) (hstep : QueueStep s op s') :
    ∃ c', LinkedStep c op c' ∧ InStep c' s' := by
  obtain ⟨hm, loc, hplaced⟩ := h
  obtain ⟨hen, hexec⟩ := hstep
  cases op with
  | dequeueTask p array =>
    obtain rfl := Option.some.inj hexec
    have hloc : loc p = some (array, (s.task p).prio) := (hplaced.mem p _).mp hen.1
    refine ⟨_, rfl, hm.dequeueTask hplaced hen.2 hloc hen.2, Function.update loc p none, ?_⟩
    rw [queues_dequeueTask]
    exact hplaced.remove p
  | enqueueTask p array =>
    obtain rfl := Option.some.inj hexec
    obtain ⟨hnot, hprio, hflagged⟩ := hen
    have hp : loc p = none := by
      rw [Option.eq_none_iff_forall_not_mem]
      exact fun l hl => hnot l ((hplaced.mem p l).mpr hl)
    -- a parent that forked is on one of the queues, so that its links can be cut
    have hflags : Mirrors.FlagsLinked s loc := by
      intro t ht
      obtain ⟨a, hmem, hrange⟩ := hflagged t ht
      exact ⟨⟨_, hrange, (hplaced.mem t _).mp hmem⟩, hrange⟩
    have hlinked := hm.enqueueTaskRec s.tasklist.length hplaced hp hprio hflags
    refine ⟨c.enqueueTask p array, rfl, ?_, ?_⟩
    · rw [LinkedSys.enqueueTask, hm.tasklist]
      exact hlinked.mirrors
    · obtain ⟨loc', hplaced', -⟩ := hlinked.placed
      exact ⟨loc', hplaced'⟩
  | yieldRequeue =>
    obtain ⟨array, harray, hmem, hrange⟩ := hen
    have hloc : loc s.rq.curr = some (array, s.current.prio) := (hplaced.mem _ _).mp hmem
    obtain ⟨c', s₁, hc', hs₁, hm', hplaced'⟩ := hm.yieldRequeue hplaced harray hloc hrange
    have hsame : s₁ = s' := Option.some.inj (hs₁.symm.trans hexec)
    subst hsame
    exact ⟨c', hc', hm', hplaced'⟩
  | write task rq jiffies =>
    obtain rfl := Option.some.inj hexec
    exact ⟨_, rfl, ⟨rfl, rfl, hm.tasklist, hm.nrActive, hm.bitmap, hm.delimiter, hm.links⟩, loc,
      hplaced⟩

end InStep

/-! ## Operations as sequences of accesses -/

/-- Accesses to the queues lead from the one state to the other. -/
def Reaches (s s' : Sys) : Prop := ∃ ops, Run QueueStep s ops s'

namespace Reaches

variable {s s' s'' : Sys} {p : TaskId} {array : PrioArrayPtr}

theorem refl (s : Sys) : Reaches s s := ⟨[], Run.nil s⟩

theorem trans (h : Reaches s s') (h' : Reaches s' s'') : Reaches s s'' := by
  obtain ⟨ops, hrun⟩ := h
  obtain ⟨ops', hrun'⟩ := h'
  exact ⟨ops ++ ops', hrun.append hrun'⟩

theorem single (op : QueueOp) (h : QueueStep s op s') : Reaches s s' := ⟨[op], Run.single h⟩

/-- What leaves the arrays alone is a write. -/
theorem write (harrays : s'.rq.arrays = s.rq.arrays) (htasklist : s'.tasklist = s.tasklist)
    (hforking : s'.forking = s.forking) : Reaches s s' := by
  refine single (.write s'.task s'.rq.toRqPtrs s'.jiffies) ⟨trivial, ?_⟩
  rw [QueueOp.exec, ← harrays, ← htasklist, ← hforking]

theorem modify (p : TaskId) (f : Task → Task) (s : Sys) : Reaches s (s.modify p f) :=
  write rfl rfl rfl

theorem waits (h : s.Layout) (hp : (s.task p).array = some array) : QueueOp.Waits s p array :=
  ⟨h.mem_queue.mpr ⟨hp, rfl⟩, h.range p (by rw [hp]; exact Option.some_ne_none _)⟩

theorem dequeueTask (h : s.Layout) (hp : (s.task p).array = some array) :
    Reaches s (s.dequeueTask p array) :=
  single (.dequeueTask p array) ⟨waits h hp, rfl⟩

/-- `enqueue_task` without its fork branch is followed link by link. -/
theorem enqueueTail (h : s.LayoutExcept p) (hflags : s.NoFlags)
    (hrange : 0 ≤ (s.task p).prio ∧ (s.task p).prio < maxPrio) :
    Reaches s (s.enqueueTail p array) := by
  have hbranch : ¬s.ForkBranch p := fun hc => hc.2.1 (hflags _)
  refine single (.enqueueTask p array) ⟨⟨?_, hrange, fun t ht => ?_⟩, ?_⟩
  · exact fun l => h.not_mem
  · exact absurd (hflags t) ht
  · rw [QueueOp.exec, enqueueTask_of_not_forkBranch hbranch]

/-! ## The operations -/

theorem deactivateTask (h : s.RqAgree) (hcall : s.deactivateTask p = some s') : Reaches s s' := by
  obtain ⟨array, harray, rfl⟩ := deactivateTask_eq_some hcall
  have hdrop : (s.dropRunning p).Layout := h.layout.congr rfl (fun _ => rfl) fun _ _ => rfl
  have hwrite : Reaches s (s.dropRunning p) := write rfl rfl rfl
  exact hwrite.trans ((dequeueTask hdrop harray).trans (modify p _ _))

/-- One pass of `schedule` is followed: a task that sleeps is unlinked, and the arrays are switched.
-/
theorem schedulePass (h : s.RqAgree) (hpass : s.schedulePass = some s') : Reaches s s' := by
  obtain ⟨s₁, next, s₂, hprev, hpick, rfl⟩ := schedulePass_eq_some hpass
  have hbegin : s.passBegin.RqAgree :=
    h.congr rfl (modify_proj (fun t => t.array) rfl)
      (fun t _ => modify_proj (fun t => t.prio) rfl t) rfl rfl rfl
  have hdeactivate : Reaches s.passBegin s₁ := by
    by_cases hsleep : (s.passBegin.task s.rq.curr).GoesToSleep
    · rw [deactivatePrev_of_asleep hsleep] at hprev
      exact deactivateTask hbegin hprev
    · rw [deactivatePrev_of_awake hsleep] at hprev
      rw [← Option.some.inj hprev]
      exact modify _ _ _
  have hp := pickNext_frame hpick
  have hpicked : Reaches s₁ s₂ := write hp.arrays hp.tasklist hp.forking
  have hswitch : Reaches s₂ (s₂.switchTasks s.rq.curr next) := by
    unfold switchTasks
    split
    · exact write rfl rfl rfl
    · exact write rfl rfl rfl
  have hfirst : Reaches s s.passBegin := modify _ _ _
  exact hfirst.trans (hdeactivate.trans (hpicked.trans hswitch))

theorem schedule (h : s.RqInv) (hcall : s.schedule = some s') : Reaches s s' := by
  have hloop : s'.RqInv ∧ Reaches s s' := by
    apply scheduleLoop_induct (P := fun s₁ => s₁.RqInv ∧ Reaches s s₁) ?_ hcall ⟨h, refl s⟩
    rintro s₁ s₂ ⟨hinv, hreach⟩ hpass
    exact ⟨hinv.schedulePass hpass, hreach.trans (schedulePass hinv.toRqAgree hpass)⟩
  exact hloop.2

/-- `sys_sched_yield` moves `current` to the end of a queue, and calls `schedule`. -/
theorem sysSchedYield (h : s.RqInv) (hne : s.rq.curr ≠ s.rq.idle)
    (hcall : s.sysSchedYield = some s') : Reaches s s' := by
  obtain ⟨array, harray⟩ := h.toRqAgree.current_queued hne
  unfold Sys.sysSchedYield at hcall
  simp only [Option.bind_eq_bind, Option.bind_eq_some_iff] at hcall
  obtain ⟨s₁, hyield, hsched⟩ := hcall
  have hfirst : Reaches s s₁ :=
    single .yieldRequeue ⟨⟨array, harray, waits h.layout harray⟩, hyield⟩
  exact hfirst.trans (schedule (h.yieldRequeue hne hyield) hsched)

/-- `set_user_nice` takes its target out of its queue and puts it into the new one. -/
theorem setUserNice (h : s.RqInv) (hflags : s.NoFlags) (hp : p ≠ s.rq.idle) (nice : ℤ) :
    Reaches s (s.setUserNice p nice) := by
  have hcase := s.setUserNice_cases p nice
  have hok := ((h.tasks p hp).ok.renice nice).range
  have hqueued : ∀ array, (s.task p).array = some array →
      (s.task p).renice nice = (setNice nice (s.task p)).toTaskSched →
      Reaches s (s.reniceQueued p nice array) := by
    intro array harray hrenice
    -- no task has forked, so `enqueue_task` goes to its last line
    have hbranch : ¬((s.dequeueTask p array).modify p (setNice nice)).ForkBranch p := by
      refine fun hc => hc.2.1 ?_
      rw [current, modify_proj (fun t => t.justGotForked) rfl, dequeueTask_task]
      exact hflags _
    have hexcept : ((s.dequeueTask p array).modify p (setNice nice)).LayoutExcept p :=
      (h.layout.dequeueTask harray).modify _
    have hflags' : ((s.dequeueTask p array).modify p (setNice nice)).NoFlags := by
      intro t
      rw [modify_proj (fun t => t.justGotForked) rfl, dequeueTask_task]
      exact hflags t
    rw [reniceQueued, enqueueTask_of_not_forkBranch hbranch]
    refine (dequeueTask h.layout harray).trans ((modify p (setNice nice) _).trans ?_)
    apply enqueueTail hexcept hflags'
    rw [hrenice] at hok
    simpa using hok
  generalize s.setUserNice p nice = s' at hcase ⊢
  cases hcase with
  | same => exact refl s
  | rt | overdue | sleeping => exact modify p _ s
  -- off one queue and onto another, with the new priority in between
  | queued _ _ _ harray hrenice => exact hqueued _ harray hrenice
  | queuedResched _ _ _ harray hrenice =>
    exact (hqueued _ harray hrenice).trans (modify _ _ _)

variable [Param]

/-- `activate_task` is followed: only the enqueueing reaches the links. -/
theorem activateTask (h : s.LayoutExcept p) (hflags : s.NoFlags)
    (hrange : 0 ≤ ((s.task p).woken s.jiffies).prio ∧
      ((s.task p).woken s.jiffies).prio < maxPrio) : Reaches s (s.activateTask p) := by
  have hbranch : ¬(s.modify p (Task.woken s.jiffies)).ForkBranch p :=
    fun hc => ((sameForks_woken p s).forkBranch_iff.mp hc).2.1 (hflags _)
  have hflags' : (s.modify p (Task.woken s.jiffies)).NoFlags :=
    fun t => ((sameForks_woken p s).justGotForked t).trans (hflags t)
  rw [activateTask_eq, enqueueTask_of_not_forkBranch hbranch]
  refine (modify p _ s).trans (.trans (enqueueTail (h.modify _) hflags' ?_) (write rfl rfl rfl))
  simpa using hrange

/-- A wake-up links a task that is in no queue. -/
theorem tryToWakeUp (h : s.RqInv) (hflags : s.NoFlags) (hp : p ≠ s.rq.idle) (sync : Bool) :
    Reaches s (s.tryToWakeUp p sync).2 := by
  by_cases hsleep : (s.task p).array = none
  swap
  · rw [tryToWakeUp_of_queued hsleep]
    exact modify p _ s
  have hprepare := sameTasks_wakePrepare p sync s
  have hrq : (s.wakePrepare p sync).rq.arrays = s.rq.arrays ∧
      (s.wakePrepare p sync).jiffies = s.jiffies ∧
      (s.wakePrepare p sync).tasklist = s.tasklist ∧
      (s.wakePrepare p sync).forking = s.forking := by
    rw [wakePrepare]
    split <;> split <;> exact ⟨rfl, rfl, rfl, rfl⟩
  obtain ⟨harrays, hjiffies, htasklist, hforking⟩ := hrq
  -- the queues are those of before, and `p` is on none of them
  have hlayout : (s.wakePrepare p sync).LayoutExcept p := by
    refine (h.layout.congr harrays hprepare.array fun t _ => by rw [hprepare.sched]).toExcept ?_
    rw [hprepare.array, hsleep]
  have hwoken : (((s.wakePrepare p sync).task p).woken (s.wakePrepare p sync).jiffies).toTaskSched
      = ((s.task p).woken s.jiffies).toTaskSched := by
    rw [hjiffies, woken_wakePrepare]
  have hactivate : Reaches (s.wakePrepare p sync) ((s.wakePrepare p sync).activateTask p) := by
    apply activateTask hlayout (hflags.sameTasks hprepare)
    rw [hwoken]
    exact ((h.tasks p hp).ok.woken s.jiffies).range
  have hfinish : Reaches ((s.wakePrepare p sync).activateTask p)
      (((s.wakePrepare p sync).activateTask p).wakeFinish p) := by
    unfold wakeFinish
    dsimp only
    split
    · exact write rfl rfl rfl
    · exact write rfl rfl rfl
  have hbegin : Reaches s (s.wakePrepare p sync) := write harrays htasklist hforking
  rw [tryToWakeUp_of_sleeping hsleep]
  exact hbegin.trans (hactivate.trans hfinish)

/-- A tick that uses up the slice of `current`, up to the choice of the array. -/
theorem expireState (h : s.RqAgree) (harray : s.current.array =
    some (pointerToMyActivePrioArray s.current.toTaskSched s.rq.toRqPtrs)) :
    Reaches s s.expireState := by
  have htick : (s.modify s.rq.curr Task.tick).Layout :=
    h.layout.congr rfl (modify_proj (fun t => t.array) (Task.tick_frame _).1)
      (fun t _ => modify_proj (fun t => t.prio) (by simp) t)
  have hqueued : ((s.modify s.rq.curr Task.tick).task s.rq.curr).array =
      some (pointerToMyActivePrioArray ((s.modify s.rq.curr Task.tick).task s.rq.curr).toTaskSched
        (s.modify s.rq.curr Task.tick).rq.toRqPtrs) := by
    rw [modify_proj (fun t => t.array) (Task.tick_frame _).1, harray]
    simp [pointerToMyActivePrioArray]
  have hfirst : Reaches s (s.modify s.rq.curr Task.tick) := modify _ _ s
  exact hfirst.trans ((dequeueTask htick hqueued).trans (write rfl rfl rfl))

/-- A tick moves `current` between queues, or only changes its fields. -/
theorem schedulerTick (h : s.RqInv) (hflags : s.NoFlags) : Reaches s s.schedulerTick := by
  have hcase := s.schedulerTick_cases
  -- a tick that charges nobody touches no queue
  by_cases hcharged : s.Charged
  swap
  · generalize s.schedulerTick = s' at hcase ⊢
    cases hcase with
    | idle => exact refl s
    | expired => exact modify _ _ s
    | fifo hc | rr hc | rrRefill hc | run hc | toExpired hc | requeue hc => exact absurd hc hcharged
  have harray := h.current_array hcharged
  have hrange : 0 ≤ (s.schedulerTick.task s.rq.curr).prio ∧
      (s.schedulerTick.task s.rq.curr).prio < maxPrio := by
    rw [schedulerTick_sched, if_pos ⟨rfl, hcharged⟩]
    exact (h.tasks _ hcharged.1).ok.afterTick.range
  -- in all cases below `current` has been taken off its queue, with its slice used up
  have hexcept := (h.toRqAgree.expireState harray).layout
  have hflags' : s.expireState.NoFlags := by
    intro t
    rw [expireState_task]
    by_cases ht : t = s.rq.curr
    · subst ht
      rw [Function.update_self, (Task.expire_frame _).2.1]
      exact ((Task.tick_frame _).2.1).trans (hflags _)
    · rw [Function.update_of_ne ht]
      exact hflags t
  generalize s.schedulerTick = s' at hcase hrange ⊢
  cases hcase with
  | idle h => exact absurd h hcharged.1
  | expired _ h => exact absurd h hcharged.2
  | fifo => exact refl s
  | rr | run => exact modify _ _ s
  | rrRefill _ hrt =>
    -- the slice is filled, and the task goes to the end of its queue
    have hrefill : (s.rrRefill s.rq.curr).Layout := by
      refine h.layout.congr rfl (fun t => ?_) fun t _ => ?_
      · rw [rrRefill, (SameTasks.setTskNeedResched _ _).array]
        exact modify_proj (fun t => t.array) rfl t
      · rw [rrRefill, (SameTasks.setTskNeedResched _ _).sched]
        exact modify_proj (fun t => t.prio) rfl t
    have hqueued : ((s.rrRefill s.rq.curr).task s.rq.curr).array = some s.rq.rtShort := by
      rw [← pointer_of_rtTask s.rq.toRqPtrs hrt, ← harray]
      simp [rrRefill, setTskNeedResched]
    have hflags₁ : ((s.rrRefill s.rq.curr).dequeueTask s.rq.curr s.rq.rtShort).NoFlags := by
      intro t
      rw [dequeueTask_task, rrRefill, (SameTasks.setTskNeedResched _ _).justGotForked]
      exact (modify_proj (fun t => t.justGotForked) rfl t).trans (hflags t)
    have hfirst : Reaches s (s.rrRefill s.rq.curr) := write rfl rfl rfl
    refine hfirst.trans ((dequeueTask hrefill hqueued).trans ?_)
    apply enqueueTail (hrefill.dequeueTask hqueued) hflags₁
    simpa using hrange
  | toExpired =>
    have hstamp : Reaches s.expireState s.expireState.stampExpired := by
      unfold stampExpired
      split
      · exact write rfl rfl rfl
      · exact refl _
    have hexcept₁ : s.expireState.stampExpired.LayoutExcept s.rq.curr := by
      unfold stampExpired
      split
      · exact hexcept.congr rfl (fun _ _ => rfl) fun _ _ => rfl
      · exact hexcept
    have hflags₁ : s.expireState.stampExpired.NoFlags := by
      intro t
      rw [stampExpired_task]
      exact hflags' t
    refine (expireState h.toRqAgree harray).trans (hstamp.trans (enqueueTail hexcept₁ hflags₁ ?_))
    simpa [stampExpired_task] using hrange
  | requeue =>
    refine (expireState h.toRqAgree harray).trans (enqueueTail hexcept hflags' ?_)
    simpa using hrange

/-- What the system calls do to a task that is queued: out, changed, and in again. -/
theorem requeued (h : s.RqInv) (hflags : s.NoFlags) {f : Task → Task}
    (hf : ∀ t : Task, (f t).array = t.array ∧ (f t).justGotForked = t.justGotForked)
    (hok : ∀ t : Task, t.toTaskSched = (s.task p).toTaskSched → TaskOk (f t).toTaskSched) :
    Reaches s (s.requeued p f) := by
  cases harray : (s.task p).array with
  | none =>
    rw [Sys.requeued, harray]
    exact modify p f s
  | some array =>
    have hdrop : (s.dropRunning p).Layout := h.layout.congr rfl (fun _ => rfl) fun _ _ => rfl
    have hwrite : Reaches s (s.dropRunning p) := write rfl rfl rfl
    have hout : Reaches s (s.dequeued p f array) :=
      hwrite.trans ((dequeueTask hdrop harray).trans (write rfl rfl rfl))
    have hexcept : (s.dequeued p f array).LayoutExcept p :=
      ((hdrop.dequeueTask harray).modify _).modify _
    have htask : (s.dequeued p f array).task p = f { s.task p with array := none } := by
      simp [dequeued, dropRunning]
    have hflags' : (s.dequeued p f array).NoFlags := by
      intro t
      rw [dequeued, modify_proj (fun t => t.justGotForked) (hf _).2,
        modify_proj (fun t => t.justGotForked) rfl, dequeueTask_task]
      exact hflags t
    rw [requeued_of_queued harray]
    refine hout.trans (activateTask hexcept hflags' ?_)
    have hnew : TaskOk (f { s.task p with array := none }).toTaskSched := hok _ rfl
    rw [htask]
    exact (hnew.woken _).range

omit [Param] in
theorem sameButFlags (h : SameButFlags s s') : Reaches s s' :=
  write (by rw [h.rq]) h.tasklist h.forking

/-- `setscheduler` is followed in each of its outcomes. -/
theorem setscheduler {pid policy : ℤ} {param : UserParam} {r : ℤ} (h : s.RqInv)
    (hflags : s.NoFlags) (hidle : s.findProcessByPid pid ≠ some s.rq.idle)
    (hcall : s.setscheduler pid policy param = some (r, s')) : Reaches s s' := by
  have hok : ∀ {p lp}, Target s pid param p lp → TaskOk (s.task p).toTaskSched := by
    intro p lp target
    refine (h.tasks p ?_).ok
    rintro rfl
    exact hidle target.found
  cases SetschedCase.of_eq_some hcall with
  | refused _ hsame => exact sameButFlags hsame
  | adjusted => exact write rfl rfl rfl
  | @madeShort p lp target hother =>
    have hnew : Reaches s (s.requeued p (Task.makeShort lp)) := by
      refine requeued h hflags (fun _ => ⟨rfl, rfl⟩) fun t ht => TaskOk.makeShort ?_ ?_ lp
      · rw [ht]
        exact hok target
      · rw [TaskSched.OtherTask, ht]
        exact hother
    exact hnew.trans (modify _ _ _)
  | @changed p lp policy' s₁ target hnot hnew hprio _ hsame =>
    have hset : Reaches s₁ (s₁.requeued p (Task.setPolicy policy' lp)) := by
      refine requeued (h.sameButFlags hsame) (hflags.sameTasks hsame.sameTasks)
        (fun _ => ⟨rfl, rfl⟩) fun t ht => TaskOk.setPolicy ?_ hnew hprio
      rw [ht, hsame.sameTasks.sched]
      exact hok target
    exact (sameButFlags hsame).trans hset

/-- **Every operation** of the scheduler is a sequence of accesses to the queues. -/
theorem step {op : Op} (h : s.RqInv) (hflags : s.NoFlags) (hop : op.InScheduler)
    (hstep : Step s op s') : Reaches s s' := by
  obtain ⟨hen, hexec⟩ := hstep
  cases op with
  | tryToWakeUp p sync =>
    rw [← Option.some.inj hexec]
    exact tryToWakeUp h hflags hen.2 sync
  | schedule => exact schedule h hexec
  | schedulerTick =>
    rw [← Option.some.inj hexec]
    exact schedulerTick h hflags
  | setUserNice p nice =>
    rw [← Option.some.inj hexec]
    exact setUserNice h hflags hen.2.2 nice
  | setscheduler pid policy param =>
    obtain ⟨⟨r, s₁⟩, hcall, hr⟩ := Option.map_eq_some_iff.mp hexec
    rw [← hr]
    exact setscheduler h hflags hen.2 hcall
  | sysSchedYield => exact sysSchedYield h hen.2 hexec
  | setCurrentState state =>
    rw [← Option.some.inj hexec]
    exact modify _ _ s
  | setSigpending p pending =>
    rw [← Option.some.inj hexec]
    exact modify _ _ s
  | setJiffies jiffies =>
    rw [← Option.some.inj hexec]
    exact write rfl rfl rfl
  | doFork | doForkSplit | doForkWake | vforkReturn | schedExit | doExit => exact absurd hop id

/-- **Every run of the scheduler's operations** is followed link by link. -/
theorem run {ops : List Op} (h : s.RqInv) (hflags : s.NoFlags) (hops : ∀ op ∈ ops, op.InScheduler)
    (hrun : Run Step s ops s') : s'.RqInv ∧ Reaches s s' := by
  induction hrun with
  | nil => exact ⟨h, refl _⟩
  | cons hstep _ ih =>
    have hop := hops _ List.mem_cons_self
    have hnext := RqInv.step_inScheduler ⟨h, hflags⟩ hop hstep
    obtain ⟨hend, hrest⟩ := ih hnext.1 hnext.2 fun op hop => hops op (List.mem_cons_of_mem _ hop)
    exact ⟨hend, (step h hflags hop hstep).trans hrest⟩

end Reaches

/-! ## The loops of `sched_init` -/

namespace LinkedSys

variable {c c' c'' : LinkedSys} {l : PrioArrayPtr × ℤ}

/-- The queue is an empty circle, and its bit is cleared. -/
structure Inited (c : LinkedSys) (l : PrioArrayPtr × ℤ) : Prop where
  next : c.links.next (.inl l) = .inl l
  prev : c.links.prev (.inl l) = .inl l
  bit : c.bitmap l.1 l.2 = false

/-- What the loops leave alone and what they do not undo. -/
structure InitFrame (c c' : LinkedSys) : Prop where
  task : c'.task = c.task
  rq : c'.rq = c.rq
  nrActive : c'.nrActive = c.nrActive
  tasklist : c'.tasklist = c.tasklist
  inited : ∀ l ∈ queueHeads, c.Inited l → c'.Inited l
  delimiter : ∀ array, c.bitmap array maxPrio = true → c'.bitmap array maxPrio = true

namespace InitFrame

theorem refl (c : LinkedSys) : InitFrame c c :=
  ⟨rfl, rfl, rfl, rfl, fun _ _ h => h, fun _ h => h⟩

theorem trans (h : InitFrame c c') (h' : InitFrame c' c'') : InitFrame c c'' where
  task := h'.task.trans h.task
  rq := h'.rq.trans h.rq
  nrActive := h'.nrActive.trans h.nrActive
  tasklist := h'.tasklist.trans h.tasklist
  inited l hl hi := h'.inited l hl (h.inited l hl hi)
  delimiter a ha := h'.delimiter a (h.delimiter a ha)

/-- A loop does what its rounds do, and what a round has done stays done. -/
theorem foldl {ι : Type} {f : LinkedSys → ι → LinkedSys} {P : ι → LinkedSys → Prop}
    (is : List ι) (hframe : ∀ c, ∀ i ∈ is, InitFrame c (f c i)) (hdone : ∀ c, ∀ i ∈ is, P i (f c i))
    (hkeep : ∀ i c c', InitFrame c c' → P i c → P i c') (c : LinkedSys) :
    InitFrame c (is.foldl f c) ∧ ∀ i ∈ is, P i (is.foldl f c) := by
  induction is generalizing c with
  | nil => exact ⟨refl c, fun i hi => absurd hi List.not_mem_nil⟩
  | cons i is ih =>
    obtain ⟨hrest, hall⟩ := ih (fun c j hj => hframe c j (List.mem_cons_of_mem i hj))
      (fun c j hj => hdone c j (List.mem_cons_of_mem i hj)) (f c i)
    refine ⟨(hframe c i List.mem_cons_self).trans hrest, fun j hj => ?_⟩
    rcases List.mem_cons.mp hj with rfl | hj
    · exact hkeep j _ _ hrest (hdone c j List.mem_cons_self)
    · exact hall j hj

end InitFrame

theorem inited_initQueue (array : PrioArrayPtr) (k : ℕ) (c : LinkedSys) :
    (c.initQueue array k).Inited (array, k) where
  next := by simp [initQueue, modifyLinks, setBit, ListHead.initListHead]
  prev := by simp [initQueue, modifyLinks, setBit, ListHead.initListHead]
  bit := by simp [initQueue, modifyLinks, setBit, ListHead.initListHead]

/-- `INIT_LIST_HEAD` of one queue writes to nothing else. -/
theorem initFrame_initQueue (array : PrioArrayPtr) {k : ℕ} (hk : k < 140) (c : LinkedSys) :
    InitFrame c (c.initQueue array k) where
  task := rfl
  rq := rfl
  nrActive := rfl
  tasklist := rfl
  inited l _ hi := by
    by_cases hl : l = (array, (k : ℤ))
    · rw [hl]
      exact inited_initQueue array k c
    · refine ⟨?_, ?_, ?_⟩
      · simp [initQueue, modifyLinks, setBit, ListHead.initListHead, hl, hi.next]
      · simp [initQueue, modifyLinks, setBit, ListHead.initListHead, hl, hi.prev]
      · obtain ⟨a, j⟩ := l
        by_cases ha : a = array
        · subst ha
          have hj : j ≠ k := fun hc => hl (by rw [hc])
          simpa [initQueue, modifyLinks, setBit, hj] using hi.bit
        · simpa [initQueue, modifyLinks, setBit, ha] using hi.bit
  delimiter a ha := by
    -- the rounds do not come to the delimiter
    have hne : (maxPrio : ℤ) ≠ k := by
      have hmax : maxPrio = 140 := rfl
      omega
    by_cases h : a = array
    · subst h
      rw [initQueue, setBit, modifyLinks]
      dsimp only
      rwa [Function.update_self, Function.update_of_ne hne]
    · rw [initQueue, setBit, modifyLinks]
      dsimp only
      rwa [Function.update_of_ne h]

/-- What a round of the outer loops brings about. -/
def ArrayInited (array : PrioArrayPtr) (c : LinkedSys) : Prop :=
  c.bitmap array maxPrio = true ∧ ∀ k, 0 ≤ k → k < maxPrio → c.Inited (array, k)

/-- Nor does the delimiter bit. -/
theorem initFrame_delimiter (array : PrioArrayPtr) (c : LinkedSys) :
    InitFrame c (c.setBit maxPrio true array) where
  task := rfl
  rq := rfl
  nrActive := rfl
  tasklist := rfl
  inited l hl hi := by
    refine ⟨hi.next, hi.prev, ?_⟩
    obtain ⟨a, j⟩ := l
    have hne : j ≠ maxPrio := ne_of_lt hl.2
    rw [setBit]
    dsimp only
    by_cases ha : a = array
    · subst ha
      rw [Function.update_self, Function.update_of_ne hne]
      exact hi.bit
    · rw [Function.update_of_ne ha]
      exact hi.bit
  delimiter a ha := by
    rw [setBit]
    dsimp only
    by_cases h : a = array
    · subst h
      rw [Function.update_self, Function.update_self]
    · rwa [Function.update_of_ne h]

/-- The loop of `sched_init` over one array empties all of its queues. -/
theorem initArray_spec (array : PrioArrayPtr) (c : LinkedSys) :
    InitFrame c (c.initArray array) ∧ ArrayInited array (c.initArray array) := by
  obtain ⟨hframe, hall⟩ := InitFrame.foldl (f := fun s k => s.initQueue array k)
    (P := fun k c => k < 140 → c.Inited (array, (k : ℤ))) (List.range 140)
    (fun c k hk => initFrame_initQueue array (List.mem_range.mp hk) c)
    (fun c k _ _ => inited_initQueue array k c)
    (fun k c c' h hi hk => h.inited _ ⟨Int.natCast_nonneg k, by
      have hmax : maxPrio = 140 := rfl
      dsimp only
      omega⟩ (hi hk)) c
  have hlast := initFrame_delimiter array ((List.range 140).foldl (fun s k => s.initQueue array k) c)
  refine ⟨hframe.trans hlast, ?_, fun k hk hlt => hlast.inited _ ⟨hk, hlt⟩ ?_⟩
  · rw [initArray, setBit]
    dsimp only
    rw [Function.update_self, Function.update_self]
  · have hmax : maxPrio = 140 := rfl
    obtain ⟨n, rfl⟩ := Int.eq_ofNat_of_zero_le hk
    exact hall n (List.mem_range.mpr (by omega)) (by omega)

/-- **`sched_init`** initialises all queues and bitmaps, whatever the memory held before. -/
theorem initArrays_spec (c : LinkedSys) :
    InitFrame c c.initArrays ∧ ∀ array, ArrayInited array c.initArrays := by
  obtain ⟨hframe, hall⟩ := InitFrame.foldl (f := initArray) (P := ArrayInited)
    [PrioArrayPtr.arrays0, .arrays1, .shortArrays0, .shortArrays1]
    (fun c a _ => (initArray_spec a c).1) (fun c a _ => (initArray_spec a c).2)
    (fun a c c' h hi => ⟨h.delimiter a hi.1, fun k hk hlt => h.inited _ ⟨hk, hlt⟩ (hi.2 k hk hlt)⟩) c
  exact ⟨hframe, fun array => hall array (by cases array <;> decide)⟩

/-- The machine with the same tasks whose queues are empty lists. -/
def cleared (c : LinkedSys) (jiffies : UInt32) : Sys where
  task := c.task
  rq :=
    { toRqPtrs := c.rq
      arrays := fun array =>
        { nrActive := c.nrActive array
          bitmap := fun _ => false
          queue := fun _ => [] } }
  jiffies := jiffies
  tasklist := c.tasklist

/-- After the four loops the memory represents a runqueue without tasks. -/
theorem inStep_initArrays (c : LinkedSys) (jiffies : UInt32) :
    InStep c.initArrays (c.cleared jiffies) := by
  obtain ⟨hframe, hall⟩ := c.initArrays_spec
  refine ⟨⟨hframe.task, hframe.rq, hframe.tasklist, hframe.nrActive, ?_, ?_, ?_⟩, fun _ => none, ?_⟩
  · exact fun array k hk => ((hall array).2 k hk.1 hk.2).bit
  · exact fun array => (hall array).1
  · intro l hl
    have hinit := (hall l.1).2 l.2 hl.1 hl.2
    exact List.isChain_pair.mpr ⟨hinit.next, hinit.prev⟩
  · exact ⟨fun p l => iff_of_false List.not_mem_nil nofun, fun l => List.nodup_nil⟩

end LinkedSys

/-! ## Runs -/

/-- The two machines pick alike. -/
theorem InStep.firstTask {c : LinkedSys} {s : Sys} {array : PrioArrayPtr} (h : InStep c s)
    (hlayout : s.Layout) (hactive : s.nrActives array ≠ 0) :
    ∃ t, c.firstTask array = some t ∧ s.firstTask array = some t := by
  obtain ⟨t, ht, hfirst⟩ := hlayout.firstTask hactive
  obtain ⟨hmem, hrange⟩ := Reaches.waits hlayout hfirst.queued
  have hlevel := mem_levels.mpr ⟨rfl, hrange⟩
  have hbit := (hlayout.bitmap array _ hlevel).mpr (List.ne_nil_of_mem hmem)
  obtain ⟨-, hge, hlt, -⟩ := schedFindFirstBit_of_bit hrange hbit
  refine ⟨t, ?_, ht⟩
  rw [h.mirrors.firstTask, ht]
  rw [h.mirrors.schedFindFirstBit]
  exact ⟨hge, hlt⟩

variable [Param]

namespace LinkedSys

/-- The listed tasks sleep, and the links and bitmaps have not been written yet. -/
def unlinked (ts : List Task) : LinkedSys where
  task := (ofList ts 0).task
  rq := (ofList ts 0).rq.toRqPtrs
  nrActive := fun _ => 0
  bitmap := fun _ prio => prio = 3
  links := ⟨fun _ => Sum.inr 7, fun _ => Sum.inl (.arrays1, -1)⟩
  tasklist := (ofList ts 0).tasklist

omit [Param] in
/-- Tasks that sleep are the same whether the queues were built or only emptied. -/
theorem cleared_unlinked {ts : List Task} (hasleep : ∀ t ∈ ts, t.array = none) :
    (unlinked ts).cleared 0 = ofList ts 0 := by
  have hnone : ∀ t, ((ofList ts 0).task t).array = none :=
    ofList_forall (P := fun t => t.array = none) rfl (fun _ => rfl) hasleep 0
  have harrays : (ofList ts 0).rq.arrays = fun _ => ⟨0, fun _ => false, fun _ => []⟩ := by
    have hlevel : ∀ t l, ((ofList ts 0).task t).level ≠ some l := by
      intro t l hl
      rw [Task.level_eq_some, hnone] at hl
      cases hl.1
    have hqueue : ∀ l, (ofList ts 0).tasklist.filter
        (fun t => ((ofList ts 0).task t).level = some l) = [] :=
      fun l => List.filter_eq_nil_iff.mpr fun t _ => by simpa using hlevel t l
    funext array
    have hactive : (ofList ts 0).tasklist.filter
        (fun t => ((ofList ts 0).task t).array = some array) = [] :=
      List.filter_eq_nil_iff.mpr fun t _ => by simp [hnone]
    change PrioArray.mk _ _ _ = _
    congr 1
    · exact congrArg (fun ts => (ts.length : ℤ)) hactive
    · funext prio
      apply List.any_eq_false.mpr
      intro t _ hc
      exact hlevel t (array, prio) (decide_eq_true_eq.mp hc)
    · funext prio
      exact hqueue (array, prio)
  rw [cleared]
  have hrq : (ofList ts 0).rq = ⟨(ofList ts 0).rq.toRqPtrs, (ofList ts 0).rq.arrays⟩ := rfl
  rw [harrays] at hrq
  change Sys.mk _ _ _ _ _ = Sys.mk _ (ofList ts 0).rq _ _ _
  rw [hrq]
  rfl

end LinkedSys

end ShortSched
