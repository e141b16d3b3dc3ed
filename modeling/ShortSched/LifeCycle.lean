import ShortSched.OfTasks
import ShortSched.StepTheorems

/-!
# The life cycle of a task

A task is real-time, OTHER, SHORT or overdue. `setscheduler` moves it between real-time and
OTHER and makes it SHORT; from there ticks lead through overdue back to OTHER. What links the
class of a task to its other fields (`LifeInv`) does not depend on the state of the runqueue.
-/

namespace ShortSched

open General Sys

inductive TaskClass
  | rt
  | other
  | short
  | overdue
deriving DecidableEq, Repr

/-- The class of a task, by its policy and `iAmOverdue`. -/
def TaskSched.taskClass (p : TaskSched) : TaskClass :=
  match p.policy with
  | .fifo | .rr => .rt
  | .other => .other
  | .short => if p.iAmOverdue = 0 then .short else .overdue

/-- What the class of a task says about its other fields. -/
structure LifeInv (p : TaskSched) : Prop where
  overdue_flag : p.iAmOverdue = 0 ∨ p.iAmOverdue = 1
  overdue_policy : p.iAmOverdue = 1 → p.policy = .short
  overdue_prio : p.iAmOverdue = 1 → p.prio = overduePrio ∧ p.staticPrio = overduePrio
  parked : p.iAmOverdue = 1 → UserRange p.overdueStaticPrio
  requested : p.requestedTime ≠ 0 ↔ p.policy = .short
  was_short : p.policy = .short → p.iWasShort = 1
  static_prio : UserRange p.staticPrio

/-- A task like `INIT_TASK`. -/
structure InitTask (t : Task) : Prop where
  other : t.OtherTask
  static_prio : UserRange t.staticPrio
  requestedTime : t.requestedTime = 0
  iAmOverdue : t.iAmOverdue = 0
  iWasShort : t.iWasShort = 0
  overdueStaticPrio : t.overdueStaticPrio = 0
  justGotForked : t.justGotForked = 0

/-- A task like `INIT_TASK` is at the begin of the life cycle. -/
theorem InitTask.lifeInv {t : Task} (h : InitTask t) : LifeInv t.toTaskSched where
  overdue_flag := .inl h.iAmOverdue
  overdue_policy hover := by rw [h.iAmOverdue] at hover; cases hover
  overdue_prio hover := by rw [h.iAmOverdue] at hover; cases hover
  parked hover := by rw [h.iAmOverdue] at hover; cases hover
  requested := by
    rw [h.requestedTime, h.other]
    simp
  was_short hshort := by rw [h.other] at hshort; cases hshort
  static_prio := h.static_prio

/-! ## The updates of a task -/

variable [Param] {s s' : Sys} {op : Op} {t : TaskId}

namespace LifeInv

variable {p : TaskSched} {u : Task}

omit [Param] in
theorem not_overdue (h : LifeInv p) (hpolicy : p.policy ≠ .short) : p.iAmOverdue = 0 :=
  h.overdue_flag.resolve_right fun hover => hpolicy (h.overdue_policy hover)

omit [Param] in
/-- Time slices do not matter. -/
theorem setSlice (h : LifeInv p) (timeSlice firstTimeSlice : UInt32) :
    LifeInv { p with timeSlice := timeSlice, firstTimeSlice := firstTimeSlice } :=
  ⟨h.1, h.2, h.3, h.4, h.5, h.6, h.7⟩

omit [Param] in
/-- The priority matters for an overdue task only. -/
theorem setPrio (h : LifeInv p) {prio : ℤ} (hprio : p.iAmOverdue = 1 → prio = overduePrio) :
    LifeInv { p with prio := prio } where
  overdue_flag := h.overdue_flag
  overdue_policy := h.overdue_policy
  overdue_prio hover := ⟨hprio hover, (h.overdue_prio hover).2⟩
  parked := h.parked
  requested := h.requested
  was_short := h.was_short
  static_prio := h.static_prio

theorem effectivePrio_overdue (h : LifeInv u.toTaskSched) (hover : u.iAmOverdue = 1) :
    u.effectivePrio = overduePrio := by
  have hshort : ¬u.ShortTask := by
    rintro ⟨-, h0⟩
    rw [hover] at h0
    cases h0
  rw [Task.effectivePrio, if_neg hshort, if_pos ⟨h.overdue_policy hover, hover⟩]

/-- A wake-up computes the priority only. -/
theorem woken (h : LifeInv u.toTaskSched) (jiffies : UInt32) :
    LifeInv (u.woken jiffies).toTaskSched := by
  rw [Task.woken_sched]
  refine h.setPrio fun hover => ?_
  rcases Task.woken_prio jiffies u with hsame | ⟨-, avg, hprio⟩
  · rw [hsame]
    exact (h.overdue_prio hover).1
  · rw [hprio]
    exact effectivePrio_overdue (u := { u with sleepAvg := avg }) h hover

/-- The end of a slice moves a task on in its life cycle. -/
theorem expire (h : LifeInv u.toTaskSched) : LifeInv u.expire.toTaskSched := by
  unfold Task.expire Task.expireClass
  by_cases hover : u.OverdueTask
  · -- the old static priority comes back
    have hparked := h.parked hover.2
    simp only [if_pos hover]
    refine ⟨.inl rfl, nofun, nofun, nofun, ?_, nofun, hparked⟩
    simp [invalidRequestedTime]
  simp only [if_neg hover]
  by_cases hshort : u.ShortTask
  · simp only [if_pos hshort]
    have hstatic : UserRange overduePrio := by decide
    refine ⟨.inr rfl, fun _ => hshort.1, fun _ => ⟨?_, rfl⟩, fun _ => h.static_prio, h.requested,
      h.was_short, hstatic⟩
    -- `effective_prio` sees an overdue task already
    simp only [Task.effectivePrio]
    rw [if_neg, if_pos]
    · exact ⟨hshort.1, rfl⟩
    · exact fun hc => absurd hc.2 one_ne_zero
  · simp only [if_neg hshort]
    have h0 : u.iAmOverdue = 0 :=
      h.overdue_flag.resolve_right fun h1 => hover ⟨h.overdue_policy h1, h1⟩
    refine ⟨.inl h0, h.overdue_policy, fun h1 => ?_, h.parked, h.requested, h.was_short,
      h.static_prio⟩
    exact absurd (h0.symm.trans h1) zero_ne_one

/-- So does a tick that ends the slice; another tick counts down. -/
theorem afterTick (h : LifeInv u.toTaskSched) : LifeInv u.afterTick.toTaskSched := by
  rcases u.afterTick_cases with ⟨_, _, -, heq⟩ | ⟨-, -, heq⟩
  · rw [heq]
    exact h.setSlice _ _
  · rw [heq]
    apply expire
    rw [Task.tick_sched]
    exact h.setSlice _ _

omit [Param] in
/-- A nice value goes to the field that the class uses. -/
theorem renice (h : LifeInv p) (nice : ℤ) : LifeInv (p.renice nice) := by
  unfold TaskSched.renice
  split
  · exact h
  next hnice =>
  have hrange : UserRange (niceToPrio nice) := by
    rw [not_or, not_or] at hnice
    constructor <;> simp only [niceToPrio, maxPrio, maxRtPrio, maxUserRtPrio] <;> omega
  split
  · next hrt =>
    -- an overdue task is not real-time
    have h0 : ¬p.iAmOverdue = 1 := by
      intro h1
      have hprio : p.prio < 100 := hrt
      rw [(h.overdue_prio h1).1] at hprio
      exact absurd hprio (by decide)
    exact ⟨h.overdue_flag, h.overdue_policy, fun h1 => absurd h1 h0, h.parked, h.requested,
      h.was_short, hrange⟩
  split
  · exact ⟨h.overdue_flag, h.overdue_policy, h.overdue_prio, fun _ => hrange, h.requested,
      h.was_short, h.static_prio⟩
  split
  · exact h
  · next hover _ =>
    have h0 : ¬p.iAmOverdue = 1 := fun h1 => hover ⟨h.overdue_policy h1, h1⟩
    exact ⟨h.overdue_flag, h.overdue_policy, fun h1 => absurd h1 h0, h.parked, h.requested,
      h.was_short, hrange⟩

/-- A request that passes the check of a SHORT task is not zero. -/
theorem adjustShort (h : LifeInv u.toTaskSched) {lp : SchedParam} (hshort : u.policy = .short)
    (hgt : (changeMsToJiffis lp.requestedTime).toUInt32 > u.requestedTime.toUInt32 - u.timeSlice) :
    LifeInv (u.adjustShort lp).toTaskSched := by
  have hne : changeMsToJiffis lp.requestedTime ≠ 0 := by
    intro h0
    rw [h0] at hgt
    exact absurd hgt UInt32.not_lt_zero
  exact ⟨h.overdue_flag, h.overdue_policy, h.overdue_prio, h.parked,
    ⟨fun _ => hshort, fun _ => hne⟩, h.was_short, h.static_prio⟩

/-- An OTHER task becomes SHORT with the time that it asked for. -/
theorem makeShort (h : LifeInv u.toTaskSched) {lp : SchedParam} (hother : u.policy = .other)
    (hge : minRequestedTime ≤ changeMsToJiffis lp.requestedTime) :
    LifeInv (u.makeShort lp).toTaskSched := by
  have h0 : u.iAmOverdue = 0 := h.not_overdue (by rw [hother]; decide)
  have hne : changeMsToJiffis lp.requestedTime ≠ 0 := by
    intro hzero
    rw [hzero] at hge
    exact absurd hge (by decide)
  have hover : ∀ {P : Prop}, (u.makeShort lp).iAmOverdue = 1 → P :=
    fun h1 => absurd (h0.symm.trans h1) zero_ne_one
  exact ⟨.inl h0, hover, hover, hover, ⟨fun _ => rfl, fun _ => hne⟩, fun _ => rfl, h.static_prio⟩

omit [Param] in
/-- A task that is not SHORT changes to another policy than SHORT. -/
theorem setPolicy (h : LifeInv u.toTaskSched) {policy : Policy} {lp : SchedParam}
    (hnot : u.policy ≠ .short) (hnew : policy ≠ .short) :
    LifeInv (u.setPolicy policy lp).toTaskSched := by
  have h0 : u.iAmOverdue = 0 := h.not_overdue hnot
  have hover : ∀ {P : Prop}, (u.setPolicy policy lp).iAmOverdue = 1 → P :=
    fun h1 => absurd (h0.symm.trans h1) zero_ne_one
  have hzero : u.requestedTime = 0 := by
    by_contra hc
    exact hnot (h.requested.mp hc)
  refine ⟨.inl h0, hover, hover, hover, ⟨fun hc => absurd hzero hc, fun hc => absurd hc hnew⟩,
    fun hc => absurd hc hnew, h.static_prio⟩

end LifeInv

/-- **The life-cycle invariant** is kept by whatever a step does to a task. -/
theorem SchedStep.lifeInv {p' : TaskSched} (h : SchedStep s t op p')
    (ht : LifeInv (s.task t).toTaskSched)
    (hcurr : (∃ cloneFlags env, op = .doFork cloneFlags env) → LifeInv s.current.toTaskSched) :
    LifeInv p' := by
  cases h with
  | same => exact ht
  | woken => exact ht.woken s.jiffies
  | tick => exact ht.afterTick
  | renice nice => exact ht.renice nice
  | adjust _ hshort hgt => exact ht.adjustShort hshort hgt
  | make _ hother _ _ hge =>
    split
    · exact ht.makeShort hother hge
    · exact (ht.makeShort hother hge).woken s.jiffies
  | setPolicy _ hnot hnew =>
    split
    · exact ht.setPolicy hnot hnew
    · exact (ht.setPolicy hnot hnew).woken s.jiffies
  | @yield array =>
    refine ht.setPrio fun hover => ?_
    -- no queue is below that of the overdue tasks
    have hprio := (ht.overdue_prio hover).1
    have hrange := yieldPrio_range (s := s) (p := t) array (by rw [hprio]; decide)
    rw [hprio] at hrange
    simp only [overduePrio, maxPrio, maxRtPrio, maxUserRtPrio] at hrange ⊢
    omega
  | forkSlice => exact ht.setSlice _ _
  | forkExpired => exact ht.setSlice _ _
  | forkTick =>
    exact LifeInv.afterTick (u := { s.task t with timeSlice := 1, justGotForked := 0 })
      (ht.setSlice _ _)
  | forkCopy cloneFlags env => exact hcurr ⟨cloneFlags, env, rfl⟩
  | forkChild => exact ht.setSlice _ _
  | forkWoken _ _ prio hprio =>
    refine ht.setPrio fun hover => ?_
    rcases hprio with hsame | ⟨-, avg, hprio⟩
    · rw [hsame]
      exact (ht.overdue_prio hover).1
    · rw [hprio]
      exact LifeInv.effectivePrio_overdue (u := { s.task t with sleepAvg := avg }) ht hover
  | reap => exact ht.setSlice _ _

/-- The priorities of a task stay valid for its policy. -/
theorem SchedStep.taskOk {p' : TaskSched} (h : SchedStep s t op p')
    (ht : TaskOk (s.task t).toTaskSched)
    (hcurr : ∀ cloneFlags env, op = .doFork cloneFlags env → t = env.child →
      TaskOk s.current.toTaskSched) :
    TaskOk p' := by
  cases h with
  | same => exact ht
  | woken => exact ht.woken s.jiffies
  | tick => exact ht.afterTick
  | renice nice => exact ht.renice nice
  | adjust => exact ht.adjustShort _
  | make _ hother =>
    split
    · exact ht.makeShort hother _
    · exact (ht.makeShort hother _).woken s.jiffies
  | setPolicy _ _ hnew hprio =>
    split
    · exact ht.setPolicy hnew hprio
    · exact (ht.setPolicy hnew hprio).woken s.jiffies
  | yield => exact ht.yield _
  | forkSlice => exact ht.setSlice _ _
  | forkExpired => exact ht.setSlice _ _
  | forkTick =>
    exact TaskOk.afterTick (t := { s.task t with timeSlice := 1, justGotForked := 0 })
      (ht.setSlice _ _)
  | forkCopy cloneFlags env hc => exact hcurr cloneFlags env rfl hc
  | forkChild => exact ht.setSlice _ _
  | forkWoken _ _ prio hprio =>
    rcases hprio with hsame | ⟨hrt, avg, hprio⟩
    · rw [hsame]
      exact ht
    · apply ht.setPrio hrt
      rw [hprio]
      exact effectivePrio_range (t := { s.task t with sleepAvg := avg }) ht.static_prio
  | reap => exact ht.setSlice _ _

/-! ## Changes of class -/

/-- The changes of class that there are. -/
inductive ClassChange (s : Sys) (t : TaskId) : Op → TaskClass → TaskClass → Prop
  | same (op : Op) (c : TaskClass) : ClassChange s t op c c
  | toRt {pid policy : ℤ} {param : UserParam} {lp : SchedParam} (target : Target s pid param t lp) :
      ClassChange s t (.setscheduler pid policy param) .other .rt
  | toOther {pid policy : ℤ} {param : UserParam} {lp : SchedParam}
      (target : Target s pid param t lp) :
      ClassChange s t (.setscheduler pid policy param) .rt .other
  | toShort {pid policy : ℤ} {param : UserParam} {lp : SchedParam}
      (target : Target s pid param t lp) :
      ClassChange s t (.setscheduler pid policy param) .other .short
  | toOverdue (ht : t = s.rq.curr) : ClassChange s t .schedulerTick .short .overdue
  | fromOverdue (ht : t = s.rq.curr) : ClassChange s t .schedulerTick .overdue .other
  | forkOverdue (ht : t = s.rq.curr) : ClassChange s t .doForkSplit .short .overdue

omit [Param] in
theorem TaskSched.taskClass_congr {p p' : TaskSched} (hpolicy : p'.policy = p.policy)
    (hover : p'.iAmOverdue = p.iAmOverdue) : p'.taskClass = p.taskClass := by
  rw [taskClass, taskClass, hpolicy, hover]

omit [Param] in
theorem TaskSched.taskClass_short {p : TaskSched} (h : p.ShortTask) : p.taskClass = .short := by
  rw [taskClass, h.1]
  exact if_pos h.2

omit [Param] in
theorem TaskSched.taskClass_overdue {p : TaskSched} (h : p.OverdueTask) :
    p.taskClass = .overdue := by
  rw [taskClass, h.1]
  exact if_neg (by rw [h.2]; exact one_ne_zero)

omit [Param] in
theorem TaskSched.taskClass_other {p : TaskSched} (h : p.OtherTask) : p.taskClass = .other := by
  rw [taskClass, h]

theorem Task.taskClass_woken (jiffies : UInt32) (u : Task) :
    (u.woken jiffies).taskClass = u.taskClass := by
  refine TaskSched.taskClass_congr ?_ ?_
  · rw [Task.woken_sched]
  · rw [Task.woken_sched]

/-- The class of a task whose slice is used up. -/
theorem Task.taskClass_expire (u : Task) : u.expire.taskClass = u.expireClass.taskClass :=
  TaskSched.taskClass_congr rfl rfl

/-- The class of a task after a tick. -/
theorem Task.taskClass_afterTick (u : Task) : u.afterTick.taskClass = u.taskClass ∨
    u.ShortTask ∧ u.afterTick.taskClass = .overdue ∨
    u.OverdueTask ∧ u.afterTick.taskClass = .other := by
  rcases u.afterTick_cases with ⟨_, _, -, heq⟩ | ⟨-, -, heq⟩
  · left
    rw [heq]
    rfl
  rw [heq]
  have htick : u.tick.toTaskSched = { u.toTaskSched with timeSlice := u.timeSlice - 1 } := u.tick_sched
  have hover : u.tick.OverdueTask ↔ u.OverdueTask := by rw [htick]
  have hshort : u.tick.ShortTask ↔ u.ShortTask := by rw [htick]
  rw [Task.taskClass_expire, Task.expireClass]
  by_cases ho : u.OverdueTask
  · rw [if_pos (hover.mpr ho)]
    exact .inr (.inr ⟨ho, rfl⟩)
  by_cases hs : u.ShortTask
  · rw [if_neg fun hc => ho (hover.mp hc), if_pos (hshort.mpr hs)]
    refine .inr (.inl ⟨hs, ?_⟩)
    exact TaskSched.taskClass_overdue ⟨(hshort.mpr hs).1, rfl⟩
  · left
    rw [if_neg fun hc => ho (hover.mp hc), if_neg fun hc => hs (hshort.mp hc), htick]
    rfl

theorem Task.taskClass_makeShort {u : Task} {lp : SchedParam} (h : LifeInv u.toTaskSched)
    (hother : u.policy = .other) : (u.makeShort lp).taskClass = .short :=
  TaskSched.taskClass_short ⟨rfl, h.not_overdue (by rw [hother]; decide)⟩

omit [Param] in
/-- The classes without SHORT. -/
theorem TaskSched.taskClass_of_not_short {p : TaskSched} (h : p.policy ≠ .short) :
    p.taskClass = .rt ∨ p.taskClass = .other := by
  unfold taskClass
  split
  · exact .inl rfl
  · exact .inl rfl
  · exact .inr rfl
  · next hshort => exact absurd hshort h

/-- What a step does to the class of a task that exists. -/
theorem SchedStep.classChange {p' : TaskSched} (h : SchedStep s t op p')
    (ht : LifeInv (s.task t).toTaskSched)
    (hchild : ∀ cloneFlags env, op = .doFork cloneFlags env → t ≠ env.child) :
    ClassChange s t op (s.task t).taskClass p'.taskClass := by
  cases h with
  | same => exact .same _ _
  | woken =>
    rw [Task.taskClass_woken]
    exact .same _ _
  | tick hcurr =>
    rcases (s.task t).taskClass_afterTick with hsame | ⟨hc, hnew⟩ | ⟨hc, hnew⟩
    · rw [hsame]
      exact .same _ _
    · rw [hnew, TaskSched.taskClass_short hc]
      exact .toOverdue hcurr
    · rw [hnew, TaskSched.taskClass_overdue hc]
      exact .fromOverdue hcurr
  | renice nice =>
    obtain ⟨hpolicy, hover⟩ := (s.task t).renice_class nice
    rw [TaskSched.taskClass_congr hpolicy hover]
    exact .same _ _
  | adjust => exact .same _ _
  | @make _ _ _ lp target hother =>
    have hnew : (if (s.task t).array = none then ((s.task t).makeShort lp).toTaskSched
        else (((s.task t).makeShort lp).woken s.jiffies).toTaskSched).taskClass = .short := by
      split
      · exact Task.taskClass_makeShort ht hother
      · rw [Task.taskClass_woken]
        exact Task.taskClass_makeShort ht hother
    rw [hnew, TaskSched.taskClass_other hother]
    exact .toShort target
  | @setPolicy _ _ _ lp policy' target hnot hnew _ _ =>
    have hclass : (if (s.task t).array = none then ((s.task t).setPolicy policy' lp).toTaskSched
        else (((s.task t).setPolicy policy' lp).woken s.jiffies).toTaskSched).taskClass =
          ((s.task t).setPolicy policy' lp).taskClass := by
      split
      · rfl
      · exact Task.taskClass_woken _ _
    rw [hclass]
    rcases TaskSched.taskClass_of_not_short hnot with hold | hold <;>
      rcases TaskSched.taskClass_of_not_short (p := ((s.task t).setPolicy policy' lp).toTaskSched)
        hnew with hnew' | hnew'
    · rw [hold, hnew']
      exact .same _ _
    · rw [hold, hnew']
      exact .toOther target
    · rw [hold, hnew']
      exact .toRt target
    · rw [hold, hnew']
      exact .same _ _
  | yield => exact .same _ _
  | forkSlice => exact .same _ _
  | forkExpired => exact .same _ _
  | forkTick hcurr hsome hslice =>
    -- the slice of an overdue parent is copied, so that it is not used up
    have hnot : ¬(s.task t).OverdueTask := by
      intro hover
      have hshort : ¬(s.task t).ShortTask := by
        intro hc
        have h0 := hc.2
        rw [hover.2] at h0
        exact absurd h0 one_ne_zero
      rw [Task.parentSlice, if_pos ⟨hover.1, hshort⟩] at hslice
      exact hsome hslice
    rcases Task.taskClass_afterTick { s.task t with timeSlice := 1, justGotForked := 0 } with
      hsame | ⟨hc, hnew⟩ | ⟨hc, -⟩
    · rw [hsame]
      exact .same _ _
    · have hshort : (s.task t).ShortTask := hc
      rw [hnew, TaskSched.taskClass_short hshort]
      exact .forkOverdue hcurr
    · exact absurd hc hnot
  | forkCopy cloneFlags env hc => exact absurd hc (hchild _ _ rfl)
  | forkChild => exact .same _ _
  | forkWoken => exact .same _ _
  | reap => exact .same _ _

/-- A tick does not change what is remembered of the past. -/
theorem Task.iWasShort_afterTick (u : Task) : u.afterTick.iWasShort = u.iWasShort := by
  rcases u.afterTick_cases with ⟨_, _, -, heq⟩ | ⟨-, -, heq⟩
  · rw [heq]
  · have htick : u.tick.iWasShort = u.iWasShort := by rw [Task.tick_sched]
    rw [heq, ← htick]
    show u.tick.expireClass.iWasShort = u.tick.iWasShort
    unfold Task.expireClass
    split
    · rfl
    split <;> rfl

/-- `iWasShort` is never lowered. -/
theorem SchedStep.iWasShort {p' : TaskSched} (h : SchedStep s t op p')
    (hchild : ∀ cloneFlags env, op = .doFork cloneFlags env → t ≠ env.child) :
    p'.iWasShort = (s.task t).iWasShort ∨ p'.iWasShort = 1 := by
  cases h with
  | same | adjust | yield | forkSlice | forkExpired | forkChild | forkWoken | reap => exact .inl rfl
  | woken =>
    left
    rw [Task.woken_sched]
  | tick => exact .inl (Task.iWasShort_afterTick _)
  | renice nice =>
    left
    unfold TaskSched.renice
    split
    · rfl
    split
    · rfl
    split
    · rfl
    split <;> rfl
  | make =>
    right
    split
    · rfl
    · rw [Task.woken_sched]
      rfl
  | setPolicy =>
    left
    split
    · rfl
    · rw [Task.woken_sched]
      rfl
  | forkTick => exact .inl (Task.iWasShort_afterTick _)
  | forkCopy cloneFlags env hc => exact absurd hc (hchild _ _ rfl)

/-! ## Runs -/

/-- The life cycle in the state `s`: every task keeps its invariant, and what the next step may
do to the classes. -/
structure LifeCycle (s : Sys) : Prop where
  inv : ∀ t, t ≠ s.rq.idle → LifeInv (s.task t).toTaskSched
  change : ∀ op s', Step s op s' → ∀ t, s.IsTask t → t ≠ s.rq.idle →
    ClassChange s t op (s.task t).taskClass (s'.task t).taskClass
  was_short : ∀ op s', Step s op s' → ∀ t, s.IsTask t → t ≠ s.rq.idle →
    (s.task t).iWasShort ≠ 0 → (s'.task t).iWasShort ≠ 0
  child : ∀ cloneFlags env s', Step s (.doFork cloneFlags env) s' → s'.forking ≠ none →
    (s'.task env.child).taskClass = s.current.taskClass

/-- A task that exists is not the structure that `do_fork` allocates. -/
theorem ne_child_of_isTask (hstep : Step s op s') (ht : s.IsTask t) :
    ∀ cloneFlags env, op = .doFork cloneFlags env → t ≠ env.child := by
  rintro cloneFlags env rfl rfl
  obtain ⟨⟨⟨hfork, -⟩, hfresh⟩, -⟩ := hstep
  rcases ht with hmem | ⟨f, hf, -⟩
  · exact hfresh.not_listed hmem
  · rw [hfork] at hf
    cases hf

/-- **Every step** leaves every task in its life cycle. -/
theorem lifeInv_step (h : ∀ t, t ≠ s.rq.idle → LifeInv (s.task t).toTaskSched)
    (hstep : Step s op s') : ∀ t, t ≠ s'.rq.idle → LifeInv (s'.task t).toTaskSched := by
  intro t ht
  rw [step_idle hstep] at ht
  refine (step_sched hstep t).lifeInv (h t ht) ?_
  -- only a task other than the idle task forks
  rintro ⟨cloneFlags, env, rfl⟩
  exact h _ hstep.1.1.2

/-- A child has the class that its parent has at the copy. -/
theorem copied_taskClass {cloneFlags : UInt32} {env : ForkEnv}
    (hstep : Step s (.doFork cloneFlags env) s') (hnew : s'.forking ≠ none) :
    (s'.task env.child).taskClass = s.current.taskClass := by
  obtain ⟨hen, hexec⟩ := hstep
  obtain rfl := Option.some.inj hexec
  rcases doFork_cases cloneFlags env s with ⟨-, hsame⟩ | ⟨-, hcopied⟩
  · rw [hsame] at hnew
    exact absurd hen.1.1 hnew
  · rw [hcopied, copied_child]
    rfl

/-- **Every run** from tasks like `INIT_TASK` keeps the life cycle. -/
theorem lifeCycle_of_run {ops : List Op} (hinit : ∀ t, t ≠ s.rq.idle → InitTask (s.task t))
    (hrun : Run Step s ops s') : LifeCycle s' := by
  have hinv : ∀ t, t ≠ s'.rq.idle → LifeInv (s'.task t).toTaskSched :=
    hrun.invariant (P := fun s => ∀ t, t ≠ s.rq.idle → LifeInv (s.task t).toTaskSched)
      (fun _ _ _ h hstep => lifeInv_step h hstep) fun t ht => (hinit t ht).lifeInv
  refine ⟨hinv, fun op s'' hstep t ht hidle => ?_, fun op s'' hstep t ht _ hne => ?_,
    fun cloneFlags env s'' hstep hnew => copied_taskClass hstep hnew⟩
  · exact (step_sched hstep t).classChange (hinv t hidle) (ne_child_of_isTask hstep ht)
  · rcases (step_sched hstep t).iWasShort (ne_child_of_isTask hstep ht) with hsame | hone
    · rwa [hsame]
    · rw [hone]
      exact one_ne_zero

omit [Param] in
/-- A task is made SHORT, forks, and turns overdue and OTHER again. -/
theorem lifeCycle_of_run_fork :
    let ts : List Task := [{ timeSlice := 15, pid := 1, array := some .arrays0 }]
    let ops : List Op := [.setscheduler 0 5 (.valid ⟨0, 20⟩), .doFork 0 ⟨2, 2, 0⟩, .doForkSplit,
      .doForkWake, .schedulerTick, .schedulerTick, .schedulerTick, .schedulerTick, .schedulerTick]
    ∃ s', @runOps hz100 ops (ofList ts 1) = some s' ∧ @LifeCycle hz100 s' := by
  intro ts ops
  have hruns : (@runOps hz100 ops (ofList ts 1)).isSome = true := by decide +kernel
  obtain ⟨s', hs'⟩ := Option.isSome_iff_exists.mp hruns
  have hrun := (@run_iff_runOps hz100 _ _ _).mpr hs'
  have hrange : UserRange 120 := by decide
  refine ⟨s', hs', @lifeCycle_of_run hz100 _ _ _ (fun t ht => ?_) hrun⟩
  rcases ofList_task ts 1 ht with hmem | hsleeps
  · rw [List.mem_singleton.mp hmem.1]
    exact ⟨rfl, hrange, rfl, rfl, rfl, rfl, rfl⟩
  · rw [hsleeps]
    exact ⟨rfl, hrange, rfl, rfl, rfl, rfl, rfl⟩

end ShortSched
