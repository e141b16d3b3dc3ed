import ShortSched.WakeTheorems

/-!
# What `scheduler_tick` changes

A tick never takes the fork branch of `enqueue_task`, so that its cases are few
(`TickCase`); all of them concern `current` only.
-/

namespace ShortSched

/-! ## Jiffies -/

theorem slice_pos {slice : UInt32} : 1 ≤ slice.toNat ↔ slice ≠ 0 := by
  rw [Nat.one_le_iff_ne_zero]
  exact not_congr (UInt32.toNat_inj (b := 0))

theorem slice_eq_one {slice : UInt32} : slice = 1 ↔ slice.toNat = 1 :=
  UInt32.toNat_inj.symm

/-- A slice that has a jiffy does not wrap around when it loses one. -/
theorem toNat_sub_one {slice : UInt32} (h : 1 ≤ slice.toNat) :
    (slice - 1).toNat = slice.toNat - 1 := by
  have hlt := slice.toNat_lt
  have hone : (1 : UInt32).toNat = 1 := rfl
  rw [UInt32.toNat_sub, hone]
  omega

variable [Param]

/-! ## A task under a tick -/

/-- A task that runs and is not in the expired array, after the tick. -/
def Task.afterTick (t : Task) : Task :=
  if t.RtTask then
    if t.policy = .rr then
      if t.timeSlice - 1 = 0 then { t with timeSlice := t.taskTimeslice, firstTimeSlice := 0 }
      else { t with timeSlice := t.timeSlice - 1 }
    else t
  else if t.tick.timeSlice = 0 then t.tick.expire else t.tick

omit [Param] in
@[simp] theorem Task.tick_timeSlice (t : Task) : t.tick.timeSlice = t.timeSlice - 1 := by
  rw [tick]
  split <;> rfl

omit [Param] in
/-- A tick takes one jiffy and changes no other scheduling field. -/
@[simp] theorem Task.tick_sched (t : Task) :
    t.tick.toTaskSched = { t.toTaskSched with timeSlice := t.timeSlice - 1 } := by
  rw [tick]
  split <;> rfl

omit [Param] in
theorem Task.tick_frame (t : Task) : t.tick.array = t.array ∧
    t.tick.justGotForked = t.justGotForked ∧ t.tick.pOpptr = t.pOpptr := by
  rw [tick]
  split <;> exact ⟨rfl, rfl, rfl⟩

theorem Task.expire_frame (t : Task) : t.expire.array = t.array ∧
    t.expire.justGotForked = t.justGotForked ∧ t.expire.pOpptr = t.pOpptr := by
  simp only [expire, expireClass]
  split
  · exact ⟨rfl, rfl, rfl⟩
  · split <;> exact ⟨rfl, rfl, rfl⟩

omit [Param] in
theorem sub_one_eq_zero {slice : UInt32} : slice - 1 = 0 ↔ slice = 1 := by
  rw [UInt32.sub_eq_iff_eq_add, UInt32.zero_add]

/-- A tick that leaves something of the slice. -/
theorem Task.afterTick_run {t : Task} (hrt : ¬t.RtTask) (hslice : t.timeSlice ≠ 1) :
    t.afterTick.toTaskSched = { t.toTaskSched with timeSlice := t.timeSlice - 1 } := by
  have hleft : t.tick.timeSlice ≠ 0 := by
    rw [tick_timeSlice]
    exact mt sub_one_eq_zero.mp hslice
  rw [afterTick, if_neg hrt, if_neg hleft, tick_sched]

/-- A tick that takes the last jiffy. -/
theorem Task.afterTick_last {t : Task} (hrt : ¬t.RtTask) (hslice : t.timeSlice = 1) :
    t.afterTick = t.tick.expire := by
  have hleft : t.tick.timeSlice = 0 := by
    rw [tick_timeSlice]
    exact sub_one_eq_zero.mpr hslice
  rw [afterTick, if_neg hrt, if_pos hleft]

/-- A tick changes nothing but the slice, or it uses up the slice of a task that is not
real-time. -/
theorem Task.afterTick_cases (u : Task) :
    (∃ timeSlice firstTimeSlice, (firstTimeSlice ≠ 0 → firstTimeSlice = u.firstTimeSlice) ∧
      u.afterTick.toTaskSched =
        { u.toTaskSched with timeSlice := timeSlice, firstTimeSlice := firstTimeSlice }) ∨
      ¬u.RtTask ∧ u.timeSlice = 1 ∧ u.afterTick = u.tick.expire := by
  by_cases hrt : u.RtTask
  · left
    rw [afterTick, if_pos hrt]
    split
    · split
      · exact ⟨_, 0, fun h => absurd rfl h, rfl⟩
      · exact ⟨_, _, fun _ => rfl, rfl⟩
    · exact ⟨_, _, fun _ => rfl, rfl⟩
  by_cases hslice : u.timeSlice = 1
  · exact .inr ⟨hrt, hslice, afterTick_last hrt hslice⟩
  · exact .inl ⟨_, _, fun _ => rfl, afterTick_run hrt hslice⟩

theorem Task.effectivePrio_of_overdue {t : Task} (h : t.OverdueTask) :
    t.effectivePrio = overduePrio := by
  have hshort : ¬t.ShortTask := fun hc => absurd (hc.2.symm.trans h.2) (by decide)
  rw [effectivePrio, if_neg hshort, if_pos h]

omit [Param] in
theorem Task.expireClass_short {t : Task} (h : t.ShortTask) : t.expireClass =
    { t with
      iAmOverdue := 1
      overdueStaticPrio := t.staticPrio
      staticPrio := overduePrio } := by
  have hover : ¬t.OverdueTask := fun hc => absurd (h.2.symm.trans hc.2) (by decide)
  rw [expireClass, if_neg hover, if_pos h]

omit [Param] in
theorem Task.expireClass_overdue {t : Task} (h : t.OverdueTask) : t.expireClass =
    { t with
      policy := .other
      iAmOverdue := 0
      staticPrio := t.overdueStaticPrio
      requestedTime := invalidRequestedTime } := if_pos h

theorem TaskSched.osTaskTimeslice_of_overdue {p : TaskSched} (h : p.OverdueTask) :
    p.osTaskTimeslice = (2 * p.requestedTime).toUInt32 := by
  have hshort : ¬p.ShortTask := fun hc => absurd (hc.2.symm.trans h.2) (by decide)
  rw [osTaskTimeslice, if_neg hshort, if_pos h]

theorem TaskSched.osTaskTimeslice_of_other {p : TaskSched} (h : p.OtherTask) :
    p.osTaskTimeslice = p.taskTimeslice := by
  have hshort : ¬p.ShortTask := fun hc => absurd (hc.1.symm.trans h) (by decide)
  have hover : ¬p.OverdueTask := fun hc => absurd (hc.1.symm.trans h) (by decide)
  rw [osTaskTimeslice, if_neg hshort, if_neg hover]

/-- The task with its new class, priority and `first_time_slice`, from which the new slice is
computed. -/
theorem Task.expire_sched {t : Task} {p : TaskSched} (hp : { t.expireClass.toTaskSched with
      prio := t.expireClass.effectivePrio
      firstTimeSlice := 0 } = p) :
    t.expire.toTaskSched = { p with timeSlice := p.osTaskTimeslice } := by
  subst hp
  rfl

/-- A SHORT task that has used up its slice is overdue, with a slice of twice its request. -/
theorem Task.expire_short {t : Task} (h : t.ShortTask) : t.expire.toTaskSched =
    { t.toTaskSched with
      iAmOverdue := 1
      overdueStaticPrio := t.staticPrio
      staticPrio := overduePrio
      prio := overduePrio
      firstTimeSlice := 0
      timeSlice := (2 * t.requestedTime).toUInt32 } := by
  have hclass := expireClass_short h
  have hnew : t.expireClass.OverdueTask := by
    rw [hclass]
    exact ⟨h.1, rfl⟩
  let p : TaskSched := { t.toTaskSched with
    iAmOverdue := 1
    overdueStaticPrio := t.staticPrio
    staticPrio := overduePrio
    prio := overduePrio
    firstTimeSlice := 0 }
  have hp : { t.expireClass.toTaskSched with
      prio := t.expireClass.effectivePrio
      firstTimeSlice := 0 } = p := by
    rw [effectivePrio_of_overdue hnew, hclass]
  have hover : p.OverdueTask := ⟨h.1, rfl⟩
  rw [expire_sched hp, TaskSched.osTaskTimeslice_of_overdue hover]

/-- The tick that makes a SHORT task overdue. -/
theorem Task.afterTick_last_short {t : Task} (hrt : ¬t.RtTask) (h : t.ShortTask)
    (hslice : t.timeSlice = 1) : t.afterTick.toTaskSched =
      { t.toTaskSched with
        iAmOverdue := 1
        overdueStaticPrio := t.staticPrio
        staticPrio := overduePrio
        prio := overduePrio
        firstTimeSlice := 0
        timeSlice := (2 * t.requestedTime).toUInt32 } := by
  have h' : t.tick.ShortTask := by rwa [tick_sched]
  rw [afterTick_last hrt hslice, expire_short h', tick_sched]

/-- An overdue task that has used up its slice is an OTHER task again, with its own static
priority. -/
theorem Task.expire_overdue {t : Task} (h : t.OverdueTask) :
    t.expire.OtherTask ∧ t.expire.iAmOverdue = 0 ∧ t.expire.staticPrio = t.overdueStaticPrio ∧
      t.expire.requestedTime = invalidRequestedTime ∧
      t.expire.timeSlice = t.expire.taskTimeslice := by
  have hnew := expire_sched (t := t) rfl
  rw [expireClass_overdue h] at hnew
  have hother : t.expire.OtherTask := by rw [hnew]
  refine ⟨hother, by rw [hnew], by rw [hnew], by rw [hnew], ?_⟩
  rw [← TaskSched.osTaskTimeslice_of_other hother, hnew]
  rfl

/-- No task is a plain SHORT task after its slice is used up: the fork branch of
`enqueue_task`, which asks for a SHORT current that queues a task not overdue, is closed to it. -/
theorem Task.iAmOverdue_expire {t : Task} (h : t.expire.policy = .short) :
    t.expire.iAmOverdue ≠ 0 := by
  revert h
  simp only [expire, expireClass]
  by_cases hover : t.OverdueTask
  · rw [if_pos hover]
    exact nofun
  · rw [if_neg hover]
    by_cases hshort : t.ShortTask
    · rw [if_pos hshort]
      exact fun _ => one_ne_zero
    · rw [if_neg hshort]
      exact fun h h0 => hshort ⟨h, h0⟩

/-- A task that is SHORT after a tick was SHORT before, with the same priorities. -/
theorem Task.afterTick_short {u : Task} (h : u.afterTick.ShortTask) :
    u.ShortTask ∧ u.afterTick.prio = u.prio ∧ u.afterTick.staticPrio = u.staticPrio := by
  rcases u.afterTick_cases with ⟨_, _, -, heq⟩ | ⟨-, -, heq⟩
  · rw [heq] at h ⊢
    exact ⟨h, rfl, rfl⟩
  · -- a slice that is used up ends the class
    rw [heq] at h
    exact absurd h.2 (Task.iAmOverdue_expire h.1)

namespace Sys

variable {s s' : Sys} {p t : TaskId}

/-! ## `scheduler_tick` -/

/-- `scheduler_tick` up to the choice of the array, for a slice that is used up. -/
def expireBegin (p : TaskId) (s : Sys) : Sys :=
  ((s.dequeueTask p (pointerToMyActivePrioArray (s.task p).toTaskSched s.rq.toRqPtrs)
    ).setTskNeedResched p).modify p Task.expire

/-- An OTHER task that has used up its slice goes to the expired array. -/
abbrev ToExpired (p : TaskId) (s : Sys) : Prop :=
  (s.task p).OtherTask ∧ (¬(s.task p).TaskInteractive ∨ s.ExpiredStarving)

/-- The first expired task starts the clock of `EXPIRED_STARVING`. -/
def stampExpired (s : Sys) : Sys :=
  if s.rq.expiredTimestamp = 0 then s.modifyRq fun rq => { rq with expiredTimestamp := s.jiffies }
  else s

theorem expireBegin_task (p : TaskId) (s : Sys) : (s.expireBegin p).task =
    Function.update s.task p (Task.expire { s.task p with needResched := 1 }) := by
  simp [expireBegin, setTskNeedResched]

theorem expire_needResched (t : Task) (n : ℤ) :
    (Task.expire { t with needResched := n }).toTaskSched = t.expire.toTaskSched := by
  simp only [Task.expire, Task.expireClass]
  split
  · rfl
  · split <;> rfl

/-- A tick never takes the fork branch. -/
theorem tickExpire_eq (hcurr : s.rq.curr = p) : s.tickExpire p =
    if (s.expireBegin p).ToExpired p then
      (s.expireBegin p).stampExpired.enqueueTail p s.rq.expired
    else (s.expireBegin p).enqueueTail p
      (pointerToMyActivePrioArray ((s.expireBegin p).task p).toTaskSched s.rq.toRqPtrs) := by
  have hptrs : (s.expireBegin p).rq.toRqPtrs = s.rq.toRqPtrs := dequeueTask_ptrs _ _ _
  have hcurr' : (s.expireBegin p).rq.curr = p := by rw [hptrs, hcurr]
  have htask : (s.expireBegin p).task p = Task.expire { s.task p with needResched := 1 } := by
    rw [expireBegin_task, Function.update_self]
  have hbranch : ¬(s.expireBegin p).ForkBranch p := by
    rintro ⟨hpolicy, -, hover, -⟩
    rw [current, hcurr', htask] at hpolicy
    rw [htask] at hover
    exact Task.iAmOverdue_expire hpolicy hover
  have hstamp : SameForks (s.expireBegin p) (s.expireBegin p).stampExpired := by
    unfold stampExpired
    split <;> exact .of_task rfl rfl rfl
  have hrq : (s.expireBegin p).stampExpired.rq.expired = s.rq.expired := by
    rw [← hptrs]
    unfold stampExpired
    split <;> rfl
  have heq : s.tickExpire p = if (s.expireBegin p).ToExpired p then
      (s.expireBegin p).stampExpired.enqueueTask p (s.expireBegin p).stampExpired.rq.expired
    else (s.expireBegin p).enqueueTask p (pointerToMyActivePrioArray
      ((s.expireBegin p).task p).toTaskSched (s.expireBegin p).rq.toRqPtrs) := rfl
  have hptr : pointerToMyActivePrioArray ((s.expireBegin p).task p).toTaskSched
      (s.expireBegin p).rq.toRqPtrs
      = pointerToMyActivePrioArray ((s.expireBegin p).task p).toTaskSched s.rq.toRqPtrs := by
    rw [hptrs]
  rw [heq, hrq, hptr, enqueueTask_of_not_forkBranch hbranch,
    enqueueTask_of_not_forkBranch (fun h => hbranch (hstamp.forkBranch_iff.mp h))]

/-- A round-robin task that has used up its slice, with a new one. -/
def rrRefill (p : TaskId) (s : Sys) : Sys :=
  (s.modify p fun t => { t with timeSlice := t.taskTimeslice, firstTimeSlice := 0 }
    ).setTskNeedResched p

/-- The state in which a tick that uses up the slice of `current` queues it again. -/
def expireState (s : Sys) : Sys := (s.modify s.rq.curr Task.tick).expireBegin s.rq.curr

/-- The tick is charged to `current`. -/
abbrev Charged (s : Sys) : Prop :=
  s.rq.curr ≠ s.rq.idle ∧ s.current.array ≠ some s.rq.expired

/-- What a tick does, case by case. -/
inductive TickCase (s : Sys) : Sys → Prop
  | idle (h : s.rq.curr = s.rq.idle) : TickCase s s
  | expired (hidle : s.rq.curr ≠ s.rq.idle) (h : s.current.array = some s.rq.expired) :
      TickCase s (s.setTskNeedResched s.rq.curr)
  | fifo (h : s.Charged) (hrt : s.current.RtTask) (hpolicy : s.current.policy ≠ .rr) :
      TickCase s s
  | rr (h : s.Charged) (hrt : s.current.RtTask) (hpolicy : s.current.policy = .rr)
      (hslice : s.current.timeSlice - 1 ≠ 0) :
      TickCase s (s.modify s.rq.curr fun t => { t with timeSlice := t.timeSlice - 1 })
  | rrRefill (h : s.Charged) (hrt : s.current.RtTask) (hpolicy : s.current.policy = .rr)
      (hslice : s.current.timeSlice - 1 = 0) :
      TickCase s (((s.rrRefill s.rq.curr).dequeueTask s.rq.curr s.rq.rtShort).enqueueTail
        s.rq.curr s.rq.rtShort)
  | run (h : s.Charged) (hrt : ¬s.current.RtTask) (hslice : s.current.timeSlice - 1 ≠ 0) :
      TickCase s (s.modify s.rq.curr Task.tick)
  | toExpired (h : s.Charged) (hrt : ¬s.current.RtTask) (hslice : s.current.timeSlice - 1 = 0)
      (hto : s.expireState.ToExpired s.rq.curr) :
      TickCase s (s.expireState.stampExpired.enqueueTail s.rq.curr s.rq.expired)
  | requeue (h : s.Charged) (hrt : ¬s.current.RtTask) (hslice : s.current.timeSlice - 1 = 0)
      (hto : ¬s.expireState.ToExpired s.rq.curr) :
      TickCase s (s.expireState.enqueueTail s.rq.curr
        (pointerToMyActivePrioArray (s.expireState.task s.rq.curr).toTaskSched s.rq.toRqPtrs))

omit [Param] in
theorem pointer_of_rtTask {p : TaskSched} (q : RqPtrs) (h : p.RtTask) :
    pointerToMyActivePrioArray p q = q.rtShort := if_pos (.inr h)

omit [Param] in
theorem pointer_of_shortTask {p : TaskSched} (q : RqPtrs) (h : p.ShortTask) :
    pointerToMyActivePrioArray p q = q.rtShort := if_pos (.inl h)

omit [Param] in
theorem pointer_of_overdueTask {p : TaskSched} (q : RqPtrs) (h : p.OverdueTask) (hrt : ¬p.RtTask) :
    pointerToMyActivePrioArray p q = q.overdue := by
  have hnot : ¬(p.ShortTask ∨ p.RtTask) := by
    rintro (hc | hc)
    · exact absurd (hc.2.symm.trans h.2) (by decide)
    · exact hrt hc
  rw [pointerToMyActivePrioArray, if_neg hnot, if_pos h]

/-- A tick of a real-time task: an RR task with no time left goes to the end of its queue. -/
theorem tickRt_cases (h : s.Charged) (hrt : s.current.RtTask) : TickCase s (s.tickRt s.rq.curr) := by
  unfold tickRt
  by_cases hpolicy : s.current.policy = .rr
  · by_cases hslice : s.current.timeSlice - 1 = 0
    · -- the two updates of the task are one
      have hrefill : ((s.modify s.rq.curr fun t => { t with timeSlice := t.timeSlice - 1 }).modify
          s.rq.curr fun t => { t with timeSlice := t.taskTimeslice, firstTimeSlice := 0 }
          ).setTskNeedResched s.rq.curr = s.rrRefill s.rq.curr := by
        simp [rrRefill, setTskNeedResched, modify, TaskSched.taskTimeslice]
      simp only [if_pos hpolicy, modify_task, Function.update_self, if_pos hslice, hrefill]
      have htask : (s.rrRefill s.rq.curr).task s.rq.curr = { s.current with
          timeSlice := s.current.taskTimeslice
          firstTimeSlice := 0
          needResched := 1 } := by
        simp [rrRefill, setTskNeedResched]
      have hptr : ∀ q, pointerToMyActivePrioArray
          ((s.rrRefill s.rq.curr).task s.rq.curr).toTaskSched q = q.rtShort := by
        intro q
        rw [htask]
        exact pointer_of_rtTask q hrt
      simp only [dequeueTask_task, hptr, dequeueTask_ptrs]
      rw [enqueueTask_of_not_forkBranch]
      · exact .rrRefill h hrt hpolicy hslice
      · rintro ⟨hshort, -⟩
        rw [current, dequeueTask_ptrs, dequeueTask_task] at hshort
        rw [show (s.rrRefill s.rq.curr).rq.curr = s.rq.curr from rfl, htask] at hshort
        simp [hpolicy] at hshort
    · have hif : (s.task s.rq.curr).timeSlice - 1 ≠ 0 := hslice
      simp only [if_pos hpolicy, modify_task, Function.update_self, if_neg hif]
      exact .rr h hrt hpolicy hslice
  · rw [if_neg hpolicy]
    exact .fifo h hrt hpolicy

/-- A tick never takes the fork branch, so that these are all its cases. -/
theorem schedulerTick_cases (s : Sys) : TickCase s s.schedulerTick := by
  unfold schedulerTick
  have hslice : ((s.modify s.rq.curr Task.tick).task s.rq.curr).timeSlice
      = s.current.timeSlice - 1 := by simp
  simp only [hslice]
  by_cases hidle : s.rq.curr = s.rq.idle
  · rw [if_pos hidle]
    exact .idle hidle
  by_cases harray : s.current.array = some s.rq.expired
  · rw [if_neg hidle, if_pos harray]
    exact .expired hidle harray
  by_cases hrt : s.current.RtTask
  · rw [if_neg hidle, if_neg harray, if_pos hrt]
    exact tickRt_cases ⟨hidle, harray⟩ hrt
  by_cases hts : s.current.timeSlice - 1 = 0
  · rw [if_neg hidle, if_neg harray, if_neg hrt, if_pos hts,
      tickExpire_eq (s := s.modify s.rq.curr Task.tick) (p := s.rq.curr) rfl]
    split
    · next hto => exact .toExpired ⟨hidle, harray⟩ hrt hts hto
    · next hto => exact .requeue ⟨hidle, harray⟩ hrt hts hto
  · rw [if_neg hidle, if_neg harray, if_neg hrt, if_neg hts]
    exact .run ⟨hidle, harray⟩ hrt hts

theorem expireState_task (s : Sys) : s.expireState.task =
    Function.update s.task s.rq.curr (Task.expire { s.current.tick with needResched := 1 }) := by
  rw [expireState, expireBegin_task]
  simp

theorem expireState_sched (s : Sys) :
    (s.expireState.task s.rq.curr).toTaskSched = s.current.tick.expire.toTaskSched := by
  rw [expireState_task, Function.update_self]
  exact expire_needResched _ 1

omit [Param] in
theorem stampExpired_task (s : Sys) : s.stampExpired.task = s.task := by
  unfold stampExpired
  split <;> rfl

/-- A tick concerns `current` only. -/
theorem schedulerTick_task_of_ne (h : t ≠ s.rq.curr) : s.schedulerTick.task t = s.task t := by
  have hcase := s.schedulerTick_cases
  generalize s.schedulerTick = s' at hcase ⊢
  cases hcase with
  | idle | fifo => rfl
  | expired | rr | run => exact Function.update_of_ne h _ _
  | rrRefill => simp [rrRefill, setTskNeedResched, h]
  | toExpired => simp [stampExpired_task, expireState_task, h]
  | requeue => simp [expireState_task, h]

/-- **`scheduler_tick`** takes a charged `current` through `afterTick`. -/
theorem schedulerTick_sched (s : Sys) (t : TaskId) : (s.schedulerTick.task t).toTaskSched =
    if t = s.rq.curr ∧ s.Charged then s.current.afterTick.toTaskSched
    else (s.task t).toTaskSched := by
  by_cases ht : t = s.rq.curr
  · subst ht
    have hcase := s.schedulerTick_cases
    generalize s.schedulerTick = s' at hcase ⊢
    cases hcase with
    | idle h => rw [if_neg fun hc => hc.2.1 h]
    | expired _ h =>
      rw [if_neg fun hc => hc.2.2 h]
      exact modify_proj Task.toTaskSched rfl _
    | fifo h hrt hpolicy => rw [if_pos ⟨rfl, h⟩, Task.afterTick, if_pos hrt, if_neg hpolicy]
    | rr h hrt hpolicy hslice =>
      rw [if_pos ⟨rfl, h⟩, Task.afterTick, if_pos hrt, if_pos hpolicy, if_neg hslice]
      simp
    | rrRefill h hrt hpolicy hslice =>
      rw [if_pos ⟨rfl, h⟩, Task.afterTick, if_pos hrt, if_pos hpolicy, if_pos hslice]
      simp [rrRefill, setTskNeedResched]
    | run h hrt hslice =>
      rw [if_pos ⟨rfl, h⟩, Task.afterTick, if_neg hrt, Task.tick_timeSlice, if_neg hslice]
      simp
    | toExpired h hrt hslice hto =>
      rw [if_pos ⟨rfl, h⟩, Task.afterTick, if_neg hrt, Task.tick_timeSlice, if_pos hslice]
      rw [enqueueTail_task, Function.update_self, stampExpired_task, expireState_task,
        Function.update_self]
      exact expire_needResched _ 1
    | requeue h hrt hslice hto =>
      rw [if_pos ⟨rfl, h⟩, Task.afterTick, if_neg hrt, Task.tick_timeSlice, if_pos hslice]
      rw [enqueueTail_task, Function.update_self, expireState_task, Function.update_self]
      exact expire_needResched _ 1
  · rw [if_neg fun hc => ht hc.1, schedulerTick_task_of_ne ht]

/-- A tick changes neither flags nor parents. -/
theorem schedulerTick_frame (s : Sys) (t : TaskId) :
    (s.schedulerTick.task t).justGotForked = (s.task t).justGotForked ∧
      (s.schedulerTick.task t).pOpptr = (s.task t).pOpptr := by
  by_cases ht : t = s.rq.curr
  · subst ht
    have hcase := s.schedulerTick_cases
    generalize s.schedulerTick = s' at hcase ⊢
    cases hcase with
    | idle | fifo => exact ⟨rfl, rfl⟩
    | expired | rr => simp [setTskNeedResched]
    | rrRefill => simp [rrRefill, setTskNeedResched]
    | run => simp [Task.tick_frame]
    | toExpired => simp [stampExpired_task, expireState_task, Task.expire_frame, Task.tick_frame]
    | requeue => simp [expireState_task, Task.expire_frame, Task.tick_frame]
  · rw [schedulerTick_task_of_ne ht]
    exact ⟨rfl, rfl⟩

/-- A tick does not switch tasks or arrays. -/
theorem samePtrs_schedulerTick (s : Sys) : SamePtrs s.rq.toRqPtrs s.schedulerTick.rq.toRqPtrs := by
  have hexpire : s.expireState.rq.toRqPtrs = s.rq.toRqPtrs := dequeueTask_ptrs _ _ _
  have hcase := s.schedulerTick_cases
  generalize s.schedulerTick = s' at hcase ⊢
  cases hcase with
  | idle | fifo | expired | rr | run => exact .refl _
  | rrRefill => exact .of_eq (by rw [enqueueTail_ptrs, dequeueTask_ptrs]; rfl)
  | toExpired =>
    rw [enqueueTail_ptrs]
    refine .trans (.of_eq hexpire) ?_
    unfold stampExpired
    split <;> exact ⟨rfl, rfl, rfl, rfl, rfl, rfl⟩
  | requeue => exact .of_eq (by rw [enqueueTail_ptrs, hexpire])
end Sys
end ShortSched
