import ShortSched.ForkReap

/-!
# No task is without a time slice

Six places of the code write a time slice in wrapping arithmetic. All but two of them write a
value other than 0 whatever the old value is; the child of a parent with the greatest slice
there is, and the sum that `sched_exit` forms, may wrap around to 0.
-/

namespace ShortSched

open General Sys

/-! ## The values that are written -/

section values

variable [Param]

/-- A task with a time slice and, if it is SHORT, with a request whose double is not 0. -/
structure SliceOk (p : TaskSched) : Prop where
  ok : TaskOk p
  slice : p.timeSlice ≠ 0
  request : p.policy = .short → 2 * p.requestedTime ≠ 0

/-- `TASK_TIMESLICE` is at least `MIN_TIMESLICE`. -/
theorem TaskSched.taskTimeslice_ne_zero {p : TaskSched} (h : UserRange p.staticPrio) :
    p.taskTimeslice ≠ 0 := by
  have hge := hz_ge
  have hle := hz_le
  have hmin : 1 ≤ minTimeslice ∧ minTimeslice ≤ 10 := by
    unfold minTimeslice
    omega
  have hmax := maxTimeslice_range
  obtain ⟨hlow, hhigh⟩ := h
  simp only [maxRtPrio, maxUserRtPrio, maxPrio] at hlow hhigh
  -- the share of the static priority lies between 0 and the range of the slices
  set range := maxTimeslice - minTimeslice with hrange
  set rank := maxPrio - 1 - p.staticPrio with hrank
  have hrank' : 0 ≤ rank ∧ rank ≤ 39 := by
    simp only [hrank, maxPrio, maxRtPrio, maxUserRtPrio]
    omega
  have hnonneg : 0 ≤ range * rank := Int.mul_nonneg (by omega) hrank'.1
  have hle' : range * rank ≤ 300 * 39 := Int.mul_le_mul (by omega) hrank'.2 hrank'.1 (by omega)
  have hval : (p.taskTimeslice.toNat : ℤ) = minTimeslice + (range * rank).tdiv 39 := by
    rw [Int.tdiv_eq_ediv_of_nonneg hnonneg]
    have hnat := toNat_ofInt (x := minTimeslice + range * rank / 39) (by omega) (by omega)
    rw [← hnat, TaskSched.taskTimeslice, Int.tdiv_eq_ediv_of_nonneg hnonneg]
  rw [Int.tdiv_eq_ediv_of_nonneg hnonneg] at hval
  intro hzero
  rw [hzero] at hval
  have hzero' : ((0 : UInt32).toNat : ℤ) = 0 := rfl
  omega

omit [Param] in
theorem toUInt32_ne_zero {x : Int32} (h : x ≠ 0) : x.toUInt32 ≠ 0 := fun hc =>
  h (congrArg UInt32.toInt32 hc)

/-- No refill is empty. -/
theorem TaskSched.osTaskTimeslice_ne_zero {p : TaskSched} (h : UserRange p.staticPrio)
    (hrequest : p.policy = .short → 2 * p.requestedTime ≠ 0) : p.osTaskTimeslice ≠ 0 := by
  unfold osTaskTimeslice
  split
  · next hshort =>
    refine toUInt32_ne_zero fun hc => hrequest hshort.1 ?_
    rw [hc]
    rfl
  split
  · next hover => exact toUInt32_ne_zero (hrequest hover.1)
  · exact taskTimeslice_ne_zero h

namespace SliceOk

variable {u : Task}

/-- A task that has used up its slice gets another one. -/
theorem expire (hok : TaskOk u.toTaskSched) (hrt : ¬u.RtTask)
    (hrequest : u.policy = .short → 2 * u.requestedTime ≠ 0) : SliceOk u.expire.toTaskSched := by
  have hok' := hok.expire hrt
  have hrequest' : u.expire.policy = .short → 2 * u.expire.requestedTime ≠ 0 := by
    show u.expireClass.policy = .short → 2 * u.expireClass.requestedTime ≠ 0
    unfold Task.expireClass
    split
    · exact nofun
    split
    · exact hrequest
    · exact hrequest
  refine ⟨hok', ?_, hrequest'⟩
  -- the slice is computed from the fields already updated
  have hslice : u.expire.timeSlice = u.expire.osTaskTimeslice := by
    have hnew := Task.expire_sched (t := u) rfl
    rw [hnew]
    rfl
  rw [hslice]
  exact TaskSched.osTaskTimeslice_ne_zero hok'.static_prio hrequest'

/-- A tick leaves a jiffy, or a new slice. -/
theorem afterTick (h : SliceOk u.toTaskSched) : SliceOk u.afterTick.toTaskSched := by
  have hok := h.ok.afterTick
  by_cases hrt : u.RtTask
  · unfold Task.afterTick at hok ⊢
    rw [if_pos hrt] at hok ⊢
    split
    · next hrr =>
      rw [if_pos hrr] at hok
      split
      · next hzero =>
        rw [if_pos hzero] at hok
        exact ⟨hok, TaskSched.taskTimeslice_ne_zero h.ok.static_prio, h.request⟩
      · next hleft =>
        rw [if_neg hleft] at hok
        exact ⟨hok, hleft, h.request⟩
    · exact h
  · by_cases hone : u.timeSlice = 1
    · rw [Task.afterTick_last hrt hone]
      refine expire h.ok.tick ?_ ?_
      · rwa [Task.tick_sched]
      · rw [Task.tick_sched]
        exact h.request
    · have hrun := Task.afterTick_run hrt hone
      rw [hrun] at hok ⊢
      exact ⟨hok, mt sub_one_eq_zero.mp hone, h.request⟩

/-- Whatever the conversion gives is far from the ends of an `int`. -/
theorem double_request {lp : SchedParam} (h : changeMsToJiffis lp.requestedTime ≠ 0) :
    2 * changeMsToJiffis lp.requestedTime ≠ 0 := by
  have hval := changeMsToJiffis_toInt lp.requestedTime
  have hbmod := Int.le_bmod (x := lp.requestedTime.toInt * hz) (m := 2 ^ 32) (by decide)
  have hbmod' := Int.bmod_lt (x := lp.requestedTime.toInt * hz) (m := 2 ^ 32) (by decide)
  have htwo : (2 : Int32).toInt = 2 := by decide
  have hzero : (0 : Int32).toInt = 0 := by decide
  rw [ne_eq, ← Int32.toInt_inj, hzero] at h
  rw [ne_eq, ← Int32.toInt_inj, Int32.toInt_mul, htwo, hzero, Int.bmod_eq_emod]
  generalize (lp.requestedTime.toInt * hz).bmod (2 ^ 32) = x at hval hbmod hbmod'
  have hsmall : -2147484 ≤ x.tdiv 1000 ∧ x.tdiv 1000 ≤ 2147484 := by
    rcases Int.le_total 0 x with hpos | hneg
    · rw [Int.tdiv_eq_ediv_of_nonneg hpos]
      omega
    · have hflip : x.tdiv 1000 = -(-x / 1000) := by
        rw [← Int.tdiv_eq_ediv_of_nonneg (by omega), Int.neg_tdiv, neg_neg]
      omega
  rw [← hval] at hsmall
  split <;> omega

/-- A SHORT task that asks for more than it has used has a slice. -/
theorem adjustShort {lp : SchedParam} (h : SliceOk u.toTaskSched)
    (hgt : (changeMsToJiffis lp.requestedTime).toUInt32 > u.requestedTime.toUInt32 - u.timeSlice) :
    SliceOk (u.adjustShort lp).toTaskSched := by
  refine ⟨h.ok.adjustShort lp, fun hc => ?_, fun _ => double_request fun hc => ?_⟩
  · -- the new slice is the difference of two numbers that differ
    have hsum : u.timeSlice + ((changeMsToJiffis lp.requestedTime).toUInt32 -
        u.requestedTime.toUInt32) = 0 := hc
    have heq : (changeMsToJiffis lp.requestedTime).toUInt32 =
        u.requestedTime.toUInt32 - u.timeSlice := by
      grind
    rw [heq] at hgt
    exact absurd hgt (UInt32.lt_irrefl _)
  · rw [hc] at hgt
    exact absurd hgt (UInt32.not_lt_zero)

/-- A request of a jiffy or more is a slice. -/
theorem makeShort {lp : SchedParam} (h : SliceOk u.toTaskSched) (hother : u.policy = .other)
    (hge : minRequestedTime ≤ changeMsToJiffis lp.requestedTime) :
    SliceOk (u.makeShort lp).toTaskSched := by
  have hne : changeMsToJiffis lp.requestedTime ≠ 0 := by
    intro hc
    rw [hc] at hge
    exact absurd hge (by decide)
  exact ⟨h.ok.makeShort hother lp, toUInt32_ne_zero hne, fun _ => double_request hne⟩

omit [Param] in
/-- A slice is a matter of the time of the task. -/
theorem congr {p p' : TaskSched} (h : SliceOk p) (hok : TaskOk p') (hsame : SameTime p p') :
    SliceOk p' := by
  refine ⟨hok, ?_, ?_⟩
  · rw [hsame.timeSlice]
    exact h.slice
  · rw [hsame.policy, hsame.requestedTime]
    exact h.request

end SliceOk

end values

/-! ## The two sums that wrap around -/

/-- The steps that write a slice of 0: a fork by a parent, not SHORT, with the greatest slice
there is, and the reaping of a child whose slice is the complement of the parent's. -/
def WrapsSlice (s : Sys) : Op → Prop
  | .doForkSplit => s.current.policy ≠ .short ∧ s.current.timeSlice + 1 = 0
  | .schedExit p =>
    (s.task p).firstTimeSlice ≠ 0 ∧ s.current.timeSlice + (s.task p).timeSlice = 0
  | _ => False

instance (s : Sys) : DecidablePred (WrapsSlice s)
  | .doForkSplit => inferInstanceAs (Decidable (_ ∧ _))
  | .schedExit _ => inferInstanceAs (Decidable (_ ∧ _))
  | .tryToWakeUp _ _ | .schedule | .schedulerTick | .setUserNice _ _ | .setscheduler _ _ _
  | .sysSchedYield | .doFork _ _ | .doForkWake | .vforkReturn | .doExit _ | .setCurrentState _
  | .setSigpending _ _ | .setJiffies _ => inferInstanceAs (Decidable False)

variable [Param] {s s' : Sys} {op : Op} {t : TaskId}

omit [Param] in
/-- The child of a parent with a slice has one unless the sum wraps. -/
theorem childSlice_ne_zero {u p : Task} (hslice : u.timeSlice ≠ 0) (hcopy : p.timeSlice ≠ 0)
    (hclean : u.policy = .short ∨ u.timeSlice + 1 ≠ 0) : u.childSlice p ≠ 0 := by
  have hlt := u.timeSlice.toNat_lt
  have hpos := slice_pos.mpr hslice
  by_cases hshort : u.ShortTask
  · have hhalf := Task.toNat_childSlice_short (p := p) hshort
    intro hc
    rw [hc] at hhalf
    have hzero : 0 = u.timeSlice.toNat - u.timeSlice.toNat / 2 := hhalf
    omega
  by_cases hpolicy : u.policy = .short
  · rw [Task.childSlice, if_pos hpolicy, if_neg hshort]
    exact hcopy
  · have hhalf := Task.toNat_childSlice_other (p := p) hpolicy
    have hwrap : (u.timeSlice.toNat + 1) % 2 ^ 32 ≠ 0 := by
      have hne := hclean.resolve_left hpolicy
      rw [ne_eq, ← UInt32.toNat_inj, UInt32.toNat_add] at hne
      exact hne
    intro hc
    rw [hc] at hhalf
    have hzero : 0 = (u.timeSlice.toNat + 1) % 2 ^ 32 / 2 := hhalf
    omega

/-- The parent of a reaped child has a slice unless the sum wraps. -/
theorem reapSlice_ne_zero {p u : Task} (hslice : u.timeSlice ≠ 0)
    (hclean : p.firstTimeSlice = 0 ∨ u.timeSlice + p.timeSlice ≠ 0) : p.reapSlice u ≠ 0 := by
  have hmax := toNat_maxTimeslice
  have hrange := maxTimeslice_range
  unfold Task.reapSlice
  split
  · next hfirst =>
    split
    · intro hc
      rw [hc] at hmax
      have hzero : (0 : ℤ) = maxTimeslice := hmax
      omega
    · exact hclean.resolve_left hfirst
  · exact hslice

/-! ## Runs -/

/-- Every task has a time slice, also the idle task, whose slice nothing uses. -/
structure SlicesOk (s : Sys) : Prop where
  idle : (s.task s.rq.idle).timeSlice ≠ 0
  tasks : ∀ t, t ≠ s.rq.idle → SliceOk (s.task t).toTaskSched

/-- Nothing happens to the idle task's slice. -/
theorem idle_timeSlice (hstep : Step s op s') :
    (s'.task s.rq.idle).timeSlice = (s.task s.rq.idle).timeSlice := by
  have htime := step_time hstep s.rq.idle
  show (s'.task s.rq.idle).toTaskSched.timeSlice = _
  generalize (s'.task s.rq.idle).toTaskSched = p' at htime ⊢
  cases htime with
  | same _ hsame => exact hsame.timeSlice
  | tick hcurr hcharged => exact absurd hcurr.symm hcharged.1
  | adjust target | make target | setPolicy target => exact absurd target.found hstep.1.2
  | forkCopy _ hchild => exact absurd hchild.symm hstep.1.2.ne_idle
  | forkSlice hcurr | forkExpired hcurr | forkTick hcurr => exact absurd hcurr.symm hstep.1.1
  | forkChild hf hchild =>
    obtain ⟨f', hf', -, -, hcopy, -⟩ := doForkSplit_step hstep
    obtain rfl := Option.some.inj (hf.symm.trans hf')
    exact absurd hchild.symm hcopy.ne_idle
  | reap hcurr => exact absurd hcurr.symm hstep.1.1.2

/-- **A step** that does not wrap leaves every task with a slice. -/
theorem SlicesOk.step (h : SlicesOk s) (hstep : Step s op s') (hclean : ¬WrapsSlice s op) :
    SlicesOk s' := by
  have hidle := step_idle hstep
  refine ⟨by rw [hidle, idle_timeSlice hstep]; exact h.idle, fun t ht => ?_⟩
  rw [hidle] at ht
  have hslice := h.tasks t ht
  have hok : TaskOk (s'.task t).toTaskSched := by
    refine (step_sched hstep t).taskOk hslice.ok fun cloneFlags env hfork _ => ?_
    subst hfork
    exact (h.tasks _ hstep.1.1.2).ok
  have hone : (1 : UInt32) ≠ 0 := by decide
  have htime := step_time hstep t
  generalize (s'.task t).toTaskSched = p' at htime hok ⊢
  cases htime with
  | same _ hsame => exact hslice.congr hok hsame
  | tick => exact hslice.afterTick
  | adjust _ _ hgt => exact hslice.adjustShort hgt
  | make _ hother _ hge hsame => exact (hslice.makeShort hother hge).congr hok hsame
  | setPolicy _ hnot hnew hsame =>
    refine ⟨hok, ?_, fun hc => absurd (hsame.policy.symm.trans hc) hnew⟩
    rw [hsame.timeSlice]
    exact hslice.slice
  | forkCopy => exact ⟨hok, (h.tasks _ hstep.1.1.2).slice, (h.tasks _ hstep.1.1.2).request⟩
  | forkSlice _ _ hparent => exact ⟨hok, hparent, hslice.request⟩
  | forkExpired => exact ⟨hok, hone, hslice.request⟩
  | forkTick =>
    exact SliceOk.afterTick (u := { s.task t with timeSlice := 1, justGotForked := 0 })
      ⟨hslice.ok.setSlice _ _, hone, hslice.request⟩
  | forkChild hf hchild hsome =>
    subst hchild
    refine ⟨hok, childSlice_ne_zero hsome hslice.slice ?_, hslice.request⟩
    by_contra hc
    rw [not_or, not_not] at hc
    exact hclean hc
  | @reap p hcurr =>
    subst hcurr
    refine ⟨hok, reapSlice_ne_zero hslice.slice ?_, hslice.request⟩
    by_contra hc
    rw [not_or, not_not] at hc
    exact hclean ⟨hc.1, hc.2⟩

omit [Param] in
theorem SlicesOk.slice (h : SlicesOk s) (t : TaskId) : (s.task t).timeSlice ≠ 0 := by
  by_cases ht : t = s.rq.idle
  · rw [ht]
    exact h.idle
  · exact (h.tasks t ht).slice

/-- A sum that wraps leaves a task without a slice. -/
theorem slice_zero_of_wraps (hstep : Step s op s') (hwraps : WrapsSlice s op) :
    ∃ t, (s'.task t).timeSlice = 0 := by
  cases op with
  | doForkSplit =>
    obtain ⟨hpolicy, hzero⟩ := hwraps
    obtain ⟨f, hf, -⟩ := doForkSplit_step hstep
    refine ⟨f.child, ?_⟩
    show (s'.task f.child).toTaskSched.timeSlice = 0
    rw [doForkSplit_child_sched hstep hf]
    show s.current.childSlice (s.task f.child) = 0
    rw [Task.childSlice, if_neg hpolicy, hzero]
    decide
  | schedExit p =>
    obtain ⟨hfirst, hzero⟩ := hwraps
    refine ⟨s.rq.curr, ?_⟩
    show (s'.task s.rq.curr).toTaskSched.timeSlice = 0
    rw [schedExit_curr_sched hstep]
    show (s.task p).reapSlice s.current = 0
    rw [Task.reapSlice, if_pos hfirst, hzero, if_neg]
    exact UInt32.not_lt_zero
  | _ => exact hwraps.elim

/-- **No task is without a time slice** in any run in which no sum wraps around: the `BUG()` of
`do_fork` is not reached and no decrement goes below 0. A sum that wraps leaves a task without
one. -/
theorem slices_of_run {ops : List Op} (hinit : SlicesOk s)
    (hrun : Run (Guarded (fun s op => ¬WrapsSlice s op) Step) s ops s') :
    (∀ t, 1 ≤ (s'.task t).timeSlice.toNat ∧
      ((s'.task t).timeSlice - 1).toNat = (s'.task t).timeSlice.toNat - 1) ∧
    (∀ f, s'.forking = some f → s'.doForkSplit ≠ none) ∧
    ∀ op s'', Step s' op s'' → WrapsSlice s' op → ∃ t, (s''.task t).timeSlice = 0 := by
  have h : SlicesOk s' :=
    hrun.invariant (P := SlicesOk) (fun _ _ _ hs hstep => hs.step hstep.2 hstep.1) hinit
  refine ⟨fun t => ?_, fun f hf => ?_, fun _ _ hstep hwraps =>
    slice_zero_of_wraps hstep hwraps⟩
  · have hge : 1 ≤ (s'.task t).timeSlice.toNat := slice_pos.mpr (h.slice t)
    exact ⟨hge, toNat_sub_one hge⟩
  · rw [doForkSplit_of_pending hf, if_neg (h.slice _)]
    exact nofun

omit [Param] in
/-- The tasks of the example have slices. -/
theorem slicesOk_privilegedTask : SlicesOk privilegedTask := by
  refine ⟨by decide, fun t ht => ?_⟩
  rcases ofList_task [{ timeSlice := 15, pid := 1, array := some .arrays0 }] 1 ht with hmem | hsleeps
  · rw [privilegedTask, List.mem_singleton.mp hmem.1]
    exact ⟨by decide, by decide, nofun⟩
  · have hok : TaskOk (sleepingTask 0).toTaskSched := by decide
    have hfifteen : (15 : UInt32) ≠ 0 := by decide
    rw [privilegedTask, hsleeps]
    exact ⟨hok, hfifteen, nofun⟩

omit [Param] in
/-- A parent makes its child SHORT and asks for a negative time for it. When the child is
reaped, the sum of the two slices wraps around to 0 and the parent's next fork is a `BUG()`. -/
theorem fork_reaches_bug :
    SlicesOk privilegedTask ∧ ∃ s', @Run Sys Op (@Step hz100) privilegedTask
        [.doFork 0 ⟨2, 2, 0⟩, .doForkSplit, .doForkWake, .setscheduler 2 5 (.valid ⟨0, 1000⟩),
          .setscheduler 2 (-1) (.valid ⟨0, -70⟩), .setCurrentState .interruptible, .schedule,
          .doExit 1, .tryToWakeUp 1 false, .schedule, .schedExit 2, .doFork 0 ⟨3, 3, 0⟩] s' ∧
      s'.rq.curr = 1 ∧ (s'.task 1).timeSlice = 0 ∧ Op.Enabled s' .doForkSplit ∧
      @doForkSplit hz100 s' = none := by
  let ops : List Op := [.doFork 0 ⟨2, 2, 0⟩, .doForkSplit, .doForkWake,
    .setscheduler 2 5 (.valid ⟨0, 1000⟩), .setscheduler 2 (-1) (.valid ⟨0, -70⟩),
    .setCurrentState .interruptible, .schedule, .doExit 1, .tryToWakeUp 1 false, .schedule,
    .schedExit 2, .doFork 0 ⟨3, 3, 0⟩]
  refine ⟨slicesOk_privilegedTask, ?_⟩
  have hall : ((@runOps hz100 ops privilegedTask).map fun s =>
      (s.rq.curr, (s.task 1).timeSlice, decide (Op.Enabled s .doForkSplit),
        (@doForkSplit hz100 s).isNone)) = some (1, 0, true, true) := by
    decide +kernel
  obtain ⟨s', hs', hval⟩ := Option.map_eq_some_iff.mp hall
  simp only [Prod.mk.injEq, decide_eq_true_eq, Option.isNone_iff_eq_none] at hval
  exact ⟨s', (@run_iff_runOps hz100 _ _ _).mpr hs', hval⟩

omit [Param] in
/-- A task forks and runs for two ticks. -/
theorem slices_of_run_fork : ∃ s', @Run Sys Op (@Step hz100) privilegedTask
      [.doFork 0 ⟨2, 2, 0⟩, .doForkSplit, .doForkWake, .schedulerTick, .schedulerTick] s' ∧
      1 ≤ (s'.task 1).timeSlice.toNat ∧ 1 ≤ (s'.task 2).timeSlice.toNat := by
  let ops : List Op :=
    [.doFork 0 ⟨2, 2, 0⟩, .doForkSplit, .doForkWake, .schedulerTick, .schedulerTick]
  have hall : (@runIf hz100 (fun s op => ¬WrapsSlice s op) _ ops privilegedTask).isSome = true := by
    decide +kernel
  obtain ⟨s', hs'⟩ := Option.isSome_iff_exists.mp hall
  have hrun := (@guarded_run_iff_runIf hz100 _ _ _ _ _).mpr hs'
  obtain ⟨hslices, -⟩ := @slices_of_run hz100 _ _ _ slicesOk_privilegedTask hrun
  exact ⟨s', hrun.mono fun _ _ _ hstep => hstep.2, (hslices 1).1, (hslices 2).1⟩

end ShortSched
