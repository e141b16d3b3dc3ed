import ShortSched.Hw2Syscalls
import ShortSched.Links
import ShortSched.LifeCycle
import ShortSched.RequestedTime

/-!
# The budget of a SHORT task

A task that asks for `r` jiffies runs for `r` ticks as a SHORT task, for `2 * r` ticks as an
overdue one, and is an OTHER task again. `Phase` links the time slice to the number of ticks
received; sleeps, wake-ups, yields and what happens to other tasks do not enter it.

A tick is not charged when `current` is in the expired array. A SHORT task gets there only if
its `justGotForked` flag was still raised by an earlier fork.
-/

namespace ShortSched

open General Sys

/-! ## Ticks -/

/-- The ticks that a task has received as `current`, and whether the last step was one. -/
structure Ticks where
  count : ℕ
  now : Bool
deriving DecidableEq

def Ticks.next (p : TaskId) (s : Sys) (op : Op) (k : Ticks) : Ticks :=
  if op = .schedulerTick ∧ s.rq.curr = p then ⟨k.count + 1, true⟩ else ⟨k.count, false⟩

/-- The steps that are not calls on `p`, and no forks. -/
def Spares (p : TaskId) (s : Sys) : Op → Prop
  | .doFork _ _ | .doForkSplit | .doForkWake => False
  | .setUserNice q _ => q ≠ p
  | .setscheduler pid _ _ => s.findProcessByPid pid ≠ some p
  | .schedExit q => q ≠ p ∧ s.rq.curr ≠ p
  | _ => True

/-- A tick that finds `p`, not yet an OTHER task again, in the expired array. -/
def LosesTick (p : TaskId) (s : Sys) (op : Op) : Prop :=
  op = .schedulerTick ∧ s.rq.curr = p ∧ (s.task p).policy = .short ∧
    (s.task p).array = some s.rq.expired

instance (p : TaskId) (s : Sys) : DecidablePred (Spares p s)
  | .doFork _ _ | .doForkSplit | .doForkWake => inferInstanceAs (Decidable False)
  | .setUserNice _ _ => inferInstanceAs (Decidable (_ ≠ _))
  | .setscheduler _ _ _ => inferInstanceAs (Decidable (_ ≠ _))
  | .schedExit _ => inferInstanceAs (Decidable (_ ∧ _))
  | .tryToWakeUp _ _ | .schedule | .schedulerTick | .sysSchedYield | .vforkReturn | .doExit _
  | .setCurrentState _ | .setSigpending _ _ | .setJiffies _ => inferInstanceAs (Decidable True)

instance (p : TaskId) (s : Sys) (op : Op) : Decidable (LosesTick p s op) :=
  inferInstanceAs (Decidable (_ ∧ _))

/-! ## Phases -/

/-- A task that asked for `r` jiffies at static priority `static`, after `n` ticks. -/
inductive Phase (static : ℤ) (r : ℕ) (n : ℕ) (p : TaskSched) : Prop
  | short (hclass : p.ShortTask) (hn : n < r) (hslice : p.timeSlice.toNat + n = r)
      (hstatic : p.staticPrio = static) (hrequested : p.requestedTime.toInt = r)
  | overdue (hclass : p.OverdueTask) (hr : r ≤ n) (hn : n < 3 * r)
      (hslice : p.timeSlice.toNat + n = 3 * r) (hparked : p.overdueStaticPrio = static)
      (hrequested : p.requestedTime.toInt = r)
  | other (hclass : p.OtherTask) (hover : p.iAmOverdue = 0) (hr : 3 * r ≤ n)
      (hstatic : p.staticPrio = static) (hrequested : p.requestedTime = invalidRequestedTime)

variable [Param] {s s' s₁ : Sys} {op : Op} {p t : TaskId} {static : ℤ} {r n : ℕ} {k : Ticks}

omit [Param] in
/-- The priority does not enter the phase. -/
theorem Phase.setPrio {q : TaskSched} (h : Phase static r n q) (prio : ℤ) :
    Phase static r n { q with prio := prio } := by
  cases h with
  | short hclass hn hslice hstatic hrequested => exact .short hclass hn hslice hstatic hrequested
  | overdue hclass hr hn hslice hparked hrequested =>
    exact .overdue hclass hr hn hslice hparked hrequested
  | other hclass hover hr hstatic hrequested => exact .other hclass hover hr hstatic hrequested

/-- **A tick** takes a task on to the next phase when its slice is used up. -/
theorem Phase.afterTick {u : Task} (h : Phase static r n u.toTaskSched)
    (hok : TaskOk u.toTaskSched) : Phase static r (n + 1) u.afterTick.toTaskSched := by
  cases h with
  | short hclass hn hslice hstatic hrequested =>
    have hrt : ¬u.RtTask := hok.not_rtTask (.inr hclass.1)
    by_cases hone : u.timeSlice = 1
    · rw [Task.afterTick_last_short hrt hclass hone]
      have hdouble := toNat_double hrequested
      rw [slice_eq_one] at hone
      refine .overdue ⟨hclass.1, rfl⟩ (by omega) (by omega) ?_ hstatic hrequested
      show (2 * u.requestedTime).toUInt32.toNat + (n + 1) = 3 * r
      omega
    · rw [Task.afterTick_run hrt hone]
      rw [slice_eq_one] at hone
      refine .short hclass (by omega) ?_ hstatic hrequested
      show (u.timeSlice - 1).toNat + (n + 1) = r
      rw [toNat_sub_one (by omega)]
      omega
  | overdue hclass hrn hn hslice hparked hrequested =>
    have hrt : ¬u.RtTask := hok.not_rtTask (.inr hclass.1)
    by_cases hone : u.timeSlice = 1
    · rw [Task.afterTick_last hrt hone]
      have hclass' : u.tick.OverdueTask := by rwa [Task.tick_sched]
      obtain ⟨hother, hover, hstatic, hinvalid, -⟩ := Task.expire_overdue hclass'
      rw [slice_eq_one] at hone
      refine .other hother hover (by omega) ?_ hinvalid
      rw [hstatic, Task.tick_sched]
      exact hparked
    · rw [Task.afterTick_run hrt hone]
      rw [slice_eq_one] at hone
      refine .overdue hclass (by omega) (by omega) ?_ hparked hrequested
      show (u.timeSlice - 1).toNat + (n + 1) = 3 * r
      rw [toNat_sub_one (by omega)]
      omega
  | other hclass hover hrn hstatic hrequested =>
    have hrt : ¬u.RtTask := hok.not_rtTask (.inl hclass)
    by_cases hone : u.timeSlice = 1
    · have hclass' : u.tick.expireClass = u.tick := by
        have hnot : u.tick.policy ≠ .short := by
          rw [Task.tick_sched]
          exact fun hc => absurd (hc.symm.trans hclass) (by decide)
        rw [Task.expireClass, if_neg fun hc => hnot hc.1, if_neg fun hc => hnot hc.1]
      rw [Task.afterTick_last hrt hone, Task.expire_sched rfl, hclass', Task.tick_sched]
      exact .other hclass hover (by omega) hstatic hrequested
    · rw [Task.afterTick_run hrt hone]
      exact .other hclass hover (by omega) hstatic hrequested

/-! ## Steps that spare the task -/

/-- What a step that spares `p` does to it, a tick apart: it may change the priority. -/
theorem SchedStep.spared {p' : TaskSched} (h : SchedStep s p op p') (hspares : Spares p s op) :
    (∃ prio, p' = { (s.task p).toTaskSched with prio := prio }) ∨
      op = .schedulerTick ∧ p = s.rq.curr ∧ s.Charged ∧ p' = (s.task p).afterTick.toTaskSched := by
  cases h with
  | same => exact .inl ⟨(s.task p).prio, rfl⟩
  | woken => exact .inl ⟨_, Task.woken_sched _ _⟩
  | tick ht h => exact .inr ⟨rfl, ht, h, rfl⟩
  | renice => exact absurd rfl hspares
  | adjust target => exact absurd target.found hspares
  | make target => exact absurd target.found hspares
  | setPolicy target => exact absurd target.found hspares
  | yield => exact .inl ⟨_, rfl⟩
  | forkCopy | forkSlice | forkExpired | forkTick | forkChild | forkWoken =>
    exact absurd hspares not_false
  | reap _ ht => exact absurd ht.symm hspares.2

/-! ## The ticks that change the class -/

/-- A SHORT task that uses up its slice goes to the tail of the overdue queue. -/
theorem schedulerTick_toOverdue (hcharged : s.Charged) (hok : TaskOk s.current.toTaskSched)
    (hshort : s.current.ShortTask) (hslice : s.current.timeSlice = 1) :
    (s.schedulerTick.queue s.schedulerTick.rq.overdue overduePrio).getLast? = some s.rq.curr := by
  have hrt : ¬s.current.RtTask := hok.not_rtTask (.inr hshort.1)
  have hqueues := queues_schedulerTick_toOverdue hcharged hrt hshort hslice
  rw [(samePtrs_schedulerTick s).overdue]
  show (s.schedulerTick.queues (s.rq.overdue, overduePrio)).getLast? = _
  rw [hqueues, getLast?_enqueueBack]

/-- An overdue task that uses up its slice goes to `active` or `expired`, with a slice of its
static priority. -/
theorem schedulerTick_toOther (hcharged : s.Charged) (hok : TaskOk s.current.toTaskSched)
    (hover : s.current.OverdueTask) (hslice : s.current.timeSlice = 1) :
    (s.schedulerTick.task s.rq.curr).timeSlice =
        (s.schedulerTick.task s.rq.curr).taskTimeslice ∧
      ((s.schedulerTick.task s.rq.curr).array = some s.schedulerTick.rq.active ∨
        (s.schedulerTick.task s.rq.curr).array = some s.schedulerTick.rq.expired) := by
  have hrt : ¬s.current.RtTask := hok.not_rtTask (.inr hover.1)
  have hlast : s.current.timeSlice - 1 = 0 := sub_one_eq_zero.mpr hslice
  have hover' : s.current.tick.OverdueTask := by rwa [Task.tick_sched]
  obtain ⟨hother, -, -, -, hfull⟩ := Task.expire_overdue hover'
  have hsched := s.schedulerTick_sched s.rq.curr
  rw [if_pos ⟨rfl, hcharged⟩, Task.afterTick_last hrt hslice] at hsched
  refine ⟨by rw [hsched, hfull], ?_⟩
  have hok' : TaskOk (s.expireState.task s.rq.curr).toTaskSched := by
    rw [expireState_sched]
    exact hok.tick.expire (by rwa [Task.tick_sched])
  have hptr := (hok'.fits_pointer s.rq.toRqPtrs).other (by rwa [expireState_sched])
  have hptrs := samePtrs_schedulerTick s
  have hcase := s.schedulerTick_cases
  generalize s.schedulerTick = s' at hcase hptrs ⊢
  cases hcase with
  | idle h => exact absurd h hcharged.1
  | expired _ h => exact absurd h hcharged.2
  | fifo _ h | rr _ h | rrRefill _ h => exact absurd h hrt
  | run _ _ h => exact absurd hlast h
  | toExpired =>
    right
    rw [hptrs.expired, enqueueTail_task, Function.update_self]
  | requeue =>
    rw [hptrs.active, hptrs.expired, enqueueTail_task, Function.update_self]
    exact hptr.imp (congrArg some) (congrArg some)

/-! ## Runs -/

/-- What is left of a budget of `r` jiffies after the ticks `k`. -/
structure BudgetSpent (p : TaskId) (static : ℤ) (r : ℕ) (k : Ticks) (s : Sys) : Prop where
  short : k.count < r → (s.task p).ShortTask ∧ (s.task p).timeSlice.toNat = r - k.count
  overdue : r ≤ k.count → k.count < 3 * r →
    (s.task p).OverdueTask ∧ (s.task p).timeSlice.toNat = 3 * r - k.count
  turnsOverdue : k.now → k.count = r → (s.task p).timeSlice.toNat = 2 * r ∧
    (s.queue s.rq.overdue overduePrio).getLast? = some p
  other : 3 * r ≤ k.count → (s.task p).OtherTask ∧ (s.task p).staticPrio = static ∧
    (s.task p).requestedTime = invalidRequestedTime
  turnsOther : k.now → k.count = 3 * r → (s.task p).timeSlice = (s.task p).taskTimeslice ∧
    ((s.task p).array = some s.rq.active ∨ (s.task p).array = some s.rq.expired)

/-- The invariant of a run that begins when `p` is made SHORT. -/
structure BudgetInv (p : TaskId) (static : ℤ) (r : ℕ) (s : Sys) (k : Ticks) : Prop where
  ne_idle : p ≠ s.rq.idle
  ok : TaskOk (s.task p).toTaskSched
  phase : Phase static r k.count (s.task p).toTaskSched
  turnsOverdue : k.now → k.count = r → (s.queue s.rq.overdue overduePrio).getLast? = some p
  turnsOther : k.now → k.count = 3 * r → (s.task p).timeSlice = (s.task p).taskTimeslice ∧
    ((s.task p).array = some s.rq.active ∨ (s.task p).array = some s.rq.expired)

omit [Param] in
/-- The phase of a task is a matter of the number of ticks. -/
theorem Phase.class_iff {q : TaskSched} (h : Phase static r n q) (hr : 1 ≤ r) :
    (n < r → q.ShortTask ∧ q.timeSlice.toNat = r - n) ∧
    (r ≤ n → n < 3 * r → q.OverdueTask ∧ q.timeSlice.toNat = 3 * r - n) ∧
    (3 * r ≤ n → q.OtherTask ∧ q.staticPrio = static ∧
      q.requestedTime = invalidRequestedTime) := by
  cases h with
  | short hclass hn hslice =>
    refine ⟨fun _ => ⟨hclass, ?_⟩, fun _ _ => ?_, fun _ => ?_⟩ <;> omega
  | overdue hclass hrn hn hslice =>
    refine ⟨fun _ => ?_, fun _ _ => ⟨hclass, ?_⟩, fun _ => ?_⟩ <;> omega
  | other hclass _ hrn hstatic hrequested =>
    refine ⟨fun _ => ?_, fun _ _ => ?_, fun _ => ⟨hclass, hstatic, hrequested⟩⟩ <;> omega

theorem BudgetInv.spent (h : BudgetInv p static r s k) (hr : 1 ≤ r) :
    BudgetSpent p static r k s := by
  obtain ⟨hshort, hover, hother⟩ := h.phase.class_iff hr
  refine ⟨hshort, hover, fun hnow hk => ⟨?_, h.turnsOverdue hnow hk⟩, hother, h.turnsOther⟩
  omega

/-- A tick of `p`. -/
theorem BudgetInv.tick (h : BudgetInv p static r s k) (hr : 1 ≤ r) (hcurr : s.rq.curr = p)
    (hlost : ¬LosesTick p s .schedulerTick) :
    BudgetInv p static r s.schedulerTick ⟨k.count + 1, true⟩ := by
  subst hcurr
  have hidle : s.schedulerTick.rq.idle = s.rq.idle := (samePtrs_schedulerTick s).idle
  have hsched := s.schedulerTick_sched s.rq.curr
  have hcharged : s.current.policy = .short → s.Charged := fun hshort =>
    ⟨h.ne_idle, fun harray => hlost ⟨rfl, rfl, hshort, harray⟩⟩
  have hok : TaskOk (s.schedulerTick.task s.rq.curr).toTaskSched := by
    rw [hsched]
    split
    · exact h.ok.afterTick
    · exact h.ok
  have hphase : Phase static r (k.count + 1) (s.schedulerTick.task s.rq.curr).toTaskSched := by
    rw [hsched]
    split
    · exact h.phase.afterTick h.ok
    · next hnot =>
      -- only the tick of an OTHER task is not charged
      cases h.phase with
      | short hclass => exact absurd ⟨rfl, hcharged hclass.1⟩ hnot
      | overdue hclass => exact absurd ⟨rfl, hcharged hclass.1⟩ hnot
      | other hclass hover hrn hstatic hrequested =>
        exact .other hclass hover (by omega) hstatic hrequested
  refine ⟨by rw [hidle]; exact h.ne_idle, hok, hphase, fun _ hk => ?_, fun _ hk => ?_⟩
  · -- the `r`-th tick
    have hk' : k.count + 1 = r := hk
    cases h.phase with
    | short hclass hn hslice =>
      refine schedulerTick_toOverdue (hcharged hclass.1) h.ok hclass (slice_eq_one.mpr ?_)
      show (s.task s.rq.curr).timeSlice.toNat = 1
      omega
    | overdue | other => omega
  · -- the tick after the last overdue one
    have hk' : k.count + 1 = 3 * r := hk
    cases h.phase with
    | overdue hclass hrn hn hslice =>
      refine schedulerTick_toOther (hcharged hclass.1) h.ok hclass (slice_eq_one.mpr ?_)
      show (s.task s.rq.curr).timeSlice.toNat = 1
      omega
    | short | other => omega

/-- **A step** that spares `p` and loses no tick of it. -/
theorem BudgetInv.step (h : BudgetInv p static r s k) (hr : 1 ≤ r)
    (hstep : Step s op s') (hspares : Spares p s op) (hlost : ¬LosesTick p s op) :
    BudgetInv p static r s' (k.next p s op) := by
  by_cases htick : op = .schedulerTick ∧ s.rq.curr = p
  · rw [Ticks.next, if_pos htick]
    obtain ⟨rfl, hcurr⟩ := htick
    obtain rfl := Option.some.inj hstep.2
    exact h.tick hr hcurr hlost
  · rw [Ticks.next, if_neg htick]
    have hsched := step_sched hstep p
    have hnofork : ∀ cloneFlags env, op ≠ .doFork cloneFlags env := by
      rintro cloneFlags env rfl
      exact hspares
    have hok := hsched.taskOk h.ok fun cloneFlags env hop => absurd hop (hnofork cloneFlags env)
    rcases hsched.spared hspares with ⟨prio, heq⟩ | ⟨hop, hcurr, -⟩
    · refine ⟨by rw [step_idle hstep]; exact h.ne_idle, hok, ?_, nofun, nofun⟩
      rw [heq]
      exact h.phase.setPrio prio
    · exact absurd ⟨hop, hcurr.symm⟩ htick

/-! ## A task whose flag is down -/

/-- A task of policy SHORT is in one of the two arrays of SHORT tasks, or in none. -/
def InShortArrays (q : RqPtrs) (t : Task) : Prop :=
  t.policy = .short → ∀ array, t.array = some array → array = q.rtShort ∨ array = q.overdue

omit [Param] in
/-- A task of policy SHORT that is in one of its arrays has not expired. -/
theorem InShortArrays.ne_expired {q : RqPtrs} {u : Task} (h : InShortArrays q u)
    (hshort : u.policy = .short) : u.array ≠ some q.expired := by
  obtain ⟨-, hrtShort, hoverdue, -⟩ := ptrs_ne q
  intro harray
  rcases h hshort _ harray with hc | hc
  · exact hrtShort hc.symm
  · exact hoverdue hc.symm

omit [Param] in
theorem pointer_of_short {q : RqPtrs} {u : TaskSched} (hok : TaskOk u) (hshort : u.policy = .short) :
    pointerToMyActivePrioArray u q = q.rtShort ∨ pointerToMyActivePrioArray u q = q.overdue := by
  have hfits := hok.fits_pointer q
  exact (hok.iAmOverdue_cases hshort).imp hfits.short hfits.overdue

/-- No step that spares the task takes it elsewhere. -/
theorem InShortArrays.step (h : InShortArrays s.rq.toRqPtrs (s.task p)) (hstep : Step s op s')
    (hspares : Spares p s op) (hflag : (s.task p).justGotForked = 0)
    (hok : TaskOk (s.task p).toTaskSched) (hok' : TaskOk (s'.task p).toTaskSched)
    (hpolicy : (s'.task p).policy = .short → (s.task p).policy = .short) :
    InShortArrays s'.rq.toRqPtrs (s'.task p) := by
  intro hshort array harray
  have hptrs := (step_ptrs hstep).1
  rw [hptrs.rtShort, hptrs.overdue]
  cases step_links hstep p with
  | kept _ hlink => exact h (hpolicy hshort) array (hlink.array ▸ harray)
  | unlinked _ _ hlink =>
    rw [hlink.array] at harray
    cases harray
  | woken _ _ hlink =>
    rw [hlink.array] at harray
    obtain rfl := Option.some.inj harray
    exact pointer_of_short hok (hpolicy hshort)
  | forkWoken => exact absurd hspares id
  | pulled _ hraised => exact absurd hflag hraised
  | yielded _ hold hlink =>
    rw [hlink.array, ← hold] at harray
    exact h (hpolicy hshort) array harray
  | ticked _ _ _ hlink htick =>
    rw [hlink.array] at harray
    obtain rfl := Option.some.inj harray
    rcases htick with hptr | ⟨hother, -⟩
    · rw [hptr]
      exact pointer_of_short hok' hshort
    · exact absurd (hother.symm.trans hshort) (by decide)
  | reniced => exact absurd rfl hspares
  | requeued target => exact absurd target.found hspares

/-- The invariant of a run in which no tick is lost because the flag was down at its beginning. -/
structure UnflaggedInv (p : TaskId) (static : ℤ) (r : ℕ) (s : Sys) (k : Ticks) : Prop extends
    BudgetInv p static r s k where
  flag : (s.task p).justGotForked = 0
  arrays : InShortArrays s.rq.toRqPtrs (s.task p)

theorem UnflaggedInv.not_losesTick (h : UnflaggedInv p static r s k) (op : Op) :
    ¬LosesTick p s op :=
  fun hc => h.arrays.ne_expired hc.2.2.1 hc.2.2.2

/-- A task whose flag is down stays in the arrays of its class. -/
theorem UnflaggedInv.step (h : UnflaggedInv p static r s k) (hr : 1 ≤ r)
    (hstep : Step s op s') (hspares : Spares p s op) :
    UnflaggedInv p static r s' (k.next p s op) := by
  have hnext := h.toBudgetInv.step hr hstep hspares (h.not_losesTick op)
  have hflag : (s'.task p).justGotForked = 0 := by
    refine justGotForked_step hstep ?_ ?_ ?_ h.flag
    · rintro cloneFlags env rfl
      exact hspares
    · rintro rfl
      exact hspares
    · rintro rfl
      exact hspares
  refine ⟨hnext, hflag, ?_⟩
  refine h.arrays.step hstep hspares h.flag h.ok hnext.ok fun hshort => ?_
  -- no task returns from the OTHER phase
  by_contra hnot
  have hcount : 3 * r ≤ (k.next p s op).count := by
    have hge : k.count ≤ (k.next p s op).count := by
      rw [Ticks.next]
      split
      · exact Nat.le_succ _
      · exact le_rfl
    obtain ⟨hs, ho, -⟩ := h.phase.class_iff hr
    by_contra hlt
    by_cases hk : k.count < r
    · exact hnot (hs hk).1.1
    · exact hnot (ho (by omega) (by omega)).1.1
  have hother := ((hnext.phase.class_iff hr).2.2 hcount).1
  exact absurd (hother.symm.trans hshort) (by decide)

/-! ## The beginning of a run -/

/-- A call that makes an OTHER task SHORT. -/
theorem setscheduler_makesShort {pid policy : ℤ} {param : UserParam}
    (hother : (s.task p).OtherTask) (hmake : Step s (.setscheduler pid policy param) s₁)
    (hshort : (s₁.task p).policy = .short) : ∃ lp, Target s pid param p lp ∧
      s₁ = (s.requeued p (Task.makeShort lp)).setTskNeedResched s.rq.curr := by
  have hsched := step_sched hmake p
  generalize (s₁.task p).toTaskSched = p' at hsched hshort
  cases hsched with
  | same => exact absurd (hother.symm.trans hshort) (by decide)
  | adjust _ hold => exact absurd (hother.symm.trans hold) (by decide)
  | @make _ _ _ lp target _ hpolicy hle hge hmay =>
    have hcall := setscheduler_of_make target hother hpolicy.2 hle hge hmay
    have hexec := hmake.2
    rw [Op.exec, hcall] at hexec
    exact ⟨lp, target, (Option.some.inj hexec).symm⟩
  | setPolicy _ _ hnew =>
    exfalso
    revert hshort
    split
    · exact hnew
    · rw [Task.woken_sched]
      exact hnew

/-- A task that is made SHORT and activated has its new fields, but for the bonus. -/
theorem requeued_makeShort_sched (lp : SchedParam) (p : TaskId) (s : Sys) : ∃ prio,
    (((s.requeued p (Task.makeShort lp)).setTskNeedResched s.rq.curr).task p).toTaskSched =
      { ((s.task p).makeShort lp).toTaskSched with prio := prio } := by
  rw [(SameTasks.setTskNeedResched _ _).sched, requeued_sched fun _ => rfl, if_pos rfl]
  split
  · exact ⟨(s.task p).prio, rfl⟩
  · exact ⟨_, Task.woken_sched _ _⟩

/-- The budget is whole when the task is made SHORT. -/
theorem budgetInv_of_make {pid policy : ℤ} {param : UserParam}
    (hok : TaskOk (s.task p).toTaskSched) (hother : (s.task p).OtherTask)
    (hover : (s.task p).iAmOverdue = 0) (hmake : Step s (.setscheduler pid policy param) s₁)
    (hshort : (s₁.task p).policy = .short) (hr : (s₁.task p).requestedTime.toInt = r)
    (hr1 : 1 ≤ r) : BudgetInv p (s.task p).staticPrio r s₁ ⟨0, false⟩ := by
  have hok' := (step_sched hmake p).taskOk hok nofun
  obtain ⟨lp, target, hs₁⟩ := setscheduler_makesShort hother hmake hshort
  obtain ⟨prio, heq⟩ := requeued_makeShort_sched lp p s
  rw [← hs₁] at heq
  have hidle : p ≠ s₁.rq.idle := by
    rw [step_idle hmake]
    rintro rfl
    exact hmake.1.2 target.found
  have hrequested : (changeMsToJiffis lp.requestedTime).toInt = r := by
    rw [← hr, heq]
    rfl
  have hslice : (changeMsToJiffis lp.requestedTime).toUInt32.toNat = r := by
    have hnat := toNat_toUInt32 (changeMsToJiffis lp.requestedTime)
    have hlt := (changeMsToJiffis lp.requestedTime).toInt_lt
    omega
  refine ⟨hidle, hok', ?_, nofun, nofun⟩
  rw [heq]
  exact .short ⟨rfl, hover⟩ hr1 hslice rfl hrequested

/-- It queues the task, if it does, as a SHORT one. -/
theorem unflaggedInv_of_make {pid policy : ℤ} {param : UserParam}
    (hok : TaskOk (s.task p).toTaskSched) (hother : (s.task p).OtherTask)
    (hover : (s.task p).iAmOverdue = 0) (hmake : Step s (.setscheduler pid policy param) s₁)
    (hshort : (s₁.task p).policy = .short) (hr : (s₁.task p).requestedTime.toInt = r)
    (hr1 : 1 ≤ r) (hflag : (s.task p).justGotForked = 0) :
    UnflaggedInv p (s.task p).staticPrio r s₁ ⟨0, false⟩ := by
  have hinv := budgetInv_of_make hok hother hover hmake hshort hr hr1
  obtain ⟨lp, -, hs₁⟩ := setscheduler_makesShort hother hmake hshort
  have hframe := requeued_frame (f := Task.makeShort lp) (fun _ => rfl) hflag
    (fun _ => ⟨rfl, rfl, rfl, rfl⟩) p
  have hsame := SameTasks.setTskNeedResched s.rq.curr (s.requeued p (Task.makeShort lp))
  refine ⟨hinv, ?_, fun _ array harray => ?_⟩
  · rw [hs₁, hsame.justGotForked]
    exact hframe.2.1
  · rw [hs₁, hsame.array, hframe.1, if_pos rfl, Option.map_eq_some_iff] at harray
    obtain ⟨_, -, rfl⟩ := harray
    left
    rw [(step_ptrs hmake).1.rtShort]
    exact if_pos (.inl ⟨rfl, hover⟩)

/-! ## Every run -/

/-- A lost tick is not taken from the budget. -/
theorem not_budgetSpent_of_losesTick (hr : 1 ≤ r) (h : BudgetSpent p static r k s)
    (hidle : p ≠ s.rq.idle) (hlost : LosesTick p s .schedulerTick) :
    ¬BudgetSpent p static r (k.next p s .schedulerTick) s.schedulerTick := by
  obtain ⟨-, rfl, hshort, harray⟩ := hlost
  have hsched : (s.schedulerTick.task s.rq.curr).toTaskSched = s.current.toTaskSched := by
    rw [schedulerTick_sched, if_neg fun hc => hc.2.2 harray]
  have hnext : (k.next s.rq.curr s .schedulerTick).count = k.count + 1 := by
    rw [Ticks.next, if_pos ⟨rfl, rfl⟩]
  intro h'
  have hcount : k.count < 3 * r := by
    by_contra hc
    exact absurd ((h.other (not_lt.mp hc)).1.symm.trans hshort) (by decide)
  by_cases hk : k.count < r
  · obtain ⟨hclass, hslice⟩ := h.short hk
    by_cases hk' : k.count + 1 < r
    · have hslice' := (h'.short (by omega)).2
      rw [hsched, hnext] at hslice'
      have heq : (s.task s.rq.curr).timeSlice.toNat = r - (k.count + 1) := hslice'
      omega
    · have hclass' := (h'.overdue (by omega) (by omega)).1
      rw [hsched] at hclass'
      exact absurd (hclass.2.symm.trans hclass'.2) (by decide)
  · have hslice := (h.overdue (by omega) hcount).2
    by_cases hk' : k.count + 1 < 3 * r
    · have hslice' := (h'.overdue (by omega) (by omega)).2
      rw [hsched, hnext] at hslice'
      have heq : (s.task s.rq.curr).timeSlice.toNat = 3 * r - (k.count + 1) := hslice'
      omega
    · have hother := (h'.other (by omega)).1
      rw [hsched] at hother
      exact absurd (hother.symm.trans hshort) (by decide)

/-- A step that is none of the calls on `p` and loses no tick. -/
abbrev BudgetStep (p : TaskId) : Sys × Ticks → Op → Sys × Ticks → Prop :=
  Ghost (Guarded (fun s op => Spares p s op ∧ ¬LosesTick p s op) Step) (Ticks.next p)

theorem BudgetInv.run {x y : Sys × Ticks} {ops : List Op} (h : BudgetInv p static r x.1 x.2)
    (hr : 1 ≤ r) (hrun : Run (BudgetStep p) x ops y) : BudgetInv p static r y.1 y.2 := by
  refine hrun.invariant (P := fun x => BudgetInv p static r x.1 x.2) (fun x op y hx hstep => ?_) h
  obtain ⟨⟨⟨hspares, hlost⟩, hstep⟩, hnext⟩ := hstep
  rw [hnext]
  exact hx.step hr hstep hspares hlost

/-- **The budget of a SHORT task is exact** in every run that loses no tick, and a lost tick
breaks it. No tick is lost if the flag of the task was down when it was made SHORT. -/
theorem budget_of_run {pid policy : ℤ} {param : UserParam}
    (hok : TaskOk (s.task p).toTaskSched) (hother : (s.task p).OtherTask)
    (hover : (s.task p).iAmOverdue = 0) (hmake : Step s (.setscheduler pid policy param) s₁)
    (hshort : (s₁.task p).policy = .short) (hr : (s₁.task p).requestedTime.toInt = r)
    (hr1 : 1 ≤ r) :
    (∀ ops s' k, Run (Ghost (Guarded (fun s op => Spares p s op ∧ ¬LosesTick p s op) Step)
        (Ticks.next p)) (s₁, ⟨0, false⟩) ops (s', k) →
      BudgetSpent p (s.task p).staticPrio r k s' ∧
        ∀ s'', Step s' .schedulerTick s'' → LosesTick p s' .schedulerTick →
          ¬BudgetSpent p (s.task p).staticPrio r (k.next p s' .schedulerTick) s'') ∧
    ((s.task p).justGotForked = 0 → ∀ ops s', Run (Guarded (Spares p) Step) s₁ ops s' →
      Run (Guarded (fun s op => Spares p s op ∧ ¬LosesTick p s op) Step) s₁ ops s') := by
  constructor
  · intro ops s' k hrun
    have hinv : BudgetInv p (s.task p).staticPrio r s' k :=
      (budgetInv_of_make hok hother hover hmake hshort hr hr1).run hr1 hrun
    refine ⟨hinv.spent hr1, fun s'' hstep hlost => ?_⟩
    obtain rfl := Option.some.inj hstep.2
    exact not_budgetSpent_of_losesTick hr1 (hinv.spent hr1) hinv.ne_idle hlost
  · intro hflag ops s' hrun
    have hinv := unflaggedInv_of_make hok hother hover hmake hshort hr hr1 hflag
    generalize (⟨0, false⟩ : Ticks) = k at hinv
    clear hr hshort hmake
    induction hrun generalizing k with
    | nil => exact Run.nil _
    | @cons _ _ _ op _ step _ ih =>
      have hlost := hinv.not_losesTick op
      have hnext := hinv.step hr1 step.2 step.1
      exact Run.cons ⟨⟨step.1, hlost⟩, step.2⟩ (ih _ hnext)

/-! ## What the system calls tell of it -/

omit [Param] in
theorem toInt_toInt32 {x : UInt32} (h : x.toNat < 2 ^ 31) : x.toInt32.toInt = x.toNat := by
  have hlt : 2 * x.toBitVec.toNat < 2 ^ 32 := by
    have heq : x.toBitVec.toNat = x.toNat := rfl
    omega
  exact BitVec.toInt_eq_toNat_of_lt hlt

/-- `CHANGE_JIFFIS_TO_MS` of a number of jiffies that does not overflow. -/
theorem toNat_changeJiffisToMs {n : UInt32} (h : n.toNat * 1000 < 2 ^ 32) :
    (n * 1000 / UInt32.ofNat hz).toNat = n.toNat * 1000 / hz := by
  have hthousand : (1000 : UInt32).toNat = 1000 := rfl
  have hlt : hz < UInt32.size := lt_of_le_of_lt hz_le (by decide)
  rw [UInt32.toNat_div, UInt32.toNat_mul, hthousand, Nat.mod_eq_of_lt h,
    UInt32.toNat_ofNat_of_lt' hlt]

omit [Param] in
/-- The answer about a process that is found and asked for rightly. -/
theorem askProcess_of_found {pid : ℤ} {applies : TaskSched → Bool} {f : TaskSched → ℤ}
    (hpid : 0 ≤ pid) (hfound : s.findTaskByPid pid = some p)
    (happlies : applies (s.task p).toTaskSched = true) :
    s.askProcess pid applies f = f (s.task p).toTaskSched := by
  have hget : s.getProcess pid = .ok p := by
    rw [getProcess, if_neg (not_lt.mpr hpid), hfound]
  rw [askProcess, hget]
  exact if_pos happlies

/-- `sys_short_remaining_time` of a slice of `n` jiffies that does not overflow. -/
theorem sysShortRemainingTime_of_slice {pid : ℤ} {n : ℕ} (hpid : 0 ≤ pid)
    (hfound : s.findTaskByPid pid = some p) (hshort : (s.task p).policy = .short)
    (hslice : (s.task p).timeSlice.toNat = n) (hn : n * 1000 < 2 ^ 31) :
    s.sysShortRemainingTime pid = (n * 1000 / hz : ℕ) := by
  rw [sysShortRemainingTime, askProcess_of_found hpid hfound (decide_eq_true hshort)]
  have hlt : (s.task p).timeSlice.toNat * 1000 < 2 ^ 31 := by rwa [hslice]
  have hms := toNat_changeJiffisToMs (hlt.trans (by decide))
  have hle : (s.task p).timeSlice.toNat * 1000 / hz < 2 ^ 31 :=
    (Nat.div_le_self _ _).trans_lt hlt
  rw [toInt_toInt32 (hms.trans_lt hle), hms, hslice]

/-- **The two calls tell what is left of the budget** after every run: the time until the task is
overdue, and then the time until it is an OTHER task again. -/
theorem asked_of_run {pid policy : ℤ} {param : UserParam} {ops : List Op} {q : ℤ}
    (hok : TaskOk (s.task p).toTaskSched) (hother : (s.task p).OtherTask)
    (hover : (s.task p).iAmOverdue = 0) (hmake : Step s (.setscheduler pid policy param) s₁)
    (hshort : (s₁.task p).policy = .short) (hr : (s₁.task p).requestedTime.toInt = r)
    (hr1 : 1 ≤ r) (hmax : 2 * r * 1000 < 2 ^ 31)
    (hrun : Run (BudgetStep p) (s₁, ⟨0, false⟩) ops (s', k)) (hq : 0 ≤ q)
    (hfound : s'.findTaskByPid q = some p) :
    (k.count < r → s'.sysIsShort q = 1 ∧
      s'.sysShortRemainingTime q = ((r - k.count) * 1000 / hz : ℕ)) ∧
    (r ≤ k.count → k.count < 3 * r → s'.sysIsShort q = 0 ∧
      s'.sysShortRemainingTime q = ((3 * r - k.count) * 1000 / hz : ℕ)) ∧
    (3 * r ≤ k.count → s'.sysIsShort q = -eINVAL ∧ s'.sysShortRemainingTime q = -eINVAL) := by
  have hspent : BudgetSpent p (s.task p).staticPrio r k s' :=
    ((budgetInv_of_make hok hother hover hmake hshort hr hr1).run hr1 hrun).spent hr1
  have hfits : ∀ {n : ℕ}, n ≤ 2 * r → n * 1000 < 2 ^ 31 := fun hn =>
    (Nat.mul_le_mul_right 1000 hn).trans_lt hmax
  refine ⟨fun hk => ?_, fun hrk hk => ?_, fun hk => ?_⟩
  · obtain ⟨hclass, hslice⟩ := hspent.short hk
    refine ⟨?_, sysShortRemainingTime_of_slice hq hfound hclass.1 hslice (hfits (by omega))⟩
    rw [sysIsShort, askProcess_of_found hq hfound (decide_eq_true hclass.1), if_pos hclass.2]
  · obtain ⟨hclass, hslice⟩ := hspent.overdue hrk hk
    refine ⟨?_, sysShortRemainingTime_of_slice hq hfound hclass.1 hslice (hfits (by omega))⟩
    have hover : (s'.task p).iAmOverdue ≠ 0 := by
      rw [hclass.2]
      decide
    rw [sysIsShort, askProcess_of_found hq hfound (decide_eq_true hclass.1), if_neg hover]
  · have hnot : (s'.task p).policy ≠ .short := by
      rw [(hspent.other hk).1]
      decide
    have hget : s'.getProcess q = .ok p := by
      rw [getProcess, if_neg (not_lt.mpr hq), hfound]
    constructor
    · rw [sysIsShort, askProcess, hget]
      exact if_neg fun hc => hnot (of_decide_eq_true hc)
    · rw [sysShortRemainingTime, askProcess, hget]
      exact if_neg fun hc => hnot (of_decide_eq_true hc)

/-! ## A flag that is still raised -/

/-- A SHORT task with 2 jiffies runs; an OTHER child of it has expired. -/
def shortWithChild : Sys :=
  let parent : Task :=
    { timeSlice := 2, pid := 1, policy := .short, requestedTime := 2, iWasShort := 1,
      array := some .shortArrays0 }
  let child : Task := { timeSlice := 15, pid := 2, pOpptr := 1, array := some .arrays1 }
  ofList [parent, child] 1

omit [Param] in
/-- The task forks with `CLONE_PARENT`, uses up its time, and is made SHORT again for one jiffy.
Its flag is still raised: when the child is reniced, the task follows it into the expired array
and its tick is lost. -/
theorem budget_broken_by_stale_flag :
    let toOther : List Op := [.doFork cloneParent ⟨3, 3, 0⟩, .doForkSplit, .doForkWake,
      .schedulerTick, .schedulerTick, .schedulerTick, .schedulerTick, .schedulerTick]
    shortWithChild.RqInv ∧ shortWithChild.NoFlags ∧
      ∃ s s₁ s₂ s', @Run Sys Op (@Step hz100) shortWithChild toOther s ∧
        (TaskOk (s.task 1).toTaskSched ∧ (s.task 1).OtherTask ∧ (s.task 1).iAmOverdue = 0) ∧
        @Step hz100 s (.setscheduler 0 5 (.valid ⟨0, 10⟩)) s₁ ∧
        ((s₁.task 1).policy = .short ∧ (s₁.task 1).requestedTime.toInt = 1) ∧
        @Run Sys Op (Guarded (Spares 1) (@Step hz100)) s₁ [.setUserNice 2 5] s₂ ∧
        s₂.rq.curr = 1 ∧ @Step hz100 s₂ .schedulerTick s' ∧ ¬(s'.task 1).OverdueTask := by
  intro toOther
  let make : Op := .setscheduler 0 5 (.valid ⟨0, 10⟩)
  have hall : ((@runOps hz100 (toOther ++ [make, .setUserNice 2 5, .schedulerTick])
      shortWithChild).map fun s => (s.task 1).iAmOverdue) = some 0 := by
    decide +kernel
  have hother : ((@runOps hz100 toOther shortWithChild).map fun s =>
      decide (TaskOk (s.task 1).toTaskSched ∧ (s.task 1).OtherTask ∧ (s.task 1).iAmOverdue = 0)) =
        some true := by
    decide +kernel
  have hshort : ((@runOps hz100 (toOther ++ [make]) shortWithChild).map fun s =>
      decide ((s.task 1).policy = .short ∧ (s.task 1).requestedTime.toInt = 1)) = some true := by
    decide +kernel
  have hcurr : ((@runOps hz100 (toOther ++ [make, .setUserNice 2 5]) shortWithChild).map fun s =>
      s.rq.curr) = some 1 := by
    decide +kernel
  obtain ⟨s', hs', hover⟩ := Option.map_eq_some_iff.mp hall
  have hrun := (@run_iff_runOps hz100 _ _ _).mpr hs'
  obtain ⟨s, hbefore, hafter⟩ := Run.append_iff.mp hrun
  obtain ⟨s₁, hmake, hafter⟩ := Run.cons_iff.mp hafter
  obtain ⟨s₂, hnice, hafter⟩ := Run.cons_iff.mp hafter
  have htick := Run.single_iff.mp hafter
  -- the states in between are those of the shorter runs
  have hs := (@run_iff_runOps hz100 _ _ _).mp hbefore
  have hs₁ := (@run_iff_runOps hz100 _ _ _).mp (hbefore.append (Run.single hmake))
  have hs₂ := (@run_iff_runOps hz100 _ _ _).mp
    (hbefore.append (Run.cons hmake (Run.single hnice)))
  rw [hs] at hother
  rw [hs₁] at hshort
  rw [hs₂] at hcurr
  have hspares : Spares 1 s₁ (.setUserNice 2 5) := by
    show (2 : TaskId) ≠ 1
    decide
  refine ⟨rqInv_ofList (by decide) (by decide), noFlags_ofList (by decide), s, s₁, s₂, s', hbefore,
    of_decide_eq_true (Option.some.inj hother), hmake, of_decide_eq_true (Option.some.inj hshort),
    Run.single ⟨hspares, hnice⟩, Option.some.inj hcurr, htick, fun hc => ?_⟩
  exact absurd (hover.symm.trans hc.2) (by decide)

omit [Param] in
/-- A task with a request of two jiffies gets two ticks. -/
theorem budget_of_run_two :
    let task : Task := { timeSlice := 15, pid := 1, array := some .arrays0 }
    ∃ s₁ s' k, @runOps hz100 [.setscheduler 0 5 (.valid ⟨0, 20⟩)] (ofList [task] 1) = some s₁ ∧
      @runIf hz100 (Spares 1) _ [.schedulerTick, .schedulerTick] s₁ = some s' ∧
      @BudgetSpent hz100 1 120 2 k s' := by
  intro task
  let make : Op := .setscheduler 0 5 (.valid ⟨0, 20⟩)
  have hshort : ((@runOps hz100 [make] (ofList [task] 1)).map fun s =>
      decide ((s.task 1).policy = .short ∧ (s.task 1).requestedTime.toInt = 2)) = some true := by
    decide +kernel
  obtain ⟨s₁, hs₁, hfields⟩ := Option.map_eq_some_iff.mp hshort
  have hticks : ((@runOps hz100 [make] (ofList [task] 1) >>=
      @runIf hz100 (Spares 1) _ [.schedulerTick, .schedulerTick])).isSome = true := by
    decide +kernel
  rw [hs₁] at hticks
  obtain ⟨s', hs'⟩ := Option.isSome_iff_exists.mp hticks
  have hmake := (@runOps_single hz100 _ _ _).mp hs₁
  obtain ⟨hpolicy, hrequested⟩ := of_decide_eq_true hfields
  have hbudget := @budget_of_run hz100 _ _ 1 2 _ _ _ (by decide) (by decide) (by decide) hmake
    hpolicy hrequested (by decide)
  have hrun := hbudget.2 (by decide) _ _ ((@guarded_run_iff_runIf hz100 _ _ _ _ _).mpr hs')
  obtain ⟨k, hghost⟩ : ∃ k, Run (Ghost _ (Ticks.next 1)) (_, ⟨0, false⟩) _ (s', k) :=
    hrun.exists_ghost _
  exact ⟨_, s', k, hs₁, hs', (hbudget.1 _ _ _ hghost).1⟩

end ShortSched
