import ShortSched.Links
import ShortSched.RunqueueRuns
import ShortSched.SchedulingOrder

/-!
# Expired tasks are not starved by interactive ones

`EXPIRED_STARVING` compares the clock with `expired_timestamp`. The tick that puts a task into
`rq->expired` sets the timestamp if it is not set, and `schedule` clears it when it exchanges the
arrays or finds nothing to run. As long as a task waits the timestamp is set, and it is no later
than the moment at which the task entered.
-/

namespace ShortSched

open General Sys

/-- A task that waits in `rq->expired`. -/
abbrev InExpired (s : Sys) (t : TaskId) : Prop := (s.task t).array = some s.rq.expired

/-- The operations of the scheduler, under a clock that does not go back. -/
def ClockForward (s : Sys) : Op → Prop
  | .setJiffies jiffies => s.jiffies ≤ jiffies
  | op => op.InScheduler

instance (s : Sys) : DecidablePred (ClockForward s)
  | .setJiffies _ => inferInstanceAs (Decidable (_ ≤ _))
  | .doFork .. | .doForkSplit | .doForkWake | .vforkReturn | .schedExit _ | .doExit _ =>
    inferInstanceAs (Decidable False)
  | .tryToWakeUp .. | .schedule | .schedulerTick | .setUserNice .. | .setscheduler ..
  | .sysSchedYield | .setCurrentState _ | .setSigpending .. => inferInstanceAs (Decidable True)

variable {s s' : Sys} {op : Op} {t p : TaskId}

theorem ClockForward.inScheduler (h : ClockForward s op) : op.InScheduler := by
  cases op with
  | setJiffies => trivial
  | _ => exact h

/-! ## The clock and the timestamp -/

/-- Neither the clock nor the timestamp moves. -/
structure SameClock (s s' : Sys) : Prop where
  jiffies : s'.jiffies = s.jiffies
  stamp : s'.rq.expiredTimestamp = s.rq.expiredTimestamp

theorem SameClock.trans {s'' : Sys} (h : SameClock s s') (h' : SameClock s' s'') :
    SameClock s s'' :=
  ⟨h'.jiffies.trans h.jiffies, h'.stamp.trans h.stamp⟩

namespace Sys

theorem sameClock_modify (p : TaskId) (f : Task → Task) (s : Sys) : SameClock s (s.modify p f) :=
  ⟨rfl, rfl⟩

variable [Param]

theorem sameClock_activateTask (p : TaskId) (s : Sys) : SameClock s (s.activateTask p) := by
  refine ⟨?_, ?_⟩
  · rw [activateTask_eq, modifyRq_jiffies, enqueueTask_jiffies, modify_jiffies]
  · rw [activateTask_ptrs]

/-- A wake-up does not reach the time stamp of the expired array. -/
theorem sameClock_tryToWakeUp (p : TaskId) (sync : Bool) (s : Sys) :
    SameClock s (s.tryToWakeUp p sync).2 := by
  by_cases hasleep : (s.task p).array = none
  · have hprepare : SameClock s (s.wakePrepare p sync) := by
      unfold wakePrepare
      split <;> split <;> exact ⟨rfl, rfl⟩
    have hfinish : ∀ s : Sys, SameClock s (s.wakeFinish p) := by
      intro s
      unfold wakeFinish
      split <;> exact ⟨rfl, rfl⟩
    rw [tryToWakeUp_of_sleeping hasleep]
    exact (hprepare.trans (sameClock_activateTask p _)).trans (hfinish _)
  · rw [tryToWakeUp_of_queued hasleep]
    exact sameClock_modify _ _ s

omit [Param] in
/-- Nor does `set_user_nice`. -/
theorem sameClock_setUserNice (p : TaskId) (nice : ℤ) (s : Sys) :
    SameClock s (s.setUserNice p nice) := by
  refine ⟨?_, by rw [setUserNice_ptrs]⟩
  have hcase := s.setUserNice_cases p nice
  have hqueued : ∀ array, (s.reniceQueued p nice array).jiffies = s.jiffies := by
    intro array
    rw [reniceQueued, enqueueTask_jiffies, modify_jiffies, dequeueTask_jiffies]
  generalize s.setUserNice p nice = s' at hcase ⊢
  cases hcase with
  | same | rt | overdue | sleeping => rfl
  | queued | queuedResched => exact hqueued _

/-- Nor does a task that is requeued. -/
theorem sameClock_requeued (p : TaskId) (f : Task → Task) (s : Sys) :
    SameClock s (s.requeued p f) := by
  unfold requeued
  split
  · exact sameClock_modify p f s
  · next array _ =>
    have hdequeue : SameClock s (((s.dropRunning p).dequeueTask p array).modify p fun t =>
        { t with array := none }) := by
      refine ⟨?_, ?_⟩
      · rw [modify_jiffies, dequeueTask_jiffies]
        rfl
      · rw [modify_rq, dequeueTask_ptrs]
        rfl
    exact (hdequeue.trans (sameClock_modify p f _)).trans (sameClock_activateTask p _)

/-- Nor does `setscheduler`. -/
theorem sameClock_setscheduler {pid policy : ℤ} {param : UserParam} {r : ℤ}
    (h : s.setscheduler pid policy param = some (r, s')) : SameClock s s' := by
  cases SetschedCase.of_eq_some h with
  | refused _ hsame => exact ⟨hsame.jiffies, by rw [hsame.rq]⟩
  | adjusted => exact ⟨rfl, rfl⟩
  | madeShort => exact (sameClock_requeued _ _ s).trans (sameClock_modify _ _ _)
  | @changed p lp policy' s₁ _ _ _ _ _ hsame =>
    have hbefore : SameClock s s₁ := ⟨hsame.jiffies, by rw [hsame.rq]⟩
    exact hbefore.trans (sameClock_requeued _ _ s₁)

end Sys

/-! ## How a step changes the array and the timestamp -/

/-- The timestamp stays, and no task enters. -/
structure NoneEnters (s s' : Sys) : Prop where
  stamp : s'.rq.expiredTimestamp = s.rq.expiredTimestamp
  waits : ∀ t, InExpired s' t → InExpired s t

/-- The timestamp is cleared, and no task waits. -/
structure NoneWaits (s : Sys) : Prop where
  stamp : s.rq.expiredTimestamp = 0
  empty : ∀ t, ¬InExpired s t

/-- What a step does to the timestamp and to the tasks that wait. -/
inductive ClockStep (s s' : Sys) : Prop
  | kept (hjiffies : s.jiffies ≤ s'.jiffies) (h : NoneEnters s s')
  /-- the arrays were exchanged, or nothing is left to run -/
  | cleared (hjiffies : s.jiffies ≤ s'.jiffies) (h : NoneWaits s')
  /-- a tick puts `current` into the array -/
  | entered (hjiffies : s'.jiffies = s.jiffies)
      (hstamp : s'.rq.expiredTimestamp =
        if s.rq.expiredTimestamp = 0 then s.jiffies else s.rq.expiredTimestamp)

theorem le_of_same_jiffies (h : s'.jiffies = s.jiffies) : s.jiffies ≤ s'.jiffies := by
  rw [h]
  exact UInt32.le_refl _

theorem SameClock.clockStep (h : SameClock s s') (hin : ∀ t, InExpired s' t → InExpired s t) :
    ClockStep s s' :=
  .kept (le_of_same_jiffies h.jiffies) ⟨h.stamp, hin⟩

namespace Sys

/-- A pass of `schedule` clears the timestamp only of an array that is empty. -/
theorem RqInv.pass_clock (h : s.RqInv) (hpass : s.schedulePass = some s') :
    NoneEnters s s' ∨ NoneWaits s' := by
  obtain ⟨s₁, s₃, next, s₂, hpass', hfrom, -⟩ :=
    h.toRqAgree.schedulePass fun hc => h.idle_runs.not_goesToSleep hc
  rw [hpass] at hpass'
  obtain rfl := Option.some.inj hpass'
  have hframe := schedulePass_frame hpass
  have hd := hfrom.frame
  -- the deactivation of `prev` leaves the timestamp alone
  have hstamp₁ : s₁.rq.expiredTimestamp = s.rq.expiredTimestamp := by
    have hprev := hfrom.prev
    by_cases hsleep : (s.passBegin.task s.rq.curr).GoesToSleep
    · rw [deactivatePrev_of_asleep hsleep] at hprev
      obtain ⟨array, -, rfl⟩ := deactivateTask_eq_some hprev
      rw [modify_rq, dequeueTask_ptrs]
      rfl
    · rw [deactivatePrev_of_awake hsleep] at hprev
      rw [← Option.some.inj hprev]
      rfl
  have hswitch : s'.rq.expiredTimestamp = s₂.rq.expiredTimestamp ∧ s'.rq.expired = s₂.rq.expired := by
    rw [hfrom.switch]
    unfold switchTasks
    split <;> exact ⟨rfl, rfl⟩
  have harray : ∀ t, (s'.task t).array = (s₁.task t).array := by
    intro t
    rw [hframe.array, hd.array]
  have hkept : s₂ = s₁ → NoneEnters s s' := by
    rintro rfl
    refine ⟨hswitch.1.trans hstamp₁, fun t ht => ?_⟩
    rw [InExpired, hswitch.2, hd.ptrs.expired, hframe.array] at ht
    split at ht
    · cases ht
    · exact ht
  cases hfrom.pick with
  | idle hempty =>
    refine .inr ⟨hswitch.1, fun t ht => ?_⟩
    rw [InExpired, harray] at ht
    exact hfrom.layout.array_ne (hempty _) t ht
  | rtShort | active | overdue => exact .inl (hkept rfl)
  | expired _ hactive =>
    refine .inr ⟨hswitch.1, fun t ht => ?_⟩
    rw [InExpired, harray, hswitch.2] at ht
    exact hfrom.layout.array_ne hactive t ht

/-- `schedule` resets it when it switches the arrays. -/
theorem RqInv.schedule_clock (h : s.RqInv) (hsched : s.schedule = some s') : ClockStep s s' := by
  have hpass : ∀ s₁ s₂ : Sys,
      s₁.RqInv ∧ s₁.jiffies = s.jiffies ∧ (NoneEnters s s₁ ∨ NoneWaits s₁) →
      s₁.schedulePass = some s₂ →
      s₂.RqInv ∧ s₂.jiffies = s.jiffies ∧ (NoneEnters s s₂ ∨ NoneWaits s₂) := by
    rintro s₁ s₂ ⟨hinv, hjiffies, hs⟩ hpass
    refine ⟨hinv.schedulePass hpass, (schedulePass_frame hpass).jiffies.trans hjiffies, ?_⟩
    rcases hinv.pass_clock hpass with hin | hclear
    · rcases hs with hs | hs
      · exact .inl ⟨hin.stamp.trans hs.stamp, fun t ht => hs.waits t (hin.waits t ht)⟩
      · exact .inr ⟨hin.stamp.trans hs.stamp, fun t ht => hs.empty t (hin.waits t ht)⟩
    · exact .inr hclear
  obtain ⟨-, hjiffies, hs⟩ :=
    scheduleLoop_induct hpass hsched ⟨h, rfl, .inl ⟨rfl, fun _ ht => ht⟩⟩
  rcases hs with hs | hs
  · exact .kept (le_of_same_jiffies hjiffies) hs
  · exact .cleared (le_of_same_jiffies hjiffies) hs

variable [Param]

/-- A tick sets the timestamp when it puts a task into an array without one. -/
theorem schedulerTick_clock (s : Sys) : ClockStep s s.schedulerTick := by
  have hexpire : s.expireState.rq.toRqPtrs = s.rq.toRqPtrs := dequeueTask_ptrs _ _ _
  have hjiffies : s.expireState.jiffies = s.jiffies := dequeueTask_jiffies _ _ _
  have htail : ∀ (s₁ : Sys) (p : TaskId) (array : PrioArrayPtr),
      SameClock s₁ (s₁.enqueueTail p array) := fun s₁ p array =>
    ⟨(sameFrame_enqueueTail s₁ p array).jiffies, by rw [enqueueTail_ptrs]⟩
  have hptrs := samePtrs_schedulerTick s
  -- nobody but `current` is moved
  have hwaits : (s.schedulerTick.task s.rq.curr).array ≠ some s.rq.expired ∨
      InExpired s s.rq.curr → ∀ t, InExpired s.schedulerTick t → InExpired s t := by
    intro hcurr t ht
    rw [InExpired, hptrs.expired] at ht
    by_cases hne : t = s.rq.curr
    · subst hne
      exact hcurr.elim (fun h => absurd ht h) id
    · rwa [schedulerTick_task_of_ne hne] at ht
  have hcase := s.schedulerTick_cases
  generalize s.schedulerTick = s' at hcase hwaits hptrs ⊢
  cases hcase with
  | idle | fifo => exact SameClock.clockStep ⟨rfl, rfl⟩ fun _ ht => ht
  | expired _ h => exact SameClock.clockStep ⟨rfl, rfl⟩ (hwaits (.inr h))
  | rr h =>
    refine SameClock.clockStep ⟨rfl, rfl⟩ (hwaits (.inl ?_))
    rw [modify_proj (fun t => t.array) rfl]
    exact h.2
  | run h =>
    refine SameClock.clockStep ⟨rfl, rfl⟩ (hwaits (.inl ?_))
    rw [modify_proj (fun t => t.array) (Task.tick_frame _).1]
    exact h.2
  | rrRefill =>
    refine SameClock.clockStep ?_ (hwaits (.inl ?_))
    · refine SameClock.trans ⟨?_, ?_⟩ (htail _ _ _)
      · rw [dequeueTask_jiffies]
        rfl
      · rw [dequeueTask_ptrs]
        rfl
    · obtain ⟨-, hre, -⟩ := ptrs_ne s.rq.toRqPtrs
      rw [enqueueTail_task, Function.update_self]
      exact fun hc => hre (Option.some.inj hc)
  | requeue =>
    refine SameClock.clockStep ?_ (hwaits (.inl ?_))
    · refine SameClock.trans ⟨hjiffies, ?_⟩ (htail _ _ _)
      rw [hexpire]
    · rw [enqueueTail_task, Function.update_self]
      exact fun hc => pointer_ne_expired _ _ (Option.some.inj hc)
  | toExpired =>
    have hstamp := htail s.expireState.stampExpired s.rq.curr s.rq.expired
    refine .entered (hstamp.jiffies.trans ?_) (hstamp.stamp.trans ?_)
    · unfold stampExpired
      split <;> exact hjiffies
    · unfold stampExpired
      rw [hexpire, hjiffies]
      split
      · rfl
      · rw [hexpire]

omit [Param] in
/-- An operation that keeps the arrays of the tasks apart from one, which it does not queue in
`expired`. -/
theorem waits_of_ptrs (hptrs : SamePtrs s.rq.toRqPtrs s'.rq.toRqPtrs)
    (harray : ∀ t, (s'.task t).array = (s.task t).array ∨
      (s'.task t).array ≠ some s.rq.expired) : ∀ t, InExpired s' t → InExpired s t := by
  intro t ht
  rw [InExpired, hptrs.expired] at ht
  rcases harray t with h | h
  · rw [h] at ht
    exact ht
  · exact absurd ht h

/-- `setscheduler` queues its target in the array of its new class. -/
theorem setscheduler_waits {pid policy : ℤ} {param : UserParam} {r : ℤ} (hflags : s.NoFlags)
    (h : s.setscheduler pid policy param = some (r, s')) (t : TaskId) :
    (s'.task t).array = (s.task t).array ∨ (s'.task t).array ≠ some s.rq.expired := by
  have hmoved : ∀ (array : Option PrioArrayPtr) (u : TaskSched),
      (array.map fun _ => pointerToMyActivePrioArray u s.rq.toRqPtrs) ≠ some s.rq.expired := by
    intro array u hc
    obtain ⟨_, -, hc⟩ := Option.map_eq_some_iff.mp hc
    exact pointer_ne_expired _ _ hc
  cases SetschedCase.of_eq_some h with
  | refused _ hsame => exact .inl (hsame.sameTasks.array t)
  | adjusted =>
    left
    rw [(SameTasks.setTskNeedResched _ _).array, modify_proj (fun t => t.array) rfl]
  | @madeShort p lp =>
    rw [(SameTasks.setTskNeedResched _ _).array,
      (requeued_frame (f := Task.makeShort lp) (fun _ => rfl) (hflags t)
        (fun _ => ⟨rfl, rfl, rfl, rfl⟩) p).1]
    split
    · exact .inr (hmoved _ _)
    · exact .inl rfl
  | @changed p lp policy' s₁ _ _ _ _ _ hsame =>
    rw [(requeued_frame (f := Task.setPolicy policy' lp) (fun _ => rfl)
      (hflags.sameTasks hsame.sameTasks t) (fun _ => ⟨rfl, rfl, rfl, rfl⟩) p).1, hsame.rq]
    split
    · exact .inr (hmoved _ _)
    · exact .inl (hsame.sameTasks.array t)

/-- **Every step** of the scheduler under a clock that does not go back. -/
theorem clockStep (hinv : s.RqInv) (hflags : s.NoFlags) (hop : ClockForward s op)
    (hstep : Step s op s') : ClockStep s s' := by
  have hpulled : ∀ t p, t ∉ s.pulled p := fun t p hp => justGotForked_of_mem_pulled hp (hflags t)
  obtain ⟨hen, hexec⟩ := hstep
  cases op with
  | tryToWakeUp p sync =>
    obtain rfl := Option.some.inj hexec
    refine (sameClock_tryToWakeUp p sync s).clockStep
      (waits_of_ptrs (samePtrs_tryToWakeUp p sync s) fun t => ?_)
    rw [tryToWakeUp_array]
    split
    · exact .inr fun hc => pointer_ne_expired _ _ (Option.some.inj hc)
    · exact .inl rfl
  | schedule => exact hinv.schedule_clock hexec
  | schedulerTick =>
    obtain rfl := Option.some.inj hexec
    exact schedulerTick_clock s
  | setUserNice p nice =>
    obtain rfl := Option.some.inj hexec
    exact (sameClock_setUserNice p nice s).clockStep
      (waits_of_ptrs (.of_eq (setUserNice_ptrs p nice s)) fun t =>
        .inl (setUserNice_frame p t nice s (hpulled t p)).1)
  | setscheduler pid policy param =>
    obtain ⟨r, hr, rfl⟩ := Option.map_eq_some_iff.mp hexec
    exact (sameClock_setscheduler hr).clockStep
      (waits_of_ptrs (samePtrs_setscheduler hr) (setscheduler_waits hflags hr))
  | sysSchedYield =>
    have hyield : s.sysSchedYield = some s' := hexec
    unfold sysSchedYield at hyield
    simp only [Option.bind_eq_bind, Option.bind_eq_some_iff] at hyield
    obtain ⟨s₁, hyield, hsched⟩ := hyield
    obtain ⟨array, harray, hframe⟩ := yieldRequeue_eq_some hyield
    have hwaits : ∀ t, InExpired s₁ t → InExpired s t := by
      refine waits_of_ptrs (.of_eq hframe.ptrs) fun t => .inl ?_
      rw [hframe.task, Function.update_apply]
      split
      · next ht => rw [ht]
      · rfl
    cases (hinv.yieldRequeue hen.2 hyield).schedule_clock hsched with
    | kept hjiffies h =>
      rw [hframe.jiffies] at hjiffies
      exact .kept hjiffies ⟨h.stamp.trans (by rw [hframe.ptrs]), fun t ht =>
        hwaits t (h.waits t ht)⟩
    | cleared hjiffies h =>
      rw [hframe.jiffies] at hjiffies
      exact .cleared hjiffies h
    | entered hjiffies hstamp =>
      rw [hframe.jiffies, hframe.ptrs] at hstamp
      exact .entered (hjiffies.trans hframe.jiffies) hstamp
  | setCurrentState state =>
    obtain rfl := Option.some.inj hexec
    exact (sameClock_modify _ _ s).clockStep
      (waits_of_ptrs (.refl _) fun t => .inl (modify_proj (fun t => t.array) rfl t))
  | setSigpending p pending =>
    obtain rfl := Option.some.inj hexec
    exact (sameClock_modify _ _ s).clockStep
      (waits_of_ptrs (.refl _) fun t => .inl (modify_proj (fun t => t.array) rfl t))
  | setJiffies jiffies =>
    obtain rfl := Option.some.inj hexec
    exact .kept hop ⟨rfl, fun _ ht => ht⟩
  | doFork | doForkSplit | doForkWake | vforkReturn | schedExit | doExit => exact absurd hop id

end Sys

/-! ## The history of entries -/

variable [Param]

/-- The history variable: the clock when a task last came into `rq->expired`. -/
def recordEntry (s : Sys) (op : Op) (entered : TaskId → UInt32) : TaskId → UInt32 :=
  match op.exec s with
  | none => entered
  | some s' => fun t => if InExpired s' t ∧ ¬InExpired s t then s.jiffies else entered t

/-- The timestamp is no later than any entry, and no entry is in the future. -/
structure Clocked (s : Sys) (entered : TaskId → UInt32) : Prop where
  inv : s.RqInv
  noFlags : s.NoFlags
  jiffies : s.jiffies ≠ 0
  stamp : s.rq.expiredTimestamp ≤ s.jiffies
  waits : ∀ t, InExpired s t → s.rq.expiredTimestamp ≠ 0 ∧ s.rq.expiredTimestamp ≤ entered t ∧
    entered t ≤ s.jiffies

/-- **Every step** keeps the entry times behind the time stamp. -/
theorem Clocked.step {entered entered' : TaskId → UInt32} (h : Clocked s entered)
    (hstep : Ghost (Guarded ClockForward Step) recordEntry (s, entered) op (s', entered')) :
    Clocked s' entered' := by
  obtain ⟨⟨hop, hstep⟩, hentered⟩ := hstep
  obtain ⟨hinv, hflags⟩ := RqInv.step_inScheduler ⟨h.inv, h.noFlags⟩ hop.inScheduler hstep
  have hnew : ∀ t, entered' t = if InExpired s' t ∧ ¬InExpired s t then s.jiffies else entered t := by
    intro t
    have hexec : op.exec s = some s' := hstep.2
    have hrec : entered' = recordEntry s op entered := hentered
    rw [hrec, recordEntry, hexec]
  have hmono : s.jiffies ≤ s'.jiffies → s'.jiffies ≠ 0 := by
    intro hle hc
    rw [hc] at hle
    exact h.jiffies (UInt32.le_antisymm hle UInt32.zero_le)
  cases clockStep h.inv h.noFlags hop hstep with
  | kept hjiffies hkept =>
    refine ⟨hinv, hflags, hmono hjiffies, ?_, fun t ht => ?_⟩
    · rw [hkept.stamp]
      exact UInt32.le_trans h.stamp hjiffies
    · have hwas := hkept.waits t ht
      obtain ⟨hset, hle, hlate⟩ := h.waits t hwas
      rw [hkept.stamp, hnew, if_neg fun hc => hc.2 hwas]
      exact ⟨hset, hle, UInt32.le_trans hlate hjiffies⟩
  | cleared hjiffies hcleared =>
    refine ⟨hinv, hflags, hmono hjiffies, ?_, fun t ht => absurd ht (hcleared.empty t)⟩
    rw [hcleared.stamp]
    exact UInt32.zero_le
  | entered hjiffies hstamp =>
    have hstamp' : s'.rq.expiredTimestamp ≤ s.jiffies := by
      rw [hstamp]
      split
      · exact UInt32.le_refl _
      · exact h.stamp
    refine ⟨hinv, hflags, hmono (le_of_same_jiffies hjiffies), by rwa [hjiffies], fun t ht => ?_⟩
    rw [hnew, hjiffies]
    by_cases hwas : InExpired s t
    · obtain ⟨hset, hle, hlate⟩ := h.waits t hwas
      rw [hstamp, if_neg hset, if_neg fun hc => hc.2 hwas]
      exact ⟨hset, hle, hlate⟩
    · rw [if_pos ⟨ht, hwas⟩]
      refine ⟨?_, hstamp', UInt32.le_refl _⟩
      rw [hstamp]
      split
      · exact h.jiffies
      · next hset => exact hset

/-! ## The tick that meets a starving array -/

/-- Once the array starves, a tick that uses up a slice and leaves an OTHER task puts it there. -/
theorem Sys.RqInv.schedulerTick_toExpired (h : s.RqInv) (hcharged : s.Charged)
    (hslice : s.current.timeSlice = 1) (hstarving : s.ExpiredStarving)
    (hother : (s.schedulerTick.task s.rq.curr).OtherTask) :
    (s.schedulerTick.task s.rq.curr).array = some s.rq.expired := by
  -- a real-time task stays one
  have hrt : ¬s.current.RtTask := by
    intro hrt
    rw [TaskSched.OtherTask, schedulerTick_sched, if_pos ⟨rfl, hcharged⟩] at hother
    have hpolicy : s.current.afterTick.policy = s.current.policy := by
      rcases s.current.afterTick_cases with ⟨_, _, -, heq⟩ | ⟨hnot, -⟩
      · rw [heq]
      · exact absurd hrt hnot
    rw [hpolicy] at hother
    rcases (h.tasks _ hcharged.1).ok.rtTask_iff.mp hrt with hc | hc
    · exact absurd (hc.symm.trans hother) (by decide)
    · exact absurd (hc.symm.trans hother) (by decide)
  have hlast : s.current.timeSlice - 1 = 0 := sub_one_eq_zero.mpr hslice
  have hptrs : s.expireState.rq.toRqPtrs = s.rq.toRqPtrs := dequeueTask_ptrs _ _ _
  have hjiffies : s.expireState.jiffies = s.jiffies := dequeueTask_jiffies _ _ _
  have hcase := s.schedulerTick_cases
  generalize s.schedulerTick = s' at hcase hother ⊢
  cases hcase with
  | idle hidle => exact absurd hidle hcharged.1
  | expired _ hin => exact absurd hin hcharged.2
  | fifo _ hc | rr _ hc | rrRefill _ hc => exact absurd hc hrt
  | run _ _ hleft => exact absurd hlast hleft
  | toExpired => rw [enqueueTail_task, Function.update_self]
  | requeue _ _ _ hto =>
    rw [enqueueTail_task, Function.update_self] at hother
    refine absurd ⟨hother, .inr ?_⟩ hto
    rw [ExpiredStarving, hptrs, hjiffies]
    exact hstarving

/-- A task that has waited long enough makes the array starve. -/
theorem Clocked.starving {entered : TaskId → UInt32} (h : Clocked s entered) (hin : InExpired s t)
    (hlong : starvationLimit * s.rq.nrRunning + 1 ≤
      (s.jiffies.toNat : ℤ) - (entered t).toNat) : s.ExpiredStarving := by
  obtain ⟨hset, hle, -⟩ := h.waits t hin
  refine ⟨hset, ?_⟩
  have hentry := UInt32.le_iff_toNat_le.mp hle
  rw [UInt32.toNat_sub_of_le _ _ h.stamp]
  omega

/-- **Expired tasks are not starved.** From empty arrays and under a clock that does not go back,
`expired_timestamp` is set while a task waits and no later than its entry; and once a task has
waited for `STARVATION_LIMIT * nr_running + 1` jiffies, a tick that uses up a slice puts a task
that is OTHER after it into `expired`. -/
theorem expired_not_starved {ops : List Op} {entered entered' : TaskId → UInt32}
    (hinv : s.RqInv) (hflags : s.NoFlags) (hempty : ∀ array, s.ArrayEmpty array)
    (hstamp : s.rq.expiredTimestamp = 0) (hjiffies : s.jiffies ≠ 0)
    (hrun : Run (Ghost (Guarded ClockForward Step) recordEntry) (s, entered) ops (s', entered')) :
    (∀ q, InExpired s' q → s'.rq.expiredTimestamp ≠ 0 ∧ s'.rq.expiredTimestamp ≤ entered' q) ∧
      ∀ q, InExpired s' q →
        starvationLimit * s'.rq.nrRunning + 1 ≤ (s'.jiffies.toNat : ℤ) - (entered' q).toNat →
        s'.Charged → s'.current.timeSlice = 1 →
        (s'.schedulerTick.task s'.rq.curr).OtherTask →
        InExpired s'.schedulerTick s'.rq.curr ∧
          (s'.schedulerTick.task s'.rq.curr).array ≠ some s'.schedulerTick.rq.active := by
  have hstart : Clocked s entered := by
    refine ⟨hinv, hflags, hjiffies, ?_, fun t ht => ?_⟩
    · rw [hstamp]
      exact UInt32.zero_le
    · have hmem : t ∈ s.queue s.rq.expired (s.task t).prio :=
        hinv.layout.mem_queue.mpr ⟨ht, rfl⟩
      exact absurd (hempty _ _) (List.ne_nil_of_mem hmem)
  have hend : Clocked s' entered' := by
    have hinvariant := hrun.invariant (P := fun x : Sys × (TaskId → UInt32) => Clocked x.1 x.2)
      (fun _ _ _ hs hstep => hs.step hstep) hstart
    exact hinvariant
  refine ⟨fun q hq => ⟨(hend.waits q hq).1, (hend.waits q hq).2.1⟩, ?_⟩
  intro q hq hlong hcharged hslice hother
  have harray := hend.inv.schedulerTick_toExpired hcharged hslice (hend.starving hq hlong) hother
  have hptrs := samePtrs_schedulerTick s'
  obtain ⟨hae, -⟩ := ptrs_ne s'.rq.toRqPtrs
  rw [InExpired, hptrs.expired, hptrs.active, harray]
  exact ⟨rfl, fun hc => hae (Option.some.inj hc).symm⟩

/-- Two OTHER tasks with a jiffy each sleep. -/
def twoAsleep : Sys :=
  let task (pid : ℤ) : Task := { timeSlice := 1, state := .interruptible, pid := pid }
  { ofList [task 1, task 2] 0 with jiffies := 1 }

omit [Param] in
theorem rqInv_twoAsleep : twoAsleep.RqInv ∧ twoAsleep.NoFlags := by
  let task (pid : ℤ) : Task := { timeSlice := 1, state := .interruptible, pid := pid }
  have hinv : (ofList [task 1, task 2] 0).RqInv := rqInv_ofList (.inl rfl) (by decide)
  have hflags : (ofList [task 1, task 2] 0).NoFlags := noFlags_ofList (by decide)
  exact ⟨hinv.congr (fun _ => rfl) (fun _ => rfl) rfl rfl, fun t => hflags t⟩

omit [Param] in
/-- A task that has used up its slice waits in `expired`. -/
theorem expired_not_starved_two :
    let ops : List Op := [.tryToWakeUp 1 false, .tryToWakeUp 2 false, .schedule, .schedulerTick,
      .setJiffies 5, .schedule]
    ∃ s' entered', Run (Ghost (Guarded ClockForward (@Step hz100)) (@recordEntry hz100))
        (twoAsleep, fun _ => 0) ops (s', entered') ∧ InExpired s' 1 ∧
      s'.rq.expiredTimestamp ≠ 0 ∧ s'.rq.expiredTimestamp ≤ entered' 1 := by
  intro ops
  have hruns : ((@runIf hz100 ClockForward _ ops twoAsleep).map fun s =>
      decide (InExpired s 1)) = some true := by
    decide +kernel
  obtain ⟨s', hs', hin⟩ := Option.map_eq_some_iff.mp hruns
  have hguarded := (@guarded_run_iff_runIf hz100 _ _ _ _ _).mpr hs'
  obtain ⟨entered', hrun⟩ := @Run.exists_ghost _ _ _ _ (@recordEntry hz100) _ _ _ hguarded fun _ => 0
  have hin' : InExpired s' 1 := of_decide_eq_true hin
  have hempty : ∀ array, twoAsleep.ArrayEmpty array := by
    intro array prio
    cases array <;> rfl
  obtain ⟨hinv, hflags⟩ := rqInv_twoAsleep
  obtain ⟨hwaits, -⟩ :=
    @expired_not_starved _ _ hz100 _ _ _ hinv hflags hempty rfl (by decide) hrun
  exact ⟨s', entered', hrun, hin', hwaits 1 hin'⟩

end ShortSched
