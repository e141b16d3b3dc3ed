import ShortSched.ForkSafety
import ShortSched.Links

/-!
# Sleeping tasks and the runqueue

The scheduler knows whether a task can run in three ways: by its `state`, by its place in a
priority array and, for a task in uninterruptible sleep, by `nr_uninterruptible`. They agree in
every run in which `setscheduler` is called by a running task. A step changes the sleep of one task
only (`SleepMove`).
-/

namespace ShortSched

open General

namespace Sys

/-- The task sleeps in `TASK_UNINTERRUPTIBLE`: `nr_uninterruptible` counts it. -/
abbrev SleepsUninterruptible (s : Sys) (t : TaskId) : Prop :=
  (s.task t).state = .uninterruptible ∧ (s.task t).array = none

/-- What `nr_uninterruptible` should be. -/
def countUninterruptible (s : Sys) : ℕ :=
  s.tasklist.countP fun t => s.SleepsUninterruptible t

/-- At most the task `p` goes to sleep or wakes up, and `nr_uninterruptible` is told. -/
structure SleepMove (p : TaskId) (s s' : Sys) : Prop where
  state : ∀ t, t ≠ p → (s'.task t).state = (s.task t).state
  array : ∀ t, t ≠ p → ((s'.task t).array = none ↔ (s.task t).array = none)
  counted : s'.rq.nrUninterruptible = s.rq.nrUninterruptible +
    (if s'.SleepsUninterruptible p then 1 else 0) - if s.SleepsUninterruptible p then 1 else 0
  tasklist : s'.tasklist = s.tasklist
  idle : s'.rq.idle = s.rq.idle

/-- No task goes to sleep or wakes up. -/
structure SameSleep (s s' : Sys) : Prop where
  state : ∀ t, (s'.task t).state = (s.task t).state
  array : ∀ t, (s'.task t).array = none ↔ (s.task t).array = none
  counted : s'.rq.nrUninterruptible = s.rq.nrUninterruptible
  tasklist : s'.tasklist = s.tasklist
  idle : s'.rq.idle = s.rq.idle
  curr : s'.rq.curr = s.rq.curr

variable {s s' s'' : Sys} {p t : TaskId}

namespace SameSleep

theorem refl (s : Sys) : SameSleep s s := ⟨fun _ => rfl, fun _ => Iff.rfl, rfl, rfl, rfl, rfl⟩

theorem trans (h : SameSleep s s') (h' : SameSleep s' s'') : SameSleep s s'' where
  state t := (h'.state t).trans (h.state t)
  array t := (h'.array t).trans (h.array t)
  counted := h'.counted.trans h.counted
  tasklist := h'.tasklist.trans h.tasklist
  idle := h'.idle.trans h.idle
  curr := h'.curr.trans h.curr

/-- An update that leaves the state and the array of a task alone. -/
theorem modify {f : Task → Task} (hstate : (f (s.task p)).state = (s.task p).state)
    (harray : (f (s.task p)).array = (s.task p).array) : SameSleep s (s.modify p f) where
  state := modify_proj (fun t => t.state) hstate
  array t := by rw [modify_proj (fun t => t.array) harray]
  counted := rfl
  tasklist := rfl
  idle := rfl
  curr := rfl

/-- A step that leaves the records of sleep alone moves no task. -/
theorem move (h : SameSleep s s') (p : TaskId) : SleepMove p s s' where
  state t _ := h.state t
  array t _ := h.array t
  counted := by
    have hsame : s'.SleepsUninterruptible p ↔ s.SleepsUninterruptible p := by
      rw [SleepsUninterruptible, h.state, h.array]
    rw [if_congr hsame rfl rfl, h.counted]
    omega
  tasklist := h.tasklist
  idle := h.idle

end SameSleep

/-! ## The invariant -/

/-- `state`, `array` and `nr_uninterruptible` agree. -/
structure SleepInv (s : Sys) : Prop where
  nodup : s.tasklist.Nodup
  listed : ∀ t, (s.task t).array ≠ none → t ∈ s.tasklist
  /-- a task that can run is on the runqueue -/
  queued : ∀ t ∈ s.tasklist, t ≠ s.rq.idle → (s.task t).state = .running → (s.task t).array ≠ none
  /-- a task on the runqueue can run, or is about to leave it -/
  running : ∀ t, (s.task t).array ≠ none → (s.task t).state = .running ∨ t = s.rq.curr
  counted : s.rq.nrUninterruptible = s.countUninterruptible

/-- Two counts of a list without repetitions that differ at one of its elements at most. -/
theorem countP_move {α : Type*} {P Q : α → Prop} [DecidablePred P] [DecidablePred Q]
    [DecidableEq α] {l : List α} {a : α} (hl : l.Nodup) (h : ∀ x, x ≠ a → (Q x ↔ P x))
    (ha : a ∈ l ∨ (Q a ↔ P a)) :
    (l.countP (fun x => Q x) : ℤ) = l.countP (fun x => P x) + (if Q a then 1 else 0) -
      if P a then 1 else 0 := by
  by_cases hmem : a ∈ l
  · have hcount : ∀ (R : α → Prop) [DecidablePred R],
        (l.countP (fun x => R x) : ℤ) = (l.erase a).countP (fun x => R x) + if R a then 1 else 0 := by
      intro R _
      rw [(List.perm_cons_erase hmem).countP_eq, List.countP_cons]
      by_cases hR : R a <;> simp [hR]
    have hrest : (l.erase a).countP (fun x => Q x) = (l.erase a).countP fun x => P x := by
      apply List.countP_congr
      intro x hx
      rw [decide_eq_true_eq, decide_eq_true_eq]
      exact h x (hl.mem_erase_iff.mp hx).1
    rw [hcount Q, hcount P, hrest]
    omega
  · have hiff := ha.resolve_left hmem
    have hrest : l.countP (fun x => Q x) = l.countP fun x => P x := by
      apply List.countP_congr
      intro x hx
      rw [decide_eq_true_eq, decide_eq_true_eq]
      exact h x fun hc => hmem (hc ▸ hx)
    rw [hrest, if_congr hiff rfl rfl]
    omega

theorem SleepMove.sleeps_iff (h : SleepMove p s s') (ht : t ≠ p) :
    s'.SleepsUninterruptible t ↔ s.SleepsUninterruptible t := by
  rw [SleepsUninterruptible, h.state t ht, h.array t ht]

/-- **One task** moves. -/
theorem SleepInv.move (h : SleepInv s) (hmove : SleepMove p s s')
    (hlisted : p ∈ s.tasklist ∨ (s'.task p).array = none ∧
      (s'.SleepsUninterruptible p ↔ s.SleepsUninterruptible p))
    (hqueued : (s'.task p).state = .running → p ≠ s.rq.idle → (s'.task p).array ≠ none)
    (hrunning : (s'.task p).array ≠ none → (s'.task p).state = .running ∨ p = s'.rq.curr)
    (hcurr : s'.rq.curr = s.rq.curr ∨ p = s.rq.curr) : SleepInv s' where
  nodup := by
    rw [hmove.tasklist]
    exact h.nodup
  listed t ht := by
    rw [hmove.tasklist]
    by_cases htp : t = p
    · subst htp
      exact hlisted.resolve_right fun hc => ht hc.1
    · exact h.listed t (mt (hmove.array t htp).mpr ht)
  queued t ht hidle hstate := by
    rw [hmove.tasklist] at ht
    rw [hmove.idle] at hidle
    by_cases htp : t = p
    · subst htp
      exact hqueued hstate hidle
    · rw [hmove.state t htp] at hstate
      exact mt (hmove.array t htp).mp (h.queued t ht hidle hstate)
  running t ht := by
    by_cases htp : t = p
    · subst htp
      exact hrunning ht
    · rw [hmove.state t htp]
      refine (h.running t (mt (hmove.array t htp).mpr ht)).imp_right fun htc => ?_
      rcases hcurr with hcurr | hcurr
      · rw [hcurr, htc]
      · exact absurd (htc.trans hcurr.symm) htp
  counted := by
    -- the counter follows the one task that moves
    have hcount := countP_move (P := s.SleepsUninterruptible) (Q := s'.SleepsUninterruptible)
      (a := p) h.nodup (fun t ht => hmove.sleeps_iff ht) (hlisted.imp_right fun hsame => hsame.2)
    rw [hmove.counted, h.counted, countUninterruptible, countUninterruptible, hmove.tasklist, hcount]

/-- No listed task goes to sleep or wakes up, and no other task is put on the runqueue. -/
theorem SleepInv.congr (h : SleepInv s)
    (hstate : ∀ t ∈ s.tasklist, (s'.task t).state = (s.task t).state)
    (harray : ∀ t ∈ s.tasklist, (s'.task t).array = none ↔ (s.task t).array = none)
    (hother : ∀ t, t ∉ s.tasklist → (s'.task t).array = none)
    (hcounted : s'.rq.nrUninterruptible = s.rq.nrUninterruptible)
    (htasklist : s'.tasklist = s.tasklist) (hidle : s'.rq.idle = s.rq.idle)
    (hcurr : s'.rq.curr = s.rq.curr) : SleepInv s' := by
  -- no task outside the list is queued
  have hlisted : ∀ t, (s'.task t).array ≠ none → t ∈ s.tasklist := fun t ht => by
    by_contra hnot
    exact ht (hother t hnot)
  constructor
  case nodup =>
    rw [htasklist]
    exact h.nodup
  case listed =>
    rw [htasklist]
    exact hlisted
  case queued =>
    intro t ht hne hruns
    rw [htasklist] at ht
    rw [hidle] at hne
    rw [hstate t ht] at hruns
    exact mt (harray t ht).mp (h.queued t ht hne hruns)
  case running =>
    intro t ht
    have hmem := hlisted t ht
    rw [hstate t hmem, hcurr]
    exact h.running t (mt (harray t hmem).mpr ht)
  case counted =>
    have hcount : s'.countUninterruptible = s.countUninterruptible := by
      unfold countUninterruptible
      rw [htasklist]
      apply List.countP_congr
      intro t ht
      rw [decide_eq_true_eq, decide_eq_true_eq, SleepsUninterruptible, hstate t ht, harray t ht]
    rw [hcounted, h.counted, hcount]

theorem SleepInv.same (h : SleepInv s) (hsame : SameSleep s s') : SleepInv s' := by
  refine h.congr (fun t _ => hsame.state t) (fun t _ => hsame.array t) (fun t ht => ?_)
    hsame.counted hsame.tasklist hsame.idle hsame.curr
  by_contra hqueued
  exact ht (h.listed t (mt (hsame.array t).mpr hqueued))

/-! ## The steps of the scheduler -/

theorem RqAgree.current_ne_none (h : s.RqAgree) (hne : s.rq.curr ≠ s.rq.idle) :
    s.current.array ≠ none := by
  obtain ⟨array, hqueued⟩ := h.current_queued hne
  rw [hqueued]
  exact Option.some_ne_none _

theorem sameSleep_setTskNeedResched (p : TaskId) (s : Sys) : SameSleep s (s.setTskNeedResched p) :=
  .modify rfl rfl

/-- A queued task is put on another queue. -/
theorem SameSleep.requeue (hstate : ∀ t, (s'.task t).state = (s.task t).state)
    (hother : ∀ t, t ≠ p → (s'.task t).array = (s.task t).array)
    (hp : (s.task p).array ≠ none) (hp' : (s'.task p).array ≠ none)
    (hcounted : s'.rq.nrUninterruptible = s.rq.nrUninterruptible)
    (htasklist : s'.tasklist = s.tasklist) (hidle : s'.rq.idle = s.rq.idle)
    (hcurr : s'.rq.curr = s.rq.curr) : SameSleep s s' where
  state := hstate
  array t := by
    by_cases ht : t = p
    · subst ht
      exact iff_of_false hp' hp
    · rw [hother t ht]
  counted := hcounted
  tasklist := htasklist
  idle := hidle
  curr := hcurr

variable [Param]

/-- **Wake-up**: the task runs, and is no longer counted. -/
theorem sleepMove_tryToWakeUp (p : TaskId) (sync : Bool) (s : Sys)
    (hpulled : ∀ t ∈ s.pulled p, (s.task t).array ≠ none) :
    SleepMove p s (s.tryToWakeUp p sync).2 ∧ ((s.tryToWakeUp p sync).2.task p).state = .running ∧
      ((s.tryToWakeUp p sync).2.task p).array ≠ none := by
  have hstate : ((s.tryToWakeUp p sync).2.task p).state = .running := by
    by_cases hp : (s.task p).array = none
    · rw [tryToWakeUp_of_sleeping hp, wakeFinish, modify_task, Function.update_self]
    · rw [tryToWakeUp_of_queued hp, modify_task, Function.update_self]
  have hptrs := samePtrs_tryToWakeUp p sync s
  refine ⟨⟨fun t ht => (tryToWakeUp_frame p t sync s).2 ht, fun t ht => ?_, ?_,
    (sameLists_tryToWakeUp p sync s).tasklist, hptrs.idle⟩, hstate, ?_⟩
  · rw [tryToWakeUp_array]
    split
    · next h => exact iff_of_false (Option.some_ne_none _) (hpulled t (h.2.resolve_left ht))
    · exact Iff.rfl
  · -- it is not counted afterwards; before, only if it slept `TASK_UNINTERRUPTIBLE`
    rw [if_neg fun hc => by rw [hc.1] at hstate; cases hstate]
    by_cases hp : (s.task p).array = none
    · have hfinish : ∀ s : Sys, (s.wakeFinish p).rq.nrUninterruptible = s.rq.nrUninterruptible := by
        intro s
        rw [wakeFinish]
        split <;> rfl
      have hcpu : (if s.FastMigrate p sync then
          s.modify p fun t => { t with cpu := smpProcessorId } else s).rq = s.rq := by
        split <;> rfl
      have hprepare : (s.wakePrepare p sync).rq.nrUninterruptible =
          s.rq.nrUninterruptible - if (s.task p).state = .uninterruptible then 1 else 0 := by
        rw [wakePrepare]
        by_cases hunint : (s.task p).state = .uninterruptible
        · rw [if_pos hunint, if_pos hunint, modifyRq_rq, hcpu]
        · rw [if_neg hunint, if_neg hunint, hcpu, Int.sub_zero]
      have hiff : s.SleepsUninterruptible p ↔ (s.task p).state = .uninterruptible :=
        and_iff_left hp
      rw [tryToWakeUp_of_sleeping hp, hfinish, activateTask_ptrs, hprepare, if_congr hiff rfl rfl]
      omega
    · rw [tryToWakeUp_of_queued hp, if_neg fun hc => hp hc.2]
      simp
  · rw [tryToWakeUp_array]
    split
    · exact Option.some_ne_none _
    · next h => exact fun hc => h ⟨hc, .inl rfl⟩

omit [Param] in
/-- The choice of the next task does not count sleepers. -/
theorem pickNext_nrUninterruptible {next : TaskId} (h : s.pickNext = some (next, s')) :
    s'.rq.nrUninterruptible = s.rq.nrUninterruptible := by
  have hfirst : ∀ (s : Sys) array, (s.firstTask array).map (·, s) = some (next, s') → s' = s := by
    intro s array hmap
    obtain ⟨t, -, heq⟩ := Option.map_eq_some_iff.mp hmap
    exact (Prod.mk.inj heq).2.symm
  unfold pickNext at h
  split at h
  · obtain ⟨-, rfl⟩ := Prod.mk.inj (Option.some.inj h)
    rfl
  split at h
  · rw [hfirst _ _ h]
  split at h
  · rw [hfirst _ _ h]
  split at h
  · rw [hfirst _ _ h]
    rfl
  · rw [hfirst _ _ h]

omit [Param] in
/-- **`schedule`**: a task that does not run on is taken off the runqueue, and is counted if it may
not be interrupted. -/
theorem sleepMove_schedulePass (h : s.schedulePass = some s') :
    SleepMove s.rq.curr s s' ∧
      ((s'.task s.rq.curr).array ≠ none → (s'.task s.rq.curr).state = .running) ∧
      ((s'.task s.rq.curr).state = .running → (s'.task s.rq.curr).array = s.current.array) ∧
      ((s'.task s.rq.curr).state = s.current.state ∨ (s'.task s.rq.curr).state = .running) := by
  have hframe := schedulePass_frame h
  obtain ⟨s₁, next, s₂, hprev, hpick, rfl⟩ := schedulePass_eq_some h
  have hpicked := pickNext_frame hpick
  set s' := s₂.switchTasks s.rq.curr next with hs'
  have hstate : ∀ t, (s'.task t).state = (s₁.task t).state := by
    intro t
    have htask : s'.task = (s₂.clearTskNeedResched s.rq.curr).task := by
      rw [hs', switchTasks]
      split <;> rfl
    rw [htask, clearTskNeedResched, modify_proj (fun t => t.state) rfl, hpicked.task]
  have hcounted : s'.rq.nrUninterruptible = s₁.rq.nrUninterruptible := by
    have hswitch : s'.rq.nrUninterruptible = s₂.rq.nrUninterruptible := by
      rw [hs', switchTasks]
      split <;> rfl
    rw [hswitch, pickNext_nrUninterruptible hpick]
  have harray := hframe.array
  have hbegin : ∀ t, (s.passBegin.task t).state = (s.task t).state :=
    modify_proj (fun t => t.state) rfl
  have hother : ∀ t, t ≠ s.rq.curr → ((s'.task t).array = none ↔ (s.task t).array = none) := by
    intro t ht
    rw [harray, if_neg fun hc => ht hc.1]
  -- the two cases of `switch (prev->state)`
  by_cases hsleep : s.current.GoesToSleep
  · rw [deactivatePrev_of_asleep (s.passBegin_goesToSleep.mpr hsleep)] at hprev
    obtain ⟨array, hqueued, rfl⟩ := deactivateTask_eq_some hprev
    have hqueued' : s.current.array = some array := by
      rw [← hqueued]
      exact (modify_proj (fun t => t.array) rfl _).symm
    have hsame : ∀ t, (s'.task t).state = (s.task t).state := by
      intro t
      rw [hstate, modify_proj (fun t => t.state) rfl, dequeueTask_task]
      exact hbegin t
    have hnone : (s'.task s.rq.curr).array = none := by
      rw [harray, if_pos ⟨rfl, hsleep⟩]
    refine ⟨⟨fun t _ => hsame t, hother, ?_, hframe.tasklist, hframe.ptrs.idle⟩,
      fun hc => absurd hnone hc, fun hc => absurd ((hsame _).symm.trans hc) hsleep.1,
      .inl (hsame _)⟩
    have hiff : s'.SleepsUninterruptible s.rq.curr ↔
        (s.passBegin.task s.rq.curr).state = .uninterruptible := by
      rw [SleepsUninterruptible, hsame, hbegin]
      exact and_iff_left hnone
    have hawake : ¬s.SleepsUninterruptible s.rq.curr := by
      rintro ⟨-, hc⟩
      rw [hqueued'] at hc
      cases hc
    have hdrop : s'.rq.nrUninterruptible = if (s.passBegin.task s.rq.curr).state = .uninterruptible
        then s.rq.nrUninterruptible + 1 else s.rq.nrUninterruptible := by
      rw [hcounted, modify_rq, dequeueTask_ptrs]
      rfl
    rw [hdrop, if_congr hiff rfl rfl, if_neg hawake]
    split <;> omega
  · rw [deactivatePrev_of_awake fun hc => hsleep (s.passBegin_goesToSleep.mp hc)] at hprev
    obtain rfl := Option.some.inj hprev
    have hruns : (s'.task s.rq.curr).state = .running := by
      rw [hstate, modify_task, Function.update_self]
    have hsame : (s'.task s.rq.curr).array = s.current.array := by
      rw [harray, if_neg fun hc => hsleep hc.2]
    refine ⟨⟨fun t ht => ?_, hother, ?_, hframe.tasklist, hframe.ptrs.idle⟩, fun _ => hruns,
      fun _ => hsame, .inr hruns⟩
    · rw [hstate, modify_task, Function.update_of_ne ht, hbegin]
    · -- who runs on has been made `TASK_RUNNING`, and is not counted
      have hawake : ¬s.SleepsUninterruptible s.rq.curr := by
        rintro ⟨hunint, -⟩
        refine hsleep ⟨fun hc => ?_, fun hc => ?_⟩
        · rw [hunint] at hc
          cases hc
        · have hint := hc.1
          rw [hunint] at hint
          cases hint
      have hawake' : ¬s'.SleepsUninterruptible s.rq.curr := by
        rintro ⟨hunint, -⟩
        rw [hruns] at hunint
        cases hunint
      have hsame : s'.rq.nrUninterruptible = s.rq.nrUninterruptible := hcounted
      rw [hsame, if_neg hawake', if_neg hawake]
      omega

omit [Param] in
theorem SameFrame.state (h : SameFrame s s') (t : TaskId) : (s'.task t).state = (s.task t).state :=
  congrArg TaskInfo.state (h.info t)

omit [Param] in
theorem enqueueTail_queued (p : TaskId) (array : PrioArrayPtr) (s : Sys) :
    ((s.enqueueTail p array).task p).array ≠ none := by
  rw [enqueueTail_task, Function.update_self]
  exact Option.some_ne_none _

omit [Param] in
theorem Task.tick_state (t : Task) : t.tick.state = t.state := by
  unfold Task.tick
  split <;> rfl

theorem Task.expire_state (t : Task) : t.expire.state = t.state := by
  unfold Task.expire Task.expireClass
  split
  · rfl
  · split <;> rfl

/-- A tick puts no task to sleep: `current` stays queued. -/
theorem sameSleep_schedulerTick (hagree : s.RqAgree) : SameSleep s s.schedulerTick := by
  have hptrs : s.expireState.rq.toRqPtrs = s.rq.toRqPtrs := dequeueTask_ptrs _ _ _
  have hqueued : s.Charged → s.current.array ≠ none := fun hc => hagree.current_ne_none hc.1
  have hexpire : ∀ t, (s.expireState.task t).state = (s.task t).state := by
    intro t
    rw [expireState_task]
    by_cases ht : t = s.rq.curr
    · subst ht
      rw [Function.update_self, Task.expire_state]
      exact Task.tick_state _
    · rw [Function.update_of_ne ht]
  have hsame := samePtrs_schedulerTick s
  have hlists := sameLists_schedulerTick s
  have hcase := s.schedulerTick_cases
  have hother : ∀ t, t ≠ s.rq.curr → (s.schedulerTick.task t).array = (s.task t).array :=
    fun t ht => by rw [schedulerTick_task_of_ne ht]
  generalize s.schedulerTick = s' at hsame hlists hcase hother ⊢
  cases hcase with
  | idle | fifo => exact .refl s
  | expired | rr => exact .modify rfl rfl
  | run => exact .modify (Task.tick_state _) (Task.tick_frame _).1
  | rrRefill hc =>
    refine .requeue (fun t => ?_) hother (hqueued hc) (enqueueTail_queued _ _ _) ?_
      hlists.tasklist hsame.idle hsame.curr
    · rw [(sameFrame_enqueueTail _ _ _).state, dequeueTask_task, rrRefill, setTskNeedResched,
        modify_proj (fun t => t.state) rfl, modify_proj (fun t => t.state) rfl]
    · rw [enqueueTail_ptrs, dequeueTask_ptrs]
      rfl
  | toExpired hc =>
    refine .requeue (fun t => ?_) hother (hqueued hc) (enqueueTail_queued _ _ _) ?_
      hlists.tasklist hsame.idle hsame.curr
    · rw [(sameFrame_enqueueTail _ _ _).state, stampExpired_task, hexpire]
    · have hstamp : s.expireState.stampExpired.rq.nrUninterruptible =
          s.expireState.rq.nrUninterruptible := by
        unfold stampExpired
        split <;> rfl
      rw [enqueueTail_ptrs, hstamp, hptrs]
  | requeue hc =>
    refine .requeue (fun t => ?_) hother (hqueued hc) (enqueueTail_queued _ _ _) ?_
      hlists.tasklist hsame.idle hsame.curr
    · rw [(sameFrame_enqueueTail _ _ _).state, hexpire]
    · rw [enqueueTail_ptrs, hptrs]

omit [Param] in
/-- A change of the nice value puts no task to sleep and wakes none. -/
theorem sameSleep_setUserNice (p : TaskId) (nice : ℤ) (hflags : s.NoFlags) :
    SameSleep s (s.setUserNice p nice) where
  state t := by
    obtain ⟨needResched, hinfo⟩ := setUserNice_info p t nice s
    show ((s.setUserNice p nice).task t).toTaskInfo.state = _
    rw [hinfo]
  array t := by
    have hpulled : t ∉ s.pulled p := fun ht => justGotForked_of_mem_pulled ht (hflags t)
    rw [(setUserNice_frame p t nice s hpulled).1]
  counted := by rw [setUserNice_ptrs]
  tasklist := (sameLists_setUserNice p nice s).tasklist
  idle := by rw [setUserNice_ptrs]
  curr := by rw [setUserNice_ptrs]

/-- A change of the policy neither, unless the task is about to leave the runqueue: then it is
counted as if it slept. -/
theorem sameSleep_requeued {f : Task → Task} (hflags : s.NoFlags)
    (hframe : ∀ t : Task, (f t).array = t.array ∧ (f t).justGotForked = t.justGotForked ∧
      (f t).pOpptr = t.pOpptr ∧ (f t).state = t.state)
    (hf : ∀ t : Task, f { t with array := none } = { f t with array := none })
    (hawake : (s.task p).array ≠ none → (s.task p).state ≠ .uninterruptible) :
    SameSleep s (s.requeued p f) where
  state t := (requeued_frame hf (hflags t) hframe p).2.2.2
  array t := by
    rw [(requeued_frame hf (hflags t) hframe p).1]
    split
    · next ht => rw [ht, Option.map_eq_none_iff]
    · exact Iff.rfl
  counted := by
    cases harray : (s.task p).array with
    | none =>
      rw [requeued, harray]
      rfl
    | some array =>
      have hstate := hawake (by rw [harray]; exact Option.some_ne_none _)
      rw [requeued_of_queued harray, activateTask_ptrs, dequeued, modify_rq, modify_rq,
        dequeueTask_ptrs, dropRunning, modifyRq_rq]
      exact if_neg hstate
  tasklist := (sameLists_requeued p f s).tasklist
  idle := (samePtrs_requeued p f s).idle
  curr := (samePtrs_requeued p f s).curr

omit [Param] in
/-- Resched flags and privileges are no records of sleep. -/
theorem sameSleep_of_flags (h : SameButFlags s s') : SameSleep s s' where
  state t := by
    obtain ⟨flags, ht⟩ := h.task t
    rw [ht]
  array t := by
    obtain ⟨flags, ht⟩ := h.task t
    rw [ht]
  counted := by rw [h.rq]
  tasklist := h.tasklist
  idle := by rw [h.rq]
  curr := by rw [h.rq]

/-- **`setscheduler`** puts no task to sleep and wakes none, when a running task calls it. -/
theorem SleepInv.setscheduler {pid policy : ℤ} {param : UserParam} {r : ℤ} (h : SleepInv s)
    (hflags : s.NoFlags) (hcurrent : s.current.state = .running)
    (hcall : s.setscheduler pid policy param = some (r, s')) : SameSleep s s' := by
  have hawake : ∀ p, (s.task p).array ≠ none → (s.task p).state ≠ .uninterruptible := by
    intro p hp hunint
    rcases h.running p hp with hruns | rfl
    · rw [hruns] at hunint
      cases hunint
    · rw [hcurrent] at hunint
      cases hunint
  cases SetschedCase.of_eq_some hcall with
  | refused _ hsame => exact sameSleep_of_flags hsame
  | adjusted =>
    exact (SameSleep.modify rfl rfl).trans (sameSleep_setTskNeedResched _ _)
  | @madeShort p lp =>
    have hnew : SameSleep s (s.requeued p (Task.makeShort lp)) :=
      sameSleep_requeued hflags (fun _ => ⟨rfl, rfl, rfl, rfl⟩) (fun _ => rfl) (hawake p)
    exact hnew.trans (sameSleep_setTskNeedResched _ _)
  | @changed p lp policy' s₁ _ _ _ _ _ hsame =>
    have hfirst := sameSleep_of_flags hsame
    refine hfirst.trans (sameSleep_requeued (hflags.sameTasks hsame.sameTasks)
      (fun _ => ⟨rfl, rfl, rfl, rfl⟩) (fun _ => rfl) fun hp => ?_)
    rw [hfirst.state]
    exact hawake p (mt (hfirst.array p).mpr hp)

omit [Param] in
/-- One pass of `schedule` keeps the invariant. -/
theorem SleepInv.schedulePass (h : SleepInv s) (hinv : s.RqInv) (hpass : s.schedulePass = some s') :
    SleepInv s' := by
  obtain ⟨hmove, hrunning, hsame, hstays⟩ := sleepMove_schedulePass hpass
  by_cases hidle : s.rq.curr = s.rq.idle
  · -- the idle task runs and is on no queue
    have hruns : s.current.state = .running := by
      show (s.task s.rq.curr).state = _
      rw [hidle]
      exact hinv.idle_runs
    have hruns' : (s'.task s.rq.curr).state = .running := by
      rwa [hruns, or_self] at hstays
    have harray' := hsame hruns'
    have hnone : s.current.array = none := by
      show (s.task s.rq.curr).array = _
      rw [hidle]
      exact hinv.idle_array
    refine h.move hmove (.inr ⟨harray'.trans hnone, iff_of_false ?_ ?_⟩)
      (fun _ hc => absurd hidle hc) (fun hc => .inl (hrunning hc)) (.inr rfl)
    · rintro ⟨hunint, -⟩
      rw [hruns'] at hunint
      cases hunint
    · rintro ⟨hunint, -⟩
      have hunint' : s.current.state = .uninterruptible := hunint
      rw [hruns] at hunint'
      cases hunint'
  · have hqueued := hinv.toRqAgree.current_ne_none hidle
    refine h.move hmove (.inl (h.listed _ hqueued)) (fun hruns _ => ?_)
      (fun hc => .inl (hrunning hc)) (.inr rfl)
    rw [hsame hruns]
    exact hqueued

omit [Param] in
theorem SleepInv.schedule (h : SleepInv s) (hinv : s.RqInv) (hcall : s.schedule = some s') :
    SleepInv s' := by
  have hloop : s'.RqInv ∧ SleepInv s' := by
    apply scheduleLoop_induct (P := fun s₁ => s₁.RqInv ∧ SleepInv s₁) ?_ hcall ⟨hinv, h⟩
    rintro s₁ s₂ ⟨hinv₁, h₁⟩ hpass
    exact ⟨hinv₁.schedulePass hpass, h₁.schedulePass hinv₁ hpass⟩
  exact hloop.2

omit [Param] in
/-- `schedule` leaves the state of a task alone, or sets it to run. -/
theorem schedule_state (hcall : s.schedule = some s') (t : TaskId) :
    (s'.task t).state = (s.task t).state ∨ (s'.task t).state = .running := by
  apply scheduleLoop_induct
    (P := fun u => (u.task t).state = (s.task t).state ∨ (u.task t).state = .running) ?_ hcall
    (.inl rfl)
  intro u u' h hpass
  obtain ⟨hmove, -, -, hprev⟩ := sleepMove_schedulePass hpass
  by_cases htu : t = u.rq.curr
  · subst htu
    rcases hprev with hsame | hruns
    · have hsame : (u'.task u.rq.curr).state = (u.task u.rq.curr).state := hsame
      rwa [hsame]
    · exact .inr hruns
  · rwa [hmove.state t htu]

omit [Param] in
/-- A task that yields stays queued. -/
theorem sameSleep_yieldRequeue (hyield : s.yieldRequeue = some s') : SameSleep s s' := by
  obtain ⟨array, -, hframe⟩ := yieldRequeue_eq_some hyield
  have htask : ∀ t, (s'.task t).state = (s.task t).state ∧ (s'.task t).array = (s.task t).array := by
    intro t
    rw [hframe.task]
    by_cases ht : t = s.rq.curr
    · rw [ht, Function.update_self]
      exact ⟨rfl, rfl⟩
    · rw [Function.update_of_ne ht]
      exact ⟨rfl, rfl⟩
  exact ⟨fun t => (htask t).1, fun t => by rw [(htask t).2], by rw [hframe.ptrs], hframe.tasklist,
    by rw [hframe.ptrs], by rw [hframe.ptrs]⟩

/-! ## Forks and exits -/

omit [Param] in
theorem Task.parentSplit_state (t : Task) : t.parentSplit.state = t.state := by
  unfold Task.parentSplit
  split
  · split <;> rfl
  · rfl

section forked

variable {cloneFlags : UInt32} {env : ForkEnv} {f : PendingFork}

omit [Param] in
/-- The child of a `do_fork` is not listed yet. -/
theorem SleepInv.copied (h : SleepInv s) (hfresh : Op.FreshTask s env.child) :
    SleepInv (s.copied cloneFlags env) := by
  have hsame : ∀ t ∈ s.tasklist, (s.copied cloneFlags env).task t = s.task t := by
    intro t ht
    refine copied_of_ne ?_
    rintro rfl
    exact hfresh.not_listed ht
  refine h.congr (fun t ht => by rw [hsame t ht]) (fun t ht => by rw [hsame t ht]) (fun t ht => ?_)
    rfl rfl rfl rfl
  by_cases htc : t = env.child
  · rw [htc, copied_child]
    rfl
  · rw [copied_of_ne htc]
    by_contra hqueued
    exact ht (h.listed t hqueued)

omit [Param] in
/-- The split leaves the states and the arrays alone. -/
theorem forkSplit_sleep (hne : f.child ≠ s.rq.curr) (t : TaskId) :
    ((s.forkSplit f).task t).state = (s.task t).state ∧
      ((s.forkSplit f).task t).array = (s.task t).array := by
  by_cases ht : t = f.child
  · have hframe := Task.forkChild_frame s.jiffies s.current (s.task f.child)
    rw [ht, forkSplit_child hne]
    exact ⟨hframe.2.2.2, hframe.1⟩
  by_cases htc : t = s.rq.curr
  · rw [htc, forkSplit_current hne]
    exact ⟨Task.parentSplit_state _, by rw [Task.parentSplit_eq]⟩
  · rw [forkSplit_of_ne ht htc]
    exact ⟨rfl, rfl⟩

/-- The split and the synthetic tick. -/
theorem sameSleep_forked (hinv : s.RqInv) (hne : s.rq.curr ≠ s.rq.idle)
    (hcopy : Op.CopiedTask s f.child) : SameSleep s (s.forked f) := by
  have hsplit : SameSleep s (s.forkSplit f) :=
    ⟨fun t => (forkSplit_sleep hcopy.ne_curr t).1,
      fun t => by rw [(forkSplit_sleep hcopy.ne_curr t).2], rfl, rfl, rfl, rfl⟩
  have hlast : SameSleep (s.forkSplit f) (s.forkSplit f).lastJiffy := by
    rw [lastJiffy_eq]
    split
    · have hagree := ((hinv.forkSplit hne hcopy).setSlice (p := s.rq.curr) hne
        (f := Task.lastJiffy) ⟨1, _, rfl⟩ rfl).toRqAgree
      have hslice : SameSleep (s.forkSplit f)
          ((s.forkSplit f).modify s.rq.curr Task.lastJiffy) := .modify rfl rfl
      exact hslice.trans (sameSleep_schedulerTick hagree)
    · exact .refl _
  exact (hsplit.trans hlast).trans ⟨fun _ => rfl, fun _ => Iff.rfl, rfl, rfl, rfl, rfl⟩

end forked

/-- A child that is woken is running. -/
theorem wakeForkedPrepare_state (p : TaskId) (s : Sys) :
    ((s.wakeForkedPrepare p).task p).state = .running := by
  have hruns : ((s.modify p fun t => { t with state := .running }).task p).state = .running := by
    rw [modify_task, Function.update_self]
  unfold wakeForkedPrepare
  dsimp only
  rw [modify_task, Function.update_self]
  split
  · rw [modify_task, Function.update_self]
    show (((s.modify p _).modify s.rq.curr _).task p).state = _
    rw [modify_proj (fun t => t.state) rfl]
    exact hruns
  · exact hruns

omit [Param] in
theorem sameSleep_forkOut (cloneFlags : UInt32) (s : Sys) : SameSleep s (s.forkOut cloneFlags) := by
  unfold forkOut
  split
  · exact .refl s
  split
  · exact .refl s
  · exact sameSleep_setTskNeedResched _ _

/-- What `do_fork` does to the states from `__restore_flags` on. -/
theorem forkFinish_state (f : PendingFork) (s : Sys) (t : TaskId) :
    ((((s.forkPrepare f).activateTask f.child).forkOut f.cloneFlags).task t).state =
      if t = f.child then .running else (s.task t).state := by
  rw [(sameSleep_forkOut _ _).state, activateTask_task]
  refine (modify_proj (fun t => t.state) (Task.woken_frame _ _).2.2.2 t).trans ?_
  split
  · next ht =>
    rw [ht]
    exact wakeForkedPrepare_state f.child _
  · next ht => exact (forkPrepared f s).state t ht

/-- **The child** of a `do_fork` joins the list of tasks and the runqueue, and runs. -/
theorem SleepInv.doForkWake {f : PendingFork} (h : SleepInv s) (hinv : s.RqInv)
    (hwindow : ForkWindow s f) :
    SleepInv (((s.forkPrepare f).activateTask f.child).forkOut f.cloneFlags) := by
  have hprep := forkPrepared f s
  set s₁ := s.forkPrepare f with hs₁
  set s₂ := s₁.activateTask f.child with hs₂
  have hout : SameSleep s₂ (s₂.forkOut f.cloneFlags) := sameSleep_forkOut _ _
  have htasklist : s₂.tasklist = s.tasklist ++ [f.child] :=
    (sameLists_activateTask f.child s₁).tasklist.trans hprep.tasklist
  have hrq : s₂.rq.toRqPtrs = { s.rq.toRqPtrs with nrRunning := s.rq.nrRunning + 1 } := by
    rw [hs₂, activateTask_ptrs, hprep.rq]
  have hstate : ∀ t, (s₂.task t).state = if t = f.child then .running else (s.task t).state :=
    fun t => (hout.state t).symm.trans (forkFinish_state f s t)
  have hchild : (s₂.task f.child).state = .running ∧ (s₂.task f.child).array ≠ none := by
    refine ⟨by rw [hstate, if_pos rfl], ?_⟩
    rw [hs₂, activateTask_task, if_pos (.inl rfl)]
    exact Option.some_ne_none _
  have harray : ∀ t, t ≠ f.child → ((s₂.task t).array = none ↔ (s.task t).array = none) := by
    intro t ht
    rw [hs₂, activateTask_task]
    dsimp only
    split
    · next hpulled =>
      -- only `current` can be pulled along, and it is queued
      have hflag := justGotForked_of_mem_pulled (hpulled.resolve_left ht)
      rw [hprep.justGotForked] at hflag
      have htc : t = s.rq.curr := by
        by_contra hc
        exact hflag (hwindow.flags t hc)
      subst htc
      exact iff_of_false (Option.some_ne_none _)
        (hinv.toRqAgree.current_ne_none (hwindow.flagged hflag).1)
    · rw [hprep.array]
  have hlisted : ∀ t ∈ s.tasklist, t ≠ f.child := by
    rintro t ht rfl
    exact hwindow.child_not_listed ht
  have hmem : ∀ t, t ∈ s₂.tasklist ↔ t ∈ s.tasklist ∨ t = f.child := by
    intro t
    rw [htasklist, List.mem_append, List.mem_singleton]
  refine SleepInv.same ?_ hout
  constructor
  case nodup =>
    rw [htasklist, ← List.concat_eq_append]
    exact h.nodup.concat hwindow.child_not_listed
  case listed =>
    intro t ht
    rw [hmem]
    by_cases htc : t = f.child
    · exact .inr htc
    · exact .inl (h.listed t (mt (harray t htc).mpr ht))
  case queued =>
    intro t ht hidle hruns
    rw [hrq] at hidle
    by_cases htc : t = f.child
    · rw [htc]
      exact hchild.2
    · rw [hstate, if_neg htc] at hruns
      exact mt (harray t htc).mp
        (h.queued t (((hmem t).mp ht).resolve_right htc) hidle hruns)
  case running =>
    intro t ht
    by_cases htc : t = f.child
    · rw [htc]
      exact .inl hchild.1
    · rw [hstate, if_neg htc, hrq]
      exact h.running t (mt (harray t htc).mpr ht)
  case counted =>
    have hrest : s.tasklist.countP (fun t => s₂.SleepsUninterruptible t) =
        s.countUninterruptible := by
      apply List.countP_congr
      intro t ht
      rw [decide_eq_true_eq, decide_eq_true_eq, SleepsUninterruptible, hstate,
        if_neg (hlisted t ht), harray t (hlisted t ht)]
    have hawake : ¬s₂.SleepsUninterruptible f.child := fun hc => hchild.2 hc.2
    rw [hrq, countUninterruptible, htasklist, List.countP_append, hrest]
    simp only [List.countP_singleton, hawake, decide_false]
    exact h.counted

omit [Param] in
/-- `current` changes its own state while it is on the runqueue. -/
theorem SleepInv.setCurrentState (h : SleepInv s) (hqueued : s.current.array ≠ none)
    (hstate : ∀ t, t ≠ s.rq.curr → (s'.task t).state = (s.task t).state)
    (harray : ∀ t, (s'.task t).array = (s.task t).array) (hrq : s'.rq = s.rq)
    (htasklist : s'.tasklist = s.tasklist) : SleepInv s' := by
  have hqueued' : (s'.task s.rq.curr).array ≠ none := by
    rw [harray]
    exact hqueued
  refine h.move (p := s.rq.curr) ⟨hstate, fun t _ => by rw [harray], ?_, htasklist, by rw [hrq]⟩
    (.inl (h.listed _ hqueued)) (fun _ _ => hqueued') (fun _ => .inr (by rw [hrq])) (.inr rfl)
  rw [if_neg fun hc => hqueued' hc.2, if_neg fun hc => hqueued hc.2, hrq]
  omega

omit [Param] in
/-- A task that has left the runqueue for good is freed. -/
theorem SleepInv.free (h : SleepInv s) (hstate : (s.task p).state = .zombie)
    (harray : (s.task p).array = none) :
    SleepInv { s with tasklist := s.tasklist.erase p } where
  nodup := h.nodup.erase p
  listed t ht := by
    refine (h.nodup.mem_erase_iff).mpr ⟨?_, h.listed t ht⟩
    rintro rfl
    exact ht harray
  queued t ht := h.queued t (List.mem_of_mem_erase ht)
  running := h.running
  counted := by
    have hawake : ¬s.SleepsUninterruptible p := by
      rintro ⟨hunint, -⟩
      rw [hstate] at hunint
      cases hunint
    have hcount : (s.tasklist.erase p).countP (fun t => s.SleepsUninterruptible t) =
        s.countUninterruptible := by
      rw [countUninterruptible, List.countP_erase, decide_eq_false hawake]
      simp
    exact h.counted.trans (congrArg Nat.cast hcount.symm)

end Sys

/-! ## Steps and runs -/

/-- `current` sets its own state. -/
def Op.SetsState : Op → Prop
  | doExit _ | setCurrentState _ => True
  | tryToWakeUp _ _ | schedulerTick | setSigpending _ _ | setJiffies _ | schedule | setUserNice _ _
  | setscheduler _ _ _ | sysSchedYield | doFork _ _ | doForkSplit | doForkWake | vforkReturn
  | schedExit _ => False

/-- A step of a run in which forks do no harm and `setscheduler` is called by a task that runs. -/
def AwakeSafe (s : Sys) (op : Op) : Prop :=
  ForkSafe s op ∧ (op matches .setscheduler _ _ _ → s.current.state = .running)

instance (s : Sys) (op : Op) : Decidable (AwakeSafe s op) := by
  unfold AwakeSafe
  infer_instance

variable {s s' : Sys} {op : Op}

open Sys

/-- Only `current` can be pulled along, and it is queued. -/
theorem ForkInv.pulled_queued {p : TaskId} (h : ForkInv s) :
    ∀ t ∈ s.pulled p, (s.task t).array ≠ none := by
  intro t ht
  have hflag := justGotForked_of_mem_pulled ht
  cases hf : s.forking with
  | none => exact absurd (h.noFlags hf t) hflag
  | some f =>
    have hwindow := h.window f hf
    have htc : t = s.rq.curr := by
      by_contra hc
      exact hflag (hwindow.flags t hc)
    subst htc
    exact h.toRqAgree.current_ne_none (hwindow.flagged hflag).1

variable [Param]

/-- **What a step does to the state** of a task, unless `current` sets its own: it leaves it alone,
or wakes the task up. -/
theorem step_state {t : TaskId} (hfork : ForkInv s) (hsleep : s.SleepInv) (hstep : Step s op s')
    (hsafe : AwakeSafe s op) (ht : t ∈ s.tasklist ∨ ∀ cloneFlags env, op ≠ .doFork cloneFlags env)
    (hcurr : t ≠ s.rq.curr ∨ ¬op.SetsState) :
    (s'.task t).state = (s.task t).state ∨ (s'.task t).state = .running := by
  have hinv := hfork.toRqInv
  obtain ⟨hen, hexec⟩ := hstep
  cases op with
  | tryToWakeUp p sync =>
    obtain rfl := Option.some.inj hexec
    obtain ⟨hmove, hruns, -⟩ := sleepMove_tryToWakeUp p sync s hfork.pulled_queued
    by_cases htp : t = p
    · exact .inr (htp ▸ hruns)
    · exact .inl (hmove.state t htp)
  | schedule => exact schedule_state hexec t
  | schedulerTick =>
    obtain rfl := Option.some.inj hexec
    exact .inl ((sameSleep_schedulerTick hinv.toRqAgree).state t)
  | setUserNice p nice =>
    obtain rfl := Option.some.inj hexec
    exact .inl ((sameSleep_setUserNice p nice (hfork.noFlags hen.1)).state t)
  | setscheduler pid policy param =>
    obtain ⟨⟨r, s₁⟩, hr, rfl⟩ := Option.map_eq_some_iff.mp hexec
    exact .inl ((hsleep.setscheduler (hfork.noFlags hen.1) (hsafe.2 rfl) hr).state t)
  | sysSchedYield =>
    obtain ⟨s₁, hyield, hcall⟩ := Option.bind_eq_some_iff.mp hexec
    rw [← (sameSleep_yieldRequeue hyield).state t]
    exact schedule_state hcall t
  | doFork cloneFlags env =>
    obtain rfl := Option.some.inj hexec
    rcases doFork_cases cloneFlags env s with ⟨-, hsame⟩ | ⟨-, hcopied⟩
    · rw [hsame]
      exact .inl rfl
    · -- only the child's state is new, and it is not listed
      have hchild : t ≠ env.child := by
        rintro rfl
        exact hen.2.not_listed (ht.resolve_right fun hc => hc _ _ rfl)
      rw [hcopied, copied_of_ne hchild]
      exact .inl rfl
  | doForkSplit =>
    obtain ⟨f, -, -, hidle, hcopy, -, rfl⟩ := doForkSplit_step ⟨hen, hexec⟩
    exact .inl ((sameSleep_forked hinv hidle hcopy).state t)
  | doForkWake =>
    obtain ⟨f, hf, rfl⟩ := doForkWake_eq_some hexec
    rw [forkFinish_state]
    split
    · exact .inr rfl
    · exact .inl rfl
  | vforkReturn =>
    obtain rfl := Option.some.inj hexec
    unfold vforkReturn
    split
    · exact .inl ((sameSleep_setTskNeedResched _ _).state t)
    · exact .inl rfl
  | schedExit p =>
    obtain rfl := Option.some.inj hexec
    obtain ⟨timeSlice, sleepAvg, hreap⟩ := reapChild_eq (s.task p) s.current
    exact .inl (modify_proj (fun t => t.state) (by rw [hreap]) t)
  | doExit reaper =>
    obtain rfl := Option.some.inj hexec
    left
    rw [modify_task, Function.update_of_ne (hcurr.resolve_right fun hc => hc trivial)]
    dsimp only
    split <;> rfl
  | setCurrentState state =>
    obtain rfl := Option.some.inj hexec
    rw [modify_task, Function.update_of_ne (hcurr.resolve_right fun hc => hc trivial)]
    exact .inl rfl
  | setSigpending p pending =>
    obtain rfl := Option.some.inj hexec
    exact .inl (modify_proj (fun t => t.state) rfl t)
  | setJiffies jiffies =>
    obtain rfl := Option.some.inj hexec
    exact .inl rfl

/-- **Every step** keeps the records of sleep in agreement. -/
theorem Sys.SleepInv.step (h : SleepInv s) (hfork : ForkInv s) (hstep : Step s op s')
    (hsafe : AwakeSafe s op) : SleepInv s' := by
  have hinv := hfork.toRqInv
  have hcurrent := fun hne => hinv.toRqAgree.current_ne_none hne
  obtain ⟨hen, hexec⟩ := hstep
  cases op with
  | tryToWakeUp p sync =>
    obtain rfl := Option.some.inj hexec
    obtain ⟨hmove, hruns, hqueued⟩ := sleepMove_tryToWakeUp p sync s hfork.pulled_queued
    exact h.move hmove (.inl hen.1) (fun _ _ => hqueued) (fun _ => .inl hruns)
      (.inl (samePtrs_tryToWakeUp p sync s).curr)
  | schedule => exact h.schedule hinv hexec
  | schedulerTick =>
    obtain rfl := Option.some.inj hexec
    exact h.same (sameSleep_schedulerTick hinv.toRqAgree)
  | setUserNice p nice =>
    obtain rfl := Option.some.inj hexec
    exact h.same (sameSleep_setUserNice p nice (hfork.noFlags hen.1))
  | setscheduler pid policy param =>
    obtain ⟨⟨r, s₁⟩, hr, rfl⟩ := Option.map_eq_some_iff.mp hexec
    exact h.same (h.setscheduler (hfork.noFlags hen.1) (hsafe.2 rfl) hr)
  | sysSchedYield =>
    obtain ⟨s₁, hyield, hschedule⟩ := Option.bind_eq_some_iff.mp hexec
    -- the yield moves `current` in its queue; it stays queued, and runnable
    have hinv' := hinv.yieldRequeue hen.2 hyield
    exact (h.same (sameSleep_yieldRequeue hyield)).schedule hinv' hschedule
  | doFork cloneFlags env =>
    obtain rfl := Option.some.inj hexec
    rcases doFork_cases cloneFlags env s with ⟨-, hsame⟩ | ⟨-, hcopied⟩
    · rw [hsame]
      exact h
    · rw [hcopied]
      exact h.copied hen.2
  | doForkSplit =>
    obtain ⟨f, -, -, hidle, hcopy, -, rfl⟩ := doForkSplit_step ⟨hen, hexec⟩
    exact h.same (sameSleep_forked hinv hidle hcopy)
  | doForkWake =>
    obtain ⟨f, hf, rfl⟩ := doForkWake_eq_some hexec
    exact h.doForkWake hinv (hfork.window f hf)
  | vforkReturn =>
    obtain rfl := Option.some.inj hexec
    unfold vforkReturn
    split
    · exact h.same (sameSleep_setTskNeedResched _ _)
    · exact h
  | schedExit p =>
    obtain rfl := Option.some.inj hexec
    obtain ⟨timeSlice, sleepAvg, hreap⟩ := reapChild_eq (s.task p) s.current
    have hsame : SameSleep s (s.schedExit p) :=
      .modify (by rw [hreap]) (by rw [hreap])
    -- the task is a zombie off the runqueue, so no record loses anything
    obtain ⟨-, -, -, -, hzombie, hqueued⟩ := hen
    exact (h.same hsame).free ((hsame.state p).trans hzombie) ((hsame.array p).mpr hqueued)
  | doExit reaper =>
    obtain rfl := Option.some.inj hexec
    refine h.setCurrentState (hcurrent hen.1.2) (fun t ht => ?_) (fun t => ?_) rfl rfl
    · rw [modify_task, Function.update_of_ne ht]
      dsimp only
      split <;> rfl
    · rw [modify_proj (fun t => t.array) rfl]
      dsimp only
      split <;> rfl
  | setCurrentState state =>
    obtain rfl := Option.some.inj hexec
    exact h.setCurrentState (hcurrent hen.1.2)
      (fun t ht => by rw [modify_task, Function.update_of_ne ht])
      (modify_proj (fun t => t.array) rfl) rfl rfl
  | setSigpending p pending =>
    obtain rfl := Option.some.inj hexec
    exact h.same (.modify rfl rfl)
  | setJiffies jiffies =>
    obtain rfl := Option.some.inj hexec
    exact h.same ⟨fun _ => rfl, fun _ => Iff.rfl, rfl, rfl, rfl, rfl⟩

theorem Sys.SleepInv.run {ops : List Op} (h : ForkInv s ∧ s.SleepInv)
    (hrun : Run (Guarded AwakeSafe Step) s ops s') : ForkInv s' ∧ s'.SleepInv := by
  apply hrun.invariant (P := fun s => ForkInv s ∧ s.SleepInv) ?_ h
  intro s op s' h hstep
  obtain ⟨hsafe, hstep⟩ := hstep
  exact ⟨h.1.step hstep hsafe.1, h.2.step h.1 hstep hsafe⟩

/-- **`state`, the queues and `nr_uninterruptible` agree** in every run, forks and exits included,
in which forks do no harm and `setscheduler` is called by a task that runs: a task other than
`current` is on the runqueue if and only if it is `TASK_RUNNING`, and the tasks that
`nr_uninterruptible` counts are those in uninterruptible sleep. -/
theorem runnable_iff_queued_of_run {ops : List Op} (hinv : s.RqInv) (hflags : s.NoFlags)
    (hforking : s.forking = none) (hsleep : s.SleepInv)
    (hrun : Run (Guarded AwakeSafe Step) s ops s') :
    s'.rq.nrUninterruptible = s'.countUninterruptible ∧
      ∀ t ∈ s'.tasklist, t ≠ s'.rq.idle → t ≠ s'.rq.curr →
        ((s'.task t).array ≠ none ↔ (s'.task t).state = .running) := by
  obtain ⟨-, hend⟩ := SleepInv.run ⟨forkInv_of_noFlags hinv hflags hforking, hsleep⟩ hrun
  refine ⟨hend.counted, fun t ht hidle hcurr => ⟨fun hqueued => ?_, hend.queued t ht hidle⟩⟩
  exact (hend.running t hqueued).resolve_right hcurr

omit [Param] in
/-- Tasks that are queued and run, or sleep and may be interrupted. -/
theorem Sys.sleepInv_ofList {ts : List Task} {curr : TaskId}
    (htasks : ∀ t ∈ ts, (t.array ≠ none ↔ t.state = .running) ∧ t.state ≠ .uninterruptible) :
    (ofList ts curr).SleepInv where
  nodup := List.nodup_range'
  listed t ht := by
    have hne : t ≠ 0 := by
      rintro rfl
      exact ht rfl
    rcases ofList_task ts curr hne with h | h
    · exact h.2
    · exact absurd (congrArg Task.array h) ht
  queued t _ hidle hruns := by
    rcases ofList_task ts curr hidle with h | h
    · exact (htasks _ h.1).1.mpr hruns
    · rw [h] at hruns
      cases hruns
  running t ht := by
    left
    exact ofList_forall (P := fun t => t.array ≠ none → t.state = .running) (fun _ => rfl)
      (fun _ hc => absurd rfl hc) (fun t ht => (htasks t ht).1.mp) curr t ht
  counted := by
    have hawake : ∀ t, ((ofList ts curr).task t).state ≠ .uninterruptible :=
      ofList_forall (P := fun t => t.state ≠ .uninterruptible) nofun (fun _ => nofun)
        (fun t ht => (htasks t ht).2) curr
    have hcount : (ofList ts curr).countUninterruptible = 0 :=
      List.countP_eq_zero.mpr fun t _ hc => hawake t (of_decide_eq_true hc).1
    rw [hcount]
    rfl

omit [Param] in
/-- A task goes to uninterruptible sleep. -/
theorem runnable_iff_queued_of_run_asleep :
    let ops : List Op := [.setCurrentState .uninterruptible, .schedule]
    ∃ s', @runIf hz100 AwakeSafe _ ops privilegedTask = some s' ∧
      s'.rq.nrUninterruptible = s'.countUninterruptible := by
  intro ops
  have hruns : (@runIf hz100 AwakeSafe _ ops privilegedTask).isSome = true := by decide +kernel
  obtain ⟨s', hs'⟩ := Option.isSome_iff_exists.mp hruns
  have hrun := (@guarded_run_iff_runIf hz100 _ _ _ _ _).mpr hs'
  exact ⟨s', hs', (@runnable_iff_queued_of_run _ _ hz100 _ (rqInv_ofList (by decide) (by decide))
    (noFlags_ofList (by decide)) rfl (sleepInv_ofList (by decide)) hrun).1⟩

end ShortSched
