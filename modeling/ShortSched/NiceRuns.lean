import ShortSched.LifeCycle
import ShortSched.TaskList

/-!
# The nice value of a task over runs

While a task is overdue, `static_prio` holds `OVERDUE_PRIO` and the task's own value is parked in
`overdue_static_prio`. `set_user_nice` begins by comparing the new value with the one that
`static_prio` shows, so that for an overdue task nice 19 always looks unchanged: that call is
lost. All other calls arrive, and nothing else touches the value.
-/

namespace ShortSched

open General Sys

/-- The nice value that is the task's own: an overdue task has it parked. -/
def TaskSched.realNice (p : TaskSched) : ℤ :=
  if p.OverdueTask then prioToNice p.overdueStaticPrio else prioToNice p.staticPrio

/-- The nice value that an operation sets for `t`. -/
def Op.niceFor (t : TaskId) : Op → Option ℤ
  | .setUserNice p nice => if p = t ∧ -20 ≤ nice ∧ nice ≤ 19 then some nice else none
  | _ => none

/-- The last nice value that a list of operations sets for `t`, or `nice` if it sets none. -/
def lastNice (t : TaskId) (nice : ℤ) (ops : List Op) : ℤ :=
  ops.foldl (fun nice op => (op.niceFor t).getD nice) nice

/-- A call `set_user_nice(t, 19)` that finds `t` overdue, with a value of its own that is not
19. -/
def LosesNice (t : TaskId) (s : Sys) (op : Op) : Prop :=
  op = .setUserNice t 19 ∧ (s.task t).OverdueTask ∧ (s.task t).realNice ≠ 19

instance (t : TaskId) (s : Sys) (op : Op) : Decidable (LosesNice t s op) :=
  inferInstanceAs (Decidable (_ ∧ _))

namespace TaskSched

variable {p : TaskSched}

theorem realNice_overdue (h : p.OverdueTask) : p.realNice = prioToNice p.overdueStaticPrio :=
  if_pos h

theorem realNice_of_not_overdue (h : ¬p.OverdueTask) : p.realNice = prioToNice p.staticPrio :=
  if_neg h

theorem prioToNice_niceToPrio (nice : ℤ) : prioToNice (niceToPrio nice) = nice := by
  simp only [prioToNice, niceToPrio]
  omega

/-- **`set_user_nice`** sets the value of a task of whatever class, but for nice 19 of an overdue
one. -/
theorem realNice_renice (h : LifeInv p) {nice : ℤ} (hge : -20 ≤ nice) (hle : nice ≤ 19) :
    (p.renice nice).realNice = if nice = 19 ∧ p.OverdueTask then p.realNice else nice := by
  by_cases hover : p.OverdueTask
  · -- such a task shows nice 19
    obtain ⟨hprio, hstatic⟩ := h.overdue_prio hover.2
    have hshown : p.taskNice = 19 := by
      rw [taskNice, hstatic]
      decide
    have hrt : ¬p.RtTask := by
      rw [RtTask, hprio]
      decide
    by_cases h19 : nice = 19
    · rw [if_pos ⟨h19, hover⟩, renice, if_pos (.inl (hshown.trans h19.symm))]
    · have hnew : ¬(p.taskNice = nice ∨ nice < -20 ∨ nice > 19) := by
        rw [hshown]
        omega
      rw [if_neg fun hc => h19 hc.1, renice, if_neg hnew, if_neg hrt, if_pos hover]
      exact (if_pos hover).trans (prioToNice_niceToPrio nice)
  rw [if_neg fun hc => hover hc.2]
  unfold renice
  split
  · next hsame =>
    have hshown : p.taskNice = nice := by
      rcases hsame with hsame | hlow | hhigh
      · exact hsame
      · omega
      · omega
    rw [realNice_of_not_overdue hover]
    exact hshown
  split
  · exact (if_neg hover).trans (prioToNice_niceToPrio nice)
  split
  · next hshort =>
    rw [realNice_of_not_overdue hover, hshort.2]
    exact prioToNice_niceToPrio nice
  · exact (if_neg hover).trans (prioToNice_niceToPrio nice)

end TaskSched

/-! ## The other operations -/

variable [Param] {s s' s'' : Sys} {op : Op} {t : TaskId}

namespace Task

theorem realNice_woken (jiffies : UInt32) (u : Task) :
    (u.woken jiffies).realNice = u.realNice := by
  rw [woken_sched]
  rfl

/-- The value is parked when a task turns overdue and taken back when it turns OTHER. -/
theorem realNice_expire (u : Task) : u.expire.realNice = u.realNice := by
  show u.expireClass.realNice = u.realNice
  unfold expireClass
  by_cases hover : u.OverdueTask
  · rw [if_pos hover, TaskSched.realNice_overdue hover]
    exact TaskSched.realNice_of_not_overdue nofun
  rw [if_neg hover]
  by_cases hshort : u.ShortTask
  · rw [if_pos hshort, TaskSched.realNice_of_not_overdue hover]
    exact TaskSched.realNice_overdue ⟨hshort.1, rfl⟩
  · rw [if_neg hshort]

/-- A tick does not change the real nice value, whichever field holds it. -/
theorem realNice_afterTick (u : Task) : u.afterTick.realNice = u.realNice := by
  have htick : u.tick.realNice = u.realNice := by
    rw [tick_sched]
    rfl
  rcases u.afterTick_cases with ⟨_, _, -, heq⟩ | ⟨-, -, heq⟩
  · rw [heq]
    rfl
  · rw [heq, realNice_expire, htick]

omit [Param] in
theorem realNice_of_not_short {p : TaskSched} (h : p.policy ≠ .short) :
    p.realNice = prioToNice p.staticPrio :=
  TaskSched.realNice_of_not_overdue fun hc => h hc.1

end Task

/-- No operation but `set_user_nice` of the task itself changes its value. -/
theorem SchedStep.realNice {p' : TaskSched} (h : SchedStep s t op p')
    (ht : LifeInv (s.task t).toTaskSched)
    (hchild : ∀ cloneFlags env, op = .doFork cloneFlags env → t ≠ env.child)
    (hop : ∀ nice, op ≠ .setUserNice t nice) : p'.realNice = (s.task t).realNice := by
  cases h with
  | same | adjust | yield | forkSlice | forkExpired | forkChild | forkWoken | reap => rfl
  | woken => exact Task.realNice_woken _ _
  | tick => exact Task.realNice_afterTick _
  | renice nice => exact absurd rfl (hop nice)
  | @make _ _ _ lp _ hother =>
    have hnot : (s.task t).policy ≠ .short := by
      rw [hother]
      decide
    -- a task that is not SHORT is not overdue
    have hmade : ((s.task t).makeShort lp).realNice = (s.task t).realNice := by
      rw [Task.realNice_of_not_short hnot]
      refine TaskSched.realNice_of_not_overdue fun hc => ?_
      have h0 : (s.task t).iAmOverdue = 1 := hc.2
      rw [ht.not_overdue hnot] at h0
      exact absurd h0 zero_ne_one
    split
    · exact hmade
    · exact (Task.realNice_woken _ _).trans hmade
  | @setPolicy _ _ _ lp policy' _ hnot hnew _ _ =>
    have hset : ((s.task t).setPolicy policy' lp).realNice = (s.task t).realNice := by
      rw [Task.realNice_of_not_short hnot]
      exact Task.realNice_of_not_short hnew
    split
    · exact hset
    · exact (Task.realNice_woken _ _).trans hset
  | forkTick => exact Task.realNice_afterTick _
  | forkCopy cloneFlags env hc => exact absurd hc (hchild _ _ rfl)

/-! ## Runs -/

/-- A call of `set_user_nice` arrives if and only if it is not one of those that are lost. -/
theorem realNice_setUserNice_iff (hinv : LifeInv (s.task t).toTaskSched) {nice : ℤ}
    (hge : -20 ≤ nice) (hle : nice ≤ 19) (hstep : Step s (.setUserNice t nice) s') :
    (s'.task t).realNice = nice ↔ ¬LosesNice t s (.setUserNice t nice) := by
  obtain rfl := Option.some.inj hstep.2
  rw [setUserNice_sched, if_pos rfl, TaskSched.realNice_renice hinv hge hle]
  by_cases hlost : nice = 19 ∧ (s.task t).OverdueTask
  · obtain ⟨rfl, hover⟩ := hlost
    rw [if_pos ⟨rfl, hover⟩]
    simp [LosesNice, hover]
  · rw [if_neg hlost]
    refine iff_of_true rfl fun hc => hlost ⟨?_, hc.2.1⟩
    exact (Op.setUserNice.inj hc.1).2

/-- What a step does to the value of a task that exists. -/
theorem realNice_step (hinv : LifeInv (s.task t).toTaskSched) (ht : s.IsTask t)
    (hstep : Step s op s') (hlost : ¬LosesNice t s op) :
    (s'.task t).realNice = (op.niceFor t).getD (s.task t).realNice := by
  by_cases hop : ∃ nice, op = .setUserNice t nice
  · obtain ⟨nice, rfl⟩ := hop
    by_cases hrange : -20 ≤ nice ∧ nice ≤ 19
    · rw [(realNice_setUserNice_iff hinv hrange.1 hrange.2 hstep).mpr hlost, Op.niceFor,
        if_pos ⟨rfl, hrange⟩]
      rfl
    · obtain rfl := Option.some.inj hstep.2
      have hrefused : (s.task t).taskNice = nice ∨ nice < -20 ∨ nice > 19 := by omega
      rw [setUserNice_sched, if_pos rfl, TaskSched.renice, if_pos hrefused, Op.niceFor,
        if_neg fun hc => hrange hc.2]
      rfl
  · have hnone : op.niceFor t = none := by
      cases op with
      | setUserNice p nice =>
        refine if_neg fun hc => hop ⟨nice, ?_⟩
        rw [hc.1]
      | _ => rfl
    rw [hnone]
    exact (step_sched hstep t).realNice hinv (ne_child_of_isTask hstep ht)
      fun nice hc => hop ⟨nice, hc⟩

/-- **The nice value survives** the SHORT and overdue phases of a task, in every run in which no
call is lost. -/
theorem realNice_of_run {ops : List Op}
    (hinv : ∀ u, u ≠ s.rq.idle → LifeInv (s.task u).toTaskSched)
    (ht : s.IsTask t) (hidle : t ≠ s.rq.idle) (hreap : ∀ op ∈ ops, op ≠ .schedExit t)
    (hrun : Run (Guarded (fun s op => ¬LosesNice t s op) Step) s ops s') :
    (s'.task t).realNice = lastNice t (s.task t).realNice ops ∧
    (∀ nice s'', -20 ≤ nice → nice ≤ 19 → Step s' (.setUserNice t nice) s'' →
      ((s''.task t).realNice = nice ↔ ¬LosesNice t s' (.setUserNice t nice))) ∧
    (∀ op s'', Step s' op s'' → (∀ nice, op ≠ .setUserNice t nice) →
      (s''.task t).realNice = (s'.task t).realNice) ∧
    (∀ op s'', Step s' op s'' → ¬(s.task t).OverdueTask → (s'.task t).OverdueTask →
      (s''.task t).OtherTask → (s''.task t).taskNice = lastNice t (s.task t).taskNice ops) := by
  have hend : (∀ u, u ≠ s'.rq.idle → LifeInv (s'.task u).toTaskSched) ∧ s'.IsTask t ∧
      t ≠ s'.rq.idle ∧ (s'.task t).realNice = lastNice t (s.task t).realNice ops := by
    induction hrun with
    | nil => exact ⟨hinv, ht, hidle, rfl⟩
    | @cons s s₁ s' op ops hguarded _ ih =>
      obtain ⟨hlost, hstep⟩ := hguarded
      have hnext := realNice_step (hinv t hidle) ht hstep hlost
      have hidle' : t ≠ s₁.rq.idle := by
        rw [step_idle hstep]
        exact hidle
      obtain ⟨hinv', ht', hidle'', heq⟩ := ih (lifeInv_step hinv hstep)
        (isTask_step hstep (hreap _ List.mem_cons_self) ht) hidle'
        fun op hop => hreap op (List.mem_cons_of_mem _ hop)
      refine ⟨hinv', ht', hidle'', ?_⟩
      rw [heq, hnext]
      rfl
  obtain ⟨hinv', ht', hidle', heq⟩ := hend
  have hkeep : ∀ op s'', Step s' op s'' → (∀ nice, op ≠ .setUserNice t nice) →
      (s''.task t).realNice = (s'.task t).realNice := fun op s'' hstep hop =>
    (step_sched hstep t).realNice (hinv' t hidle') (ne_child_of_isTask hstep ht') hop
  refine ⟨heq, fun nice s'' hge hle hstep =>
    realNice_setUserNice_iff (hinv' t hidle') hge hle hstep, hkeep, ?_⟩
  intro op s'' hstep hbegin hover hother
  have hnot : (s''.task t).policy ≠ .short := by
    rw [hother]
    decide
  have hop : ∀ nice, op ≠ .setUserNice t nice := by
    rintro nice rfl
    obtain rfl := Option.some.inj hstep.2
    rw [setUserNice_sched, if_pos rfl, (TaskSched.renice_class _ _).1] at hnot
    exact hnot hover.1
  calc (s''.task t).taskNice
      = (s''.task t).realNice := (Task.realNice_of_not_short hnot).symm
    _ = (s'.task t).realNice := hkeep op s'' hstep hop
    _ = lastNice t (s.task t).realNice ops := heq
    _ = lastNice t (s.task t).taskNice ops := by
      rw [TaskSched.realNice_of_not_overdue hbegin]
      rfl

/-- A running OTHER task of nice 0. -/
def otherOfNice0 : Sys := ofList [{ timeSlice := 15, pid := 1, array := some .arrays0 }] 1

omit [Param] in
/-- The tasks of the example are at the begin of the life cycle. -/
theorem lifeInv_otherOfNice0 : ∀ u, u ≠ otherOfNice0.rq.idle →
    LifeInv (otherOfNice0.task u).toTaskSched := by
  intro u hu
  have hrange : UserRange 120 := by decide
  rcases ofList_task _ 1 hu with hmem | hsleeps
  · show LifeInv (otherOfNice0.task u).toTaskSched
    rw [otherOfNice0, List.mem_singleton.mp hmem.1]
    exact InitTask.lifeInv ⟨rfl, hrange, rfl, rfl, rfl, rfl, rfl⟩
  · show LifeInv (otherOfNice0.task u).toTaskSched
    rw [otherOfNice0, hsleeps]
    exact InitTask.lifeInv ⟨rfl, hrange, rfl, rfl, rfl, rfl, rfl⟩

omit [Param] in
/-- An overdue task is reniced to 19, keeps nice 0 and returns to OTHER with it. -/
theorem nice_lost_by_overdue :
    let toOverdue : List Op := [.setscheduler 0 5 (.valid ⟨0, 20⟩), .schedulerTick, .schedulerTick]
    let toOther : List Op := [.schedulerTick, .schedulerTick, .schedulerTick, .schedulerTick]
    let after (ops : List Op) := (@runOps hz100 ops otherOfNice0).map fun s =>
      ((s.task 1).taskClass, (s.task 1).realNice)
    after toOverdue = some (.overdue, 0) ∧
      after (toOverdue ++ [.setUserNice 1 19]) = some (.overdue, 0) ∧
      after (toOverdue ++ [.setUserNice 1 19] ++ toOther) = some (.other, 0) := by
  decide +kernel

omit [Param] in
/-- Calls that arrive: one while the task is SHORT, one while it is overdue. -/
theorem realNice_of_run_seven :
    let ops : List Op := [.setscheduler 0 5 (.valid ⟨0, 20⟩), .setUserNice 1 5, .schedulerTick,
      .schedulerTick, .setUserNice 1 7, .schedulerTick, .schedulerTick, .schedulerTick]
    ∃ s', @runIf hz100 (fun s op => ¬LosesNice 1 s op) _ ops otherOfNice0 = some s' ∧
      (s'.task 1).realNice = 7 := by
  intro ops
  have hruns : (@runIf hz100 (fun s op => ¬LosesNice 1 s op) _ ops otherOfNice0).isSome = true := by
    decide +kernel
  obtain ⟨s', hs'⟩ := Option.isSome_iff_exists.mp hruns
  have hrun := (@guarded_run_iff_runIf hz100 _ _ _ _ _).mpr hs'
  have hend := (@realNice_of_run hz100 _ _ 1 ops lifeInv_otherOfNice0
    (.inl (by decide)) (by decide) (by decide) hrun).1
  exact ⟨s', hs', hend⟩

end ShortSched
