import ShortSched.SchedulingOrder

/-!
# Which wake-ups preempt

`try_to_wake_up` compares bare priorities, while `schedule` looks at the array first. The two
orders agree on tasks of one array. Where the woken task comes first by its array alone, the
flag of `current` is set only if the priorities happen to agree with the arrays.
-/

namespace ShortSched
namespace Sys

variable [Param] {s : Sys} {p : TaskId}

/-- `need_resched` of `current` after a wake-up, by the priority that the woken task gets. -/
theorem tryToWakeUp_needResched (sync : Bool) (hp : (s.task p).array = none)
    (hcurr : p ≠ s.rq.curr) :
    ((s.tryToWakeUp p sync).2.task s.rq.curr).needResched =
      if ((s.task p).woken s.jiffies).prio < s.current.prio then 1
      else s.current.needResched := by
  have hprepare := sameTasks_wakePrepare p sync s
  have hptrs : (s.wakePrepare p sync).rq.curr = s.rq.curr ∧
      (s.wakePrepare p sync).jiffies = s.jiffies := by
    rw [wakePrepare]
    split <;> split <;> exact ⟨rfl, rfl⟩
  have hflag : (((s.wakePrepare p sync).activateTask p).task s.rq.curr).needResched =
      s.current.needResched := by
    rw [activateTask_task, modify_task, Function.update_of_ne hcurr.symm, wakePrepare]
    dsimp only
    -- the migration changes `p` only
    split <;> split <;> simp [hcurr.symm]
  have hcurr₁ : ((s.wakePrepare p sync).activateTask p).rq.curr = s.rq.curr := by
    rw [activateTask_ptrs]
    exact hptrs.1
  -- the two priorities that are compared
  have hprio : (((s.wakePrepare p sync).activateTask p).task p).prio =
      ((s.task p).woken s.jiffies).prio := by
    rw [activateTask_sched, modify_task, Function.update_self, hptrs.2, woken_wakePrepare]
  have hprio' : (((s.wakePrepare p sync).activateTask p).task s.rq.curr).prio =
      s.current.prio := by
    rw [activateTask_sched, modify_task, Function.update_of_ne hcurr.symm, hprepare.sched]
  rw [tryToWakeUp_of_sleeping hp, wakeFinish, modify_task, Function.update_of_ne hcurr.symm,
    current, hcurr₁, hprio, hprio']
  split
  · rw [setTskNeedResched, modify_task, Function.update_self]
  · exact hflag

/-- The array and the priority of a task after a wake-up of `p`. -/
theorem schedKey_tryToWakeUp (t : TaskId) (sync : Bool) (hp : (s.task p).array = none) :
    (s.tryToWakeUp p sync).2.schedKey t = toLex
      (arrayRank s.rq.toRqPtrs (if t = p ∨ t ∈ s.pulled p then
          some (pointerToMyActivePrioArray (s.task p).toTaskSched s.rq.toRqPtrs)
        else (s.task t).array),
      if t = p then ((s.task p).woken s.jiffies).prio else (s.task t).prio) := by
  rw [schedKey, (samePtrs_tryToWakeUp p sync s).arrayRank_eq, tryToWakeUp_array, tryToWakeUp_sched]
  simp only [hp, and_true, true_and]
  by_cases ht : t = p <;> simp [ht]

/-- **A wake-up preempts whenever it should**, but for one case: the array of the woken task
comes before that of `current`, and its priority does not. -/
theorem wakeup_preempts_iff (hinv : s.RqInv) (hidle : p ≠ s.rq.idle)
    (hp : (s.task p).array = none) :
    ((s.tryToWakeUp p false).2.schedKey p < (s.tryToWakeUp p false).2.schedKey s.rq.curr →
        ((s.tryToWakeUp p false).2.task s.rq.curr).needResched = 1) ↔
      s.current.needResched = 1 ∨ ((s.task p).woken s.jiffies).prio < s.current.prio ∨
        s.rq.curr ∈ s.pulled p ∨
        arrayRank s.rq.toRqPtrs s.current.array ≤ arrayRank s.rq.toRqPtrs
          (some (pointerToMyActivePrioArray (s.task p).toTaskSched s.rq.toRqPtrs)) := by
  have hcurr : p ≠ s.rq.curr := by
    rintro rfl
    rcases hinv.curr with h | h
    · exact hidle h
    · exact h hp
  rw [tryToWakeUp_needResched false hp hcurr, schedKey_tryToWakeUp p false hp,
    schedKey_tryToWakeUp s.rq.curr false hp, Prod.Lex.toLex_lt_toLex, if_pos (.inl rfl), if_pos rfl,
    if_neg hcurr.symm]
  simp only [hcurr.symm, false_or]
  by_cases hlt : ((s.task p).woken s.jiffies).prio < s.current.prio
  · simp [hlt]
  · simp only [hlt, and_false, or_false, if_false, false_or]
    by_cases hpulled : s.rq.curr ∈ s.pulled p
    · -- `current` is in the same array now, and there the priorities decide
      simp [hpulled]
    · rw [if_neg hpulled, ← not_lt]
      simp only [hpulled, false_or]
      by_cases hrank : arrayRank s.rq.toRqPtrs
          (some (pointerToMyActivePrioArray (s.task p).toTaskSched s.rq.toRqPtrs)) <
        arrayRank s.rq.toRqPtrs s.current.array
      · simp [hrank]
      · simp [hrank]

/-- The tasks of the two statements below: an OTHER task of nice 0 runs, and a SHORT task of
nice 19 sleeps. -/
def shortOfNice19 : Sys :=
  ofList [{ timeSlice := 15, pid := 1, array := some .arrays0 },
    { timeSlice := 100, pid := 2, policy := .short, requestedTime := 100, iWasShort := 1,
      prio := 139, staticPrio := 139, state := .interruptible }] 1

omit [Param] in
theorem rqInv_shortOfNice19 : shortOfNice19.RqInv := rqInv_ofList (by decide) (by decide)

omit [Param] in
/-- A SHORT task that does not preempt an OTHER task. -/
theorem wakeup_does_not_preempt :
    shortOfNice19.RqInv ∧ shortOfNice19.NoFlags ∧ (shortOfNice19.task 2).array = none ∧
      (@tryToWakeUp hz100 2 false shortOfNice19).2.schedKey 2 <
        (@tryToWakeUp hz100 2 false shortOfNice19).2.schedKey 1 ∧
      ((@tryToWakeUp hz100 2 false shortOfNice19).2.task 1).needResched = 0 :=
  ⟨rqInv_shortOfNice19, noFlags_ofList (by decide), rfl, by decide +kernel, by decide +kernel⟩

omit [Param] in
theorem wakeup_preempts_iff_short :
    ¬((@tryToWakeUp hz100 2 false shortOfNice19).2.schedKey 2 <
        (@tryToWakeUp hz100 2 false shortOfNice19).2.schedKey 1 →
      ((@tryToWakeUp hz100 2 false shortOfNice19).2.task 1).needResched = 1) := by
  have h := @wakeup_preempts_iff hz100 shortOfNice19 2 rqInv_shortOfNice19 (by decide) rfl
  exact fun hc => absurd (h.mp hc) (by decide +kernel)

end Sys
end ShortSched
