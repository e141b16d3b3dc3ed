import ShortSched.Budget

/-!
# What a new request leaves of the time already used

`OS_TASK_TIMESLICE` is the budget of the phase a SHORT task is in: its request, or twice its
request while it is overdue. `setscheduler` adds the difference of the two requests to the time
slice in either phase, which is right for the first phase only.
-/

namespace ShortSched

variable [Param]

/-- The part of the budget of its phase that a task has used up. -/
def TaskSched.consumed (p : TaskSched) : ℤ := p.osTaskTimeslice.toNat - p.timeSlice.toNat

/-- The consumed part stays, and something is left of the new budget. -/
structure KeepsConsumed (p p' : TaskSched) : Prop where
  consumed : p'.consumed = p.consumed
  slice_ge : 1 ≤ p'.timeSlice.toNat
  slice_le : p'.timeSlice.toNat ≤ p'.osTaskTimeslice.toNat

/-! ## The budget of a phase -/

namespace TaskSched

variable {p : TaskSched}

theorem osTaskTimeslice_of_short (h : p.ShortTask) : p.osTaskTimeslice = p.requestedTime.toUInt32 :=
  if_pos h

/-- A SHORT task has asked for its budget. -/
theorem toNat_osTaskTimeslice_short (h : p.ShortTask) (hrequested : 0 ≤ p.requestedTime.toInt) :
    (p.osTaskTimeslice.toNat : ℤ) = p.requestedTime.toInt := by
  have hnat := toNat_toUInt32 p.requestedTime
  have hlt := p.requestedTime.toInt_lt
  rw [osTaskTimeslice_of_short h]
  omega

/-- An overdue task may run twice as long. -/
theorem toNat_osTaskTimeslice_overdue (h : p.OverdueTask) (hrequested : 0 ≤ p.requestedTime.toInt) :
    (p.osTaskTimeslice.toNat : ℤ) = 2 * p.requestedTime.toInt := by
  have hnat : p.requestedTime.toInt = (p.requestedTime.toInt.toNat : ℤ) := by omega
  rw [osTaskTimeslice_of_overdue h, toNat_double hnat]
  omega

end TaskSched

/-! ## The adjustment -/

section adjust

variable {t : Task} {lp : SchedParam}

/-- An accepted request keeps the consumed part of a SHORT task; that of an overdue task moves
with the request. -/
theorem keepsConsumed_adjustShort_iff (hclass : t.ShortTask ∨ t.OverdueTask)
    (hrequested : 1 ≤ t.requestedTime.toInt) (hslice : t.timeSlice.toNat ≤ t.osTaskTimeslice.toNat)
    (hnew : 0 ≤ (changeMsToJiffis lp.requestedTime).toInt)
    (hgt : (changeMsToJiffis lp.requestedTime).toUInt32 > t.requestedTime.toUInt32 - t.timeSlice) :
    KeepsConsumed t.toTaskSched (t.adjustShort lp).toTaskSched ↔
      ¬t.OverdueTask ∨ changeMsToJiffis lp.requestedTime = t.requestedTime := by
  have hpos : 0 ≤ t.requestedTime.toInt := by omega
  have hpos' : 0 ≤ (t.adjustShort lp).requestedTime.toInt := hnew
  rcases hclass with hshort | hover
  · have hbudget := TaskSched.toNat_osTaskTimeslice_short hshort hpos
    have hbudget' : ((t.adjustShort lp).osTaskTimeslice.toNat : ℤ) =
        (changeMsToJiffis lp.requestedTime).toInt :=
      TaskSched.toNat_osTaskTimeslice_short (p := (t.adjustShort lp).toTaskSched) hshort hpos'
    obtain ⟨hle, hge, heq⟩ := adjustShort_slice hpos (by omega) hnew hgt
    have hnot : ¬t.OverdueTask := fun hc => absurd (hshort.2.symm.trans hc.2) (by decide)
    refine ⟨fun _ => .inl hnot, fun _ => ⟨?_, hge, by omega⟩⟩
    rw [TaskSched.consumed, TaskSched.consumed]
    omega
  · have hbudget := TaskSched.toNat_osTaskTimeslice_overdue hover hpos
    have hbudget' : ((t.adjustShort lp).osTaskTimeslice.toNat : ℤ) =
        2 * (changeMsToJiffis lp.requestedTime).toInt :=
      TaskSched.toNat_osTaskTimeslice_overdue (p := (t.adjustShort lp).toTaskSched) hover hpos'
    obtain ⟨hle, hge, heq⟩ := adjustShort_slice hpos (by omega) hnew hgt
    have hconsumed : (t.adjustShort lp).consumed = t.consumed ↔
        (changeMsToJiffis lp.requestedTime).toInt = t.requestedTime.toInt := by
      rw [TaskSched.consumed, TaskSched.consumed]
      omega
    rw [Int32.toInt_inj] at hconsumed
    constructor
    · intro h
      exact .inr (hconsumed.mp h.consumed)
    · rintro (hnot | hsame)
      · exact absurd hover hnot
      · exact ⟨hconsumed.mpr hsame, hge, by omega⟩

end adjust

/-! ## `setscheduler` and `sched_setparam` -/

namespace Sys

variable {s s' : Sys} {p : TaskId} {pid policy : ℤ} {lp : SchedParam}

/-- A SHORT task is adjusted by every call that succeeds. -/
theorem setscheduler_adjusts (hshort : (s.task p).policy = .short)
    (hfound : s.findProcessByPid pid = some p)
    (hcall : s.setscheduler pid policy (.valid lp) = some (0, s')) :
    (s'.task p).toTaskSched = ((s.task p).adjustShort lp).toTaskSched ∧
      lp.requestedTime ≤ 3000 ∧ (changeMsToJiffis lp.requestedTime).toUInt32 >
        (s.task p).requestedTime.toUInt32 - (s.task p).timeSlice := by
  cases SetschedCase.of_eq_some hcall with
  | refused hr => exact absurd hr (lt_irrefl 0)
  | @adjusted q lp' target _ _ hle hgt =>
    obtain rfl : p = q := Option.some.inj (hfound.symm.trans target.found)
    obtain rfl : lp = lp' := UserParam.valid.inj target.param_eq
    exact ⟨adjusted_sched p lp s, hle, hgt⟩
  | @madeShort q lp' target hother =>
    obtain rfl : p = q := Option.some.inj (hfound.symm.trans target.found)
    exact absurd (hother.symm.trans hshort) (by decide)
  | @changed q lp' policy' s₁ target hnot =>
    obtain rfl : p = q := Option.some.inj (hfound.symm.trans target.found)
    exact absurd hshort hnot

/-- **A new request keeps the time already used** if and only if the task is not overdue or the
request is the old one. -/
theorem setscheduler_keepsConsumed_iff (hclass : (s.task p).ShortTask ∨ (s.task p).OverdueTask)
    (hrequested : 1 ≤ (s.task p).requestedTime.toInt)
    (hbudget : (s.task p).timeSlice.toNat ≤ (s.task p).osTaskTimeslice.toNat)
    (hfound : s.findProcessByPid pid = some p) (hpos : 0 < lp.requestedTime)
    (hcall : s.setscheduler pid policy (.valid lp) = some (0, s')) :
    KeepsConsumed (s.task p).toTaskSched (s'.task p).toTaskSched ↔
      ¬(s.task p).OverdueTask ∨
        changeMsToJiffis lp.requestedTime = (s.task p).requestedTime := by
  have hshort : (s.task p).policy = .short := hclass.elim And.left And.left
  obtain ⟨hsched, hle, hgt⟩ := setscheduler_adjusts hshort hfound hcall
  have hthree : (3000 : Int32).toInt = 3000 := by decide
  have hzero : (0 : Int32).toInt = 0 := by decide
  rw [Int32.lt_iff_toInt_lt, hzero] at hpos
  rw [Int32.le_iff_toInt_le, hthree] at hle
  have hnew := (changeMsToJiffis_le_max hpos.le hle).1
  rw [hsched]
  exact keepsConsumed_adjustShort_iff hclass hrequested hbudget hnew hgt

/-- A running overdue task with 5 of its 20 jiffies left. -/
def overdueWithFive : Sys :=
  let task : Task :=
    { timeSlice := 5, pid := 1, policy := .short, requestedTime := 10, iAmOverdue := 1,
      iWasShort := 1, prio := 139, staticPrio := 139, overdueStaticPrio := 120,
      array := some .shortArrays1 }
  ofList [task] 1

omit [Param] in
/-- It has used 15 jiffies; after a request of 20 jiffies it has used 25. -/
theorem consumed_moves_when_overdue :
    ((overdueWithFive.task 1).OverdueTask ∧ (overdueWithFive.task 1).requestedTime.toInt = 10 ∧
      @TaskSched.consumed hz100 (overdueWithFive.task 1).toTaskSched = 15) ∧
    ∃ s', @sysSchedSetparam hz100 0 (.valid ⟨0, 200⟩) overdueWithFive = some (0, s') ∧
      @TaskSched.consumed hz100 (s'.task 1).toTaskSched = 25 ∧
      ¬@KeepsConsumed hz100 (overdueWithFive.task 1).toTaskSched (s'.task 1).toTaskSched := by
  refine ⟨by decide +kernel, ?_⟩
  have hcall : ((@sysSchedSetparam hz100 0 (.valid ⟨0, 200⟩) overdueWithFive).map fun x =>
      (x.1, @TaskSched.consumed hz100 (x.2.task 1).toTaskSched)) = some (0, 25) := by
    decide +kernel
  obtain ⟨⟨r, s'⟩, hs', hval⟩ := Option.map_eq_some_iff.mp hcall
  obtain ⟨rfl, hconsumed⟩ : r = 0 ∧ _ := by simpa using hval
  refine ⟨s', hs', hconsumed, fun hkeeps => ?_⟩
  have hsame := @KeepsConsumed.consumed hz100 _ _ hkeeps
  rw [hconsumed] at hsame
  exact absurd hsame (by decide +kernel)

omit [Param] in
/-- A SHORT task that has used 5 jiffies of 10 still has used 5 when it asks for 20. -/
theorem setscheduler_keepsConsumed_twenty :
    let task : Task :=
      { timeSlice := 5, pid := 1, policy := .short, requestedTime := 10, iWasShort := 1,
        array := some .shortArrays0 }
    ∃ s', @setscheduler hz100 0 (-1) (.valid ⟨0, 200⟩) (ofList [task] 1) = some (0, s') ∧
      @KeepsConsumed hz100 ((ofList [task] 1).task 1).toTaskSched (s'.task 1).toTaskSched := by
  intro task
  have hcall : ((@setscheduler hz100 0 (-1) (.valid ⟨0, 200⟩) (ofList [task] 1)).map Prod.fst) =
      some 0 := by
    decide +kernel
  obtain ⟨⟨r, s'⟩, hs', rfl⟩ := Option.map_eq_some_iff.mp hcall
  refine ⟨s', hs', ?_⟩
  exact (@setscheduler_keepsConsumed_iff hz100 (ofList [task] 1) s' 1 0 (-1) ⟨0, 200⟩
    (by decide) (by decide) (by decide) (by decide) (by decide) hs').mpr
    (.inl (by decide))

end Sys
end ShortSched
