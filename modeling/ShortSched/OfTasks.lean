import Mathlib.Data.List.GetD
import ShortSched.ClassInvariant

/-!
# The machine that a set of tasks describes

`Sys.ofTasks` queues every task where its own fields say and counts what is queued. With every
task asleep and the idle task as `current` it is the machine that `sched_init` and `init_idle`
leave behind. The representation invariant holds of it.
-/

namespace ShortSched

open General

namespace Sys

/-- The machine in which the tasks of the list are queued by their fields; task 0 is the idle
task. -/
def ofTasks (task : TaskId → Task) (tasklist : List TaskId) (curr : TaskId) : Sys where
  task := task
  rq :=
    { nrRunning := (tasklist.filter fun t => (task t).array ≠ none).length
      nrSwitches := 0
      expiredTimestamp := 0
      nrUninterruptible := 0
      curr := curr
      idle := 0
      active := .arrays0
      expired := .arrays1
      rtShort := .shortArrays0
      overdue := .shortArrays1
      distinct := by decide
      arrays := fun array =>
        { nrActive := (tasklist.filter fun t => (task t).array = some array).length
          bitmap := fun prio => tasklist.any fun t => (task t).level = some (array, prio)
          queue := fun prio => tasklist.filter fun t => (task t).level = some (array, prio) } }
  jiffies := 0
  tasklist := tasklist

variable {task : TaskId → Task} {tasklist : List TaskId} {curr : TaskId}

/-- The tasks of an array, counted level by level. -/
theorem count_filter_level (tasklist : List TaskId) (array : PrioArrayPtr)
    (hrange : ∀ t, (task t).array ≠ none → 0 ≤ (task t).prio ∧ (task t).prio < maxPrio) :
    ((tasklist.filter fun t => (task t).array = some array).length : ℤ) =
      count (levels array) fun l => tasklist.filter fun t => (task t).level = some l := by
  induction tasklist with
  | nil => exact (count_eq_zero_iff.mpr fun _ _ => rfl).symm
  | cons t ts ih =>
    -- `t` is on one level of its array and on none of another
    have hlevel : ∑ l ∈ levels array, (if (task t).level = some l then 1 else 0 : ℤ) =
        if (task t).array = some array then 1 else 0 := by
      split
      · next harray =>
        have hmem : (array, (task t).prio) ∈ levels array :=
          mem_levels.mpr ⟨rfl, hrange t (by rw [harray]; exact Option.some_ne_none _)⟩
        rw [Finset.sum_eq_single_of_mem _ hmem]
        · rw [if_pos (Task.level_eq_some.mpr ⟨harray, rfl⟩)]
        · rintro l - hl
          refine if_neg fun hc => hl ?_
          obtain ⟨ha, hk⟩ := Task.level_eq_some.mp hc
          rw [harray] at ha
          exact Prod.ext (Option.some.inj ha).symm hk.symm
      · next harray =>
        refine Finset.sum_eq_zero fun l hl => if_neg fun hc => harray ?_
        rw [(Task.level_eq_some.mp hc).1, (mem_levels.mp hl).1]
    have hlength : ∀ l, (((t :: ts).filter fun t => (task t).level = some l).length : ℤ) =
        (if (task t).level = some l then 1 else 0) +
          (ts.filter fun t => (task t).level = some l).length := by
      intro l
      by_cases hl : (task t).level = some l
      · simp [hl, add_comm]
      · simp [hl]
    rw [count, Finset.sum_congr rfl fun l _ => hlength l, Finset.sum_add_distrib, hlevel, ← count,
      ← ih]
    by_cases harray : (task t).array = some array
    · simp [harray, add_comm]
    · simp [harray]

theorem length_filter_array (tasklist : List TaskId) :
    ((tasklist.filter fun t => (task t).array ≠ none).length : ℤ) =
      ∑ array, ((tasklist.filter fun t => (task t).array = some array).length : ℤ) := by
  induction tasklist with
  | nil => exact (Finset.sum_eq_zero fun _ _ => rfl).symm
  | cons t ts ih =>
    have hlength : ∀ array, (((t :: ts).filter fun t => (task t).array = some array).length : ℤ) =
        (if (task t).array = some array then 1 else 0) +
          (ts.filter fun t => (task t).array = some array).length := by
      intro array
      by_cases h : (task t).array = some array
      · simp [h, add_comm]
      · simp [h]
    rw [Finset.sum_congr rfl fun array _ => hlength array, Finset.sum_add_distrib, ← ih]
    cases h : (task t).array with
    | none => simp [h]
    | some array => simp [h, add_comm]

/-- Queueing every task by its fields makes the views of the queues agree. -/
theorem layout_ofTasks (hnodup : tasklist.Nodup)
    (hlist : ∀ t, (task t).array ≠ none → t ∈ tasklist)
    (hrange : ∀ t, (task t).array ≠ none → 0 ≤ (task t).prio ∧ (task t).prio < maxPrio) :
    (ofTasks task tasklist curr).Layout := by
  refine ⟨⟨fun t l => ?_, fun l => ?_⟩, hrange, fun array l _ => ?_, fun array => ?_⟩
  · change t ∈ tasklist.filter _ ↔ _
    rw [List.mem_filter, decide_eq_true_eq]
    refine ⟨fun h => h.2, fun h => ⟨hlist t ?_, h⟩⟩
    have harray : (task t).array = some l.1 := (Task.level_eq_some.mp h).1
    rw [harray]
    exact Option.some_ne_none _
  · exact hnodup.filter _
  · change (tasklist.any _ = true) ↔ tasklist.filter _ ≠ []
    rw [List.any_eq_true, ne_eq, List.filter_eq_nil_iff]
    push Not
    rfl
  · exact count_filter_level tasklist array hrange

/-- **The invariant holds** of every set of tasks that are valid and fit their arrays. -/
theorem rqInv_ofTasks (hnodup : tasklist.Nodup)
    (hlist : ∀ t, (task t).array ≠ none → t ∈ tasklist)
    (hidle : (task 0).array = none ∧ (task 0).state = .running ∧ (task 0).prio = maxPrio)
    (hcurr : curr = 0 ∨ (task curr).array ≠ none)
    (htasks : ∀ t, t ≠ 0 → TaskInv (ofTasks task tasklist curr).rq.toRqPtrs (task t)) :
    (ofTasks task tasklist curr).RqInv := by
  have hrange : ∀ t, (task t).array ≠ none → 0 ≤ (task t).prio ∧ (task t).prio < maxPrio := by
    intro t ht
    have hne : t ≠ 0 := by
      rintro rfl
      exact ht hidle.1
    exact (htasks t hne).ok.range
  exact ⟨⟨layout_ofTasks hnodup hlist hrange, length_filter_array tasklist, hidle.1, hcurr⟩,
    hidle.2.1, hidle.2.2, htasks⟩

/-! ## A list of tasks -/

/-- The tick rate of the PC. -/
abbrev hz100 : Param := ⟨100, by decide, by decide⟩

/-- The idle task of `init_idle`. -/
def idleTask : Task := { timeSlice := 15, prio := maxPrio, pid := 0 }

/-- A task like `INIT_TASK` that sleeps. -/
def sleepingTask (pid : ℤ) : Task := { timeSlice := 15, state := .interruptible, pid := pid }

/-- The machine with the listed tasks, numbered from 1. All other structures are unused. -/
def ofList (ts : List Task) (curr : TaskId) : Sys :=
  ofTasks (fun t => (idleTask :: ts).getD t (sleepingTask t)) (List.range' 1 ts.length) curr

/-- A task other than the idle task is listed or sleeps. -/
theorem ofList_task (ts : List Task) (curr : TaskId) {t : TaskId} (ht : t ≠ 0) :
    ((ofList ts curr).task t ∈ ts ∧ t ∈ (ofList ts curr).tasklist) ∨
      (ofList ts curr).task t = sleepingTask t := by
  obtain ⟨i, rfl⟩ := Nat.exists_eq_succ_of_ne_zero ht
  change (_ ∈ ts ∧ i + 1 ∈ List.range' 1 ts.length) ∨ _
  have htask : (ofList ts curr).task (i + 1) = ts.getD i (sleepingTask (i + 1 : ℕ)) :=
    List.getD_cons_succ
  by_cases hi : i < ts.length
  · rw [List.getD_eq_getElem _ _ hi] at htask
    exact .inl ⟨htask ▸ List.getElem_mem hi, List.mem_range'_1.mpr ⟨by omega, by omega⟩⟩
  · exact .inr (htask.trans (List.getD_eq_default _ _ (not_lt.mp hi)))

theorem rqInv_ofList {ts : List Task} {curr : TaskId}
    (hcurr : curr = 0 ∨ (((ofList ts curr).task curr).array ≠ none))
    (htasks : ∀ t ∈ ts, TaskInv (ofList ts curr).rq.toRqPtrs t) : (ofList ts curr).RqInv := by
  refine rqInv_ofTasks List.nodup_range' (fun t ht => ?_) ⟨rfl, rfl, rfl⟩ hcurr fun t ht => ?_
  · have hpos : t ≠ 0 := by
      rintro rfl
      exact ht rfl
    rcases ofList_task ts curr hpos with h | h
    · exact h.2
    · exact absurd (congrArg Task.array h) ht
  · rcases ofList_task ts curr ht with h | h
    · exact htasks _ h.1
    · change TaskInv _ ((ofList ts curr).task t)
      have hok : TaskOk (sleepingTask 0).toTaskSched := by decide
      rw [h]
      exact ⟨hok, nofun⟩

/-- What holds of the listed tasks, of the idle task and of tasks that sleep holds of all. -/
theorem ofList_forall {P : Task → Prop} {ts : List Task} (hidle : P idleTask)
    (hsleeps : ∀ pid, P (sleepingTask pid)) (hlisted : ∀ t ∈ ts, P t) (curr t : TaskId) :
    P ((ofList ts curr).task t) := by
  by_cases ht : t = 0
  · rw [ht]
    exact hidle
  · rcases ofList_task ts curr ht with h | h
    · exact hlisted _ h.1
    · rw [h]
      exact hsleeps t

theorem noFlags_ofList {ts : List Task} {curr : TaskId} (htasks : ∀ t ∈ ts, t.justGotForked = 0) :
    (ofList ts curr).NoFlags :=
  ofList_forall (P := fun t => t.justGotForked = 0) rfl (fun _ => rfl) htasks curr

/-- An OTHER task of the superuser runs alone. -/
def privilegedTask : Sys := ofList [{ timeSlice := 15, pid := 1, array := some .arrays0 }] 1

theorem policy_privilegedTask (t : TaskId) :
    (privilegedTask.task t).policy ≠ .short ∧ (privilegedTask.task t).iWasShort = 0 :=
  ofList_forall (P := fun t => t.policy ≠ .short ∧ t.iWasShort = 0) ⟨nofun, rfl⟩
    (fun _ => ⟨nofun, rfl⟩) (by decide) 1 t

end Sys
end ShortSched
