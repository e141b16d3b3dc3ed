import ShortSched.WakeTheorems

/-!
# What `set_user_nice` changes
-/

namespace ShortSched

/-! ## A task under `set_user_nice` -/

/-- The scheduling fields of a task after `set_user_nice`. -/
def TaskSched.renice (nice : ℤ) (p : TaskSched) : TaskSched :=
  if p.taskNice = nice ∨ nice < -20 ∨ nice > 19 then p
  else if p.RtTask then { p with staticPrio := niceToPrio nice }
  else if p.OverdueTask then { p with overdueStaticPrio := niceToPrio nice }
  else if p.ShortTask ∧ p.staticPrio = niceToPrio nice then p
  else { p with staticPrio := niceToPrio nice, prio := niceToPrio nice }

/-- `set_user_nice` changes priorities only. -/
theorem TaskSched.renice_eq (nice : ℤ) (p : TaskSched) : ∃ prio staticPrio overdueStaticPrio,
    p.renice nice =
      { p with
        prio := prio
        staticPrio := staticPrio
        overdueStaticPrio := overdueStaticPrio } := by
  unfold renice
  split
  · exact ⟨p.prio, p.staticPrio, p.overdueStaticPrio, rfl⟩
  split
  · exact ⟨p.prio, niceToPrio nice, p.overdueStaticPrio, rfl⟩
  split
  · exact ⟨p.prio, p.staticPrio, niceToPrio nice, rfl⟩
  split
  · exact ⟨p.prio, p.staticPrio, p.overdueStaticPrio, rfl⟩
  · exact ⟨niceToPrio nice, niceToPrio nice, p.overdueStaticPrio, rfl⟩

/-- It changes no task's class. -/
theorem TaskSched.renice_class (nice : ℤ) (p : TaskSched) :
    (p.renice nice).policy = p.policy ∧ (p.renice nice).iAmOverdue = p.iAmOverdue := by
  obtain ⟨prio, staticPrio, overdueStaticPrio, heq⟩ := p.renice_eq nice
  rw [heq]
  exact ⟨rfl, rfl⟩

namespace Sys

variable {s s' : Sys} {p t : TaskId}

/-! ## `set_user_nice` -/

/-- `static_prio` and `prio` at a new nice value. -/
def setNice (nice : ℤ) (t : Task) : Task :=
  { t with staticPrio := niceToPrio nice, prio := niceToPrio nice }

/-- `set_user_nice` puts the task back where it was queued. -/
def reniceQueued (p : TaskId) (nice : ℤ) (array : PrioArrayPtr) (s : Sys) : Sys :=
  ((s.dequeueTask p array).modify p (setNice nice)).enqueueTask p array

/-- What `set_user_nice` does, case by case. -/
inductive NiceCase (p : TaskId) (nice : ℤ) (s : Sys) : Sys → Prop
  | same (h : (s.task p).renice nice = (s.task p).toTaskSched) : NiceCase p nice s s
  | rt (hnice : -20 ≤ nice ∧ nice ≤ 19) (hrt : (s.task p).RtTask)
      (h : (s.task p).renice nice = { (s.task p).toTaskSched with staticPrio := niceToPrio nice }) :
      NiceCase p nice s (s.modify p fun t => { t with staticPrio := niceToPrio nice })
  | overdue (hnice : -20 ≤ nice ∧ nice ≤ 19) (hrt : ¬(s.task p).RtTask)
      (hover : (s.task p).OverdueTask)
      (h : (s.task p).renice nice =
        { (s.task p).toTaskSched with overdueStaticPrio := niceToPrio nice }) :
      NiceCase p nice s (s.modify p fun t => { t with overdueStaticPrio := niceToPrio nice })
  | sleeping (hnice : -20 ≤ nice ∧ nice ≤ 19) (hrt : ¬(s.task p).RtTask)
      (hover : ¬(s.task p).OverdueTask) (harray : (s.task p).array = none)
      (h : (s.task p).renice nice = (setNice nice (s.task p)).toTaskSched) :
      NiceCase p nice s (s.modify p (setNice nice))
  | queued (hnice : -20 ≤ nice ∧ nice ≤ 19) (hrt : ¬(s.task p).RtTask)
      (hover : ¬(s.task p).OverdueTask) {array : PrioArrayPtr}
      (harray : (s.task p).array = some array)
      (h : (s.task p).renice nice = (setNice nice (s.task p)).toTaskSched) :
      NiceCase p nice s (s.reniceQueued p nice array)
  | queuedResched (hnice : -20 ≤ nice ∧ nice ≤ 19) (hrt : ¬(s.task p).RtTask)
      (hover : ¬(s.task p).OverdueTask) {array : PrioArrayPtr}
      (harray : (s.task p).array = some array)
      (h : (s.task p).renice nice = (setNice nice (s.task p)).toTaskSched) :
      NiceCase p nice s
        ((s.reniceQueued p nice array).setTskNeedResched (s.reniceQueued p nice array).rq.curr)

theorem setUserNice_cases (p : TaskId) (nice : ℤ) (s : Sys) :
    NiceCase p nice s (s.setUserNice p nice) := by
  unfold setUserNice
  by_cases hsame : (s.task p).taskNice = nice ∨ nice < -20 ∨ nice > 19
  · rw [if_pos hsame]
    exact .same (by rw [TaskSched.renice, if_pos hsame])
  have hnice : -20 ≤ nice ∧ nice ≤ 19 := by
    rw [not_or, not_or] at hsame
    exact ⟨not_lt.mp hsame.2.1, not_lt.mp hsame.2.2⟩
  rw [if_neg hsame]
  by_cases hrt : (s.task p).RtTask
  · rw [if_pos hrt]
    exact .rt hnice hrt (by rw [TaskSched.renice, if_neg hsame, if_pos hrt])
  rw [if_neg hrt]
  by_cases hover : (s.task p).OverdueTask
  · rw [if_pos hover]
    exact .overdue hnice hrt hover
      (by rw [TaskSched.renice, if_neg hsame, if_neg hrt, if_pos hover])
  rw [if_neg hover]
  by_cases hshort : (s.task p).ShortTask ∧ (s.task p).staticPrio = niceToPrio nice
  · rw [if_pos hshort]
    exact .same (by rw [TaskSched.renice, if_neg hsame, if_neg hrt, if_neg hover, if_pos hshort])
  rw [if_neg hshort]
  have hrenice : (s.task p).renice nice = (setNice nice (s.task p)).toTaskSched := by
    rw [TaskSched.renice, if_neg hsame, if_neg hrt, if_neg hover, if_neg hshort]
    rfl
  cases harray : (s.task p).array with
  | none => exact .sleeping hnice hrt hover harray hrenice
  | some array =>
    dsimp only
    split
    · exact .queuedResched hnice hrt hover harray hrenice
    · exact .queued hnice hrt hover harray hrenice

theorem sameForks_setNice (p : TaskId) (nice : ℤ) (array : PrioArrayPtr) (s : Sys) :
    SameForks s ((s.dequeueTask p array).modify p (setNice nice)) where
  curr := by rw [modify_rq, dequeueTask_ptrs]
  tasklist := by simp
  policy := by
    rw [current, modify_rq, dequeueTask_ptrs, modify_proj (fun t => t.policy) rfl, dequeueTask_task]
  iAmOverdue t := by rw [modify_proj (fun t => t.iAmOverdue) rfl, dequeueTask_task]
  justGotForked t := by rw [modify_proj (fun t => t.justGotForked) rfl, dequeueTask_task]
  pOpptr t := by rw [modify_proj (fun t => t.pOpptr) rfl, dequeueTask_task]

theorem reniceQueued_task (p t : TaskId) (nice : ℤ) (array : PrioArrayPtr) (s : Sys) :
    (s.reniceQueued p nice array).task t =
      { (s.modify p (setNice nice)).task t with
        array := if t = p ∨ t ∈ s.pulled p then some array else (s.task t).array
        justGotForked := if t ∈ s.pulled p then 0 else (s.task t).justGotForked } := by
  rw [reniceQueued, enqueueTask_task, (sameForks_setNice p nice array s).pulled_eq,
    modify_proj (fun t => t.array) rfl, modify_proj (fun t => t.justGotForked) rfl,
    dequeueTask_task]
  simp only [modify_task, dequeueTask_task]

/-- **`set_user_nice`** takes its task through `renice` and changes no other task's scheduling
fields. -/
theorem setUserNice_sched (p t : TaskId) (nice : ℤ) (s : Sys) :
    ((s.setUserNice p nice).task t).toTaskSched =
      if t = p then (s.task p).renice nice else (s.task t).toTaskSched := by
  have hcase := s.setUserNice_cases p nice
  generalize s.setUserNice p nice = s' at hcase ⊢
  by_cases ht : t = p
  · subst ht
    rw [if_pos rfl]
    cases hcase with
    | same h => exact h.symm
    | rt _ _ h => simp [h]
    | overdue _ _ _ h => simp [h]
    | sleeping _ _ _ _ h => simp [h]
    | queued _ _ _ _ h => simp [h, reniceQueued_task]
    | queuedResched _ _ _ _ h =>
      rw [h, (SameTasks.setTskNeedResched _ _).sched, reniceQueued_task]
      simp
  · rw [if_neg ht]
    cases hcase with
    | same => rfl
    | rt => simp [ht]
    | overdue => simp [ht]
    | sleeping => simp [ht]
    | queued => simp [ht, reniceQueued_task]
    | queuedResched =>
      rw [(SameTasks.setTskNeedResched _ _).sched, reniceQueued_task]
      simp [ht]

/-- `set_user_nice` moves no task but those that the fork branch pulls along. -/
theorem setUserNice_frame (p t : TaskId) (nice : ℤ) (s : Sys) (ht : t ∉ s.pulled p) :
    ((s.setUserNice p nice).task t).array = (s.task t).array ∧
      ((s.setUserNice p nice).task t).justGotForked = (s.task t).justGotForked := by
  have hcase := s.setUserNice_cases p nice
  generalize s.setUserNice p nice = s' at hcase ⊢
  have hqueued : ∀ array, (s.task p).array = some array →
      ((s.reniceQueued p nice array).task t).array = (s.task t).array ∧
        ((s.reniceQueued p nice array).task t).justGotForked = (s.task t).justGotForked := by
    intro array harray
    rw [reniceQueued_task]
    simp only [ht, or_false, if_false, and_true]
    split
    · next htp => rw [htp, harray]
    · rfl
  cases hcase with
  | same => exact ⟨rfl, rfl⟩
  | rt | overdue | sleeping =>
    exact ⟨modify_proj (fun t => t.array) rfl t, modify_proj (fun t => t.justGotForked) rfl t⟩
  | queued _ _ _ harray => exact hqueued _ harray
  | queuedResched _ _ _ harray =>
    rw [(SameTasks.setTskNeedResched _ _).array, (SameTasks.setTskNeedResched _ _).justGotForked]
    exact hqueued _ harray

theorem setUserNice_ptrs (p : TaskId) (nice : ℤ) (s : Sys) :
    (s.setUserNice p nice).rq.toRqPtrs = s.rq.toRqPtrs := by
  have hcase := s.setUserNice_cases p nice
  generalize s.setUserNice p nice = s' at hcase ⊢
  have hqueued : ∀ array, (s.reniceQueued p nice array).rq.toRqPtrs = s.rq.toRqPtrs := by
    intro array
    rw [reniceQueued, enqueueTask_ptrs, modify_rq, dequeueTask_ptrs]
  cases hcase with
  | same | rt | overdue | sleeping => rfl
  | queued | queuedResched => exact hqueued _

/-- Of what is recorded about tasks `set_user_nice` changes `need_resched` alone. -/
theorem setUserNice_info (p t : TaskId) (nice : ℤ) (s : Sys) : ∃ needResched,
    ((s.setUserNice p nice).task t).toTaskInfo =
      { (s.task t).toTaskInfo with needResched := needResched } := by
  have hcase := s.setUserNice_cases p nice
  generalize s.setUserNice p nice = s' at hcase ⊢
  have hqueued : ∀ array,
      ((s.reniceQueued p nice array).task t).toTaskInfo = (s.task t).toTaskInfo := by
    intro array
    rw [reniceQueued_task]
    exact modify_proj (fun t => t.toTaskInfo) rfl t
  cases hcase with
  | same => exact ⟨_, rfl⟩
  | rt | overdue | sleeping => exact ⟨_, modify_proj (fun t => t.toTaskInfo) rfl t⟩
  | queued => exact ⟨_, hqueued _⟩
  | queuedResched =>
    rw [setTskNeedResched, modify_task, Function.update_apply]
    split
    · next ht =>
      refine ⟨1, ?_⟩
      rw [← ht, ← hqueued]
    · exact ⟨_, hqueued _⟩

end Sys
end ShortSched
